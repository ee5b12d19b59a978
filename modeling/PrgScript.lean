import PrgScript.Main
import PrgScript.Proofs.Bounds
import PrgScript.Proofs.ClassLookup
import PrgScript.Proofs.ColorCalls
import PrgScript.Proofs.Frozen
import PrgScript.Proofs.Joining
import PrgScript.Proofs.LastStored
import PrgScript.Proofs.LineEnds
import PrgScript.Proofs.Lines
import PrgScript.Proofs.Lookahead
import PrgScript.Proofs.Names
import PrgScript.Proofs.ProgressRows
import PrgScript.Proofs.Recased
import PrgScript.Proofs.Respaced
import PrgScript.Proofs.Rewinding
import PrgScript.Proofs.Screen
import PrgScript.Proofs.Uncached
import PrgScript.Proofs.Underline
import PrgScript.Proofs.Unreached
