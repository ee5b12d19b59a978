import PrgScript.Scanner.Basic

/-!
# Tokenizing a script

The whole answer to a request for the tokens of a script in some dialect: the tokens
found before the first error, and the error.
-/

namespace PrgScript

/-- Why a script cannot be read: something is wrong with it, or its dialect is unknown. -/
inductive ScriptFailure where
  | script (error : ScriptError)
  | unknownDialect
deriving DecidableEq, Repr

def ScriptFailure.message : ScriptFailure → Text
  | .script e => e.message
  | .unknownDialect => Lexer.unsupported

/-- The tokens of a script, with what ended them and the diagnostics to show. -/
structure Tokenization where
  file : File
  tokens : List Token := []
  failure : Option ScriptFailure := none

namespace Tokenization

def bag (t : Tokenization) : Bag :=
  match t.failure with
  | some (.script e) => { items := [e.diagnostic] }
  | _ => {}

/-- The tokens of a script up to its end or its first error. -/
def ofFile (file : File) : Option Dialect → Tokenization
  | none => { file, failure := some .unknownDialect }
  | some d =>
    let stream := TokenStream.ofFile file d
    { file, tokens := stream.all
      failure := match stream.ending with
        | .eof _ => none
        | .error e _ => some (.script e) }

end Tokenization

end PrgScript
