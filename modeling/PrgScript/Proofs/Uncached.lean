import Mathlib.Control.Monad.Basic
import PrgScript.Machine.Recorder
import PrgScript.Pipeline.Basic
import PrgScript.Proofs.Caching
import PrgScript.Proofs.LockStep
import PrgScript.Proofs.Tracing
import PrgScript.Proofs.TwinCompile

/-!
# Running without a cache

A cache saves work and changes nothing else. `direct` is what a run would do without one:
load the script, compile it, execute the program. The invariant behind it is that every
artifact in the cache was made from a script that was loaded under the same name. If its
digest is that of the script at hand, and digests of the scripts involved do not collide,
the two scripts have the same content, so compiling the one at hand gives the program in
the artifact.
-/

namespace PrgScript

open Disk

/-! ### A script under another path -/

theorem Scanner.scan_congr {file file' : File} (ids : file.id = file'.id) {d : Dialect}
    {c c' : Cursor} {tok : Token} (h : scan file d c = (⟨tok, none⟩, c')) :
    scan file' d c = (⟨tok, none⟩, c') := by
  have tokens (kind : Kind) (value : Text) (length : Nat) (start stop : Cursor) :
      tokenBetween file' kind value length start stop =
        tokenBetween file kind value length start stop := by
    rw [tokenBetween, tokenBetween, ids]
  unfold scan at h ⊢
  split at h
  next found =>
    cases h
  next count skipped =>
    dsimp only at h ⊢
    split at h
    next ends =>
      rw [tokens]
      exact h
    next g rest ahead =>
      split at h
      next lexed =>
        rw [tokens]
        exact h
      next => cases h

theorem TokenStream.scanFrom_congr {file file' : File} (ids : file.id = file'.id) {d : Dialect}
    {fuel : Nat} {c : Cursor} {toks : List Token} {eof : Token}
    (h : scanFrom file d fuel c = ⟨toks, .eof eof⟩) :
    scanFrom file' d fuel c = ⟨toks, .eof eof⟩ := by
  induction fuel generalizing c toks with
  | zero =>
      rw [scanFrom] at h ⊢
      rw [← h, Scanner.tokenBetween, Scanner.tokenBetween, ids]
  | succ fuel ih =>
      rw [scanFrom] at h ⊢
      split at h
      next => cases h
      next tok c' scanned =>
        rw [Scanner.scan_congr ids scanned]
        dsimp only
        split at h
        next last =>
          rw [if_pos last]
          exact h
        next more =>
          rw [if_neg more]
          cases rest : scanFrom file d fuel c' with
          | mk toks' ending =>
              rw [rest] at h
              cases h
              rw [ih rest]

/-- A script compiles to the same program under every path with the same name. -/
theorem compile_congr {file file' : File} (ids : file.id = file'.id)
    (contents : file.content = file'.content)
    (stems : Path.stem file.path = Path.stem file'.path) {limit : Int} {name : Text}
    {compiled : Compiled} (h : (compile file (some .dbase) limit name).result = .ok compiled) :
    (compile file' (some .dbase) limit name).result = .ok compiled := by
  have names : programName file name = programName file' name := by
    rw [programName, programName, stems]
  rw [compile_result] at h ⊢
  have ended : (compileIn file .dbase name {}).result = .ok compiled := by
    cases result : (compileIn file .dbase name {}).result with
    | error e =>
        rw [result] at h
        cases h
    | ok compiled' =>
        rw [result] at h
        cases h
        rfl
  obtain ⟨w', ran, -⟩ := freshRun_of_compileIn ended
  obtain ⟨toks, eof, w, scanned, runs, finished⟩ := freshRun_eq_ok_iff.1 ran
  have scanned' : TokenStream.ofFile file' .dbase = ⟨toks, .eof eof⟩ := by
    rw [TokenStream.ofFile, ← contents]
    exact TokenStream.scanFrom_congr ids scanned
  have ran' := freshRun_eq_ok_iff.2 ⟨toks, eof, w, scanned', names ▸ runs, finished⟩
  rw [compileIn_of_freshRun ran']
  rfl

/-! ### What a run does -/

namespace Pipeline

variable {σ : Type}

def load (disk : Disk) (path : Text) : Except RunError File :=
  match disk.readBytes path with
  | .ok bytes => .ok (File.ofDisk path bytes)
  | .error e => .error (.load path e)

def translate (p : Pipeline σ) (file : File) : Except RunError Compiled :=
  (compile file (some .dbase) p.limit p.unitName).result.mapError .compile

theorem translate_congr {p : Pipeline σ} {file file' : File} (ids : file.id = file'.id)
    (contents : file.content = file'.content)
    (stems : Path.stem file.path = Path.stem file'.path) {compiled : Compiled}
    (h : p.translate file = .ok compiled) : p.translate file' = .ok compiled := by
  rw [translate] at h ⊢
  cases result : (compile file (some .dbase) p.limit p.unitName).result with
  | error e =>
      rw [result] at h
      cases h
  | ok compiled' =>
      rw [result] at h
      cases h
      rw [compile_congr ids contents stems result]
      rfl

/-- The console after a program is executed, and why it failed if it did. -/
def executed (p : Pipeline σ) (program : Program) (console : σ) (args : List Value) :
    σ × Option RunError :=
  let ran := Machine.run { program } p.console console {} 0 p.rounds args
  match ran.result with
  | .ok _ => (ran.console, none)
  | .error stop => (ran.console, some (.exec stop))

/-- What the script at a path is compiled to. -/
def translated (p : Pipeline σ) (disk : Disk) (path : Text) : Except RunError Compiled :=
  load disk path >>= p.translate

/-- What a run would do without a cache. -/
def direct (p : Pipeline σ) (disk : Disk) (console : σ) (path : Text) (args : List Value) :
    σ × Option RunError :=
  match p.translated disk path with
  | .ok compiled => p.executed compiled.program console args
  | .error e => (console, some e)

/-- No artifact in the cache can be used for a script. -/
def Misses (p : Pipeline σ) (disk : Disk) (path : Text) (file : File) : Prop :=
  ∀ a, ((p.cache.lookup path file.hash : StateM Disk _) disk).1 ≠ .ok (some a)

/-- The artifact of the script at a path has to be written and cannot be. -/
def Unkept (p : Pipeline σ) (disk : Disk) (path : Text) (e : CacheError) : Prop :=
  ∃ file compiled, load disk path = .ok file ∧ p.Misses disk path file ∧
    p.translate file = .ok compiled ∧
    ((p.cache.store path file.hash 0 (some compiled) : StateM Disk _) disk).1 = .error e

/-- The ways in which a run can end: with an error if it fails, with a console, with something
compiled or found or not, and with a disk. -/
inductive Ends (p : Pipeline σ) (disk : Disk) (console : σ) (path : Text) (args : List Value) :
    σ × Option RunError → Nat → Disk → Prop
  | unread {e : RunError} (failed : load disk path = .error e) :
      Ends p disk console path args (console, some e) 0 disk
  | found {file : File} {a : Artifact} (loaded : load disk path = .ok file)
      (hit : ((p.cache.lookup path file.hash : StateM Disk _) disk).1 = .ok (some a)) :
      Ends p disk console path args (p.executed a.program console args) 1 disk
  | rejected {file : File} {e : RunError} (loaded : load disk path = .ok file)
      (failed : p.translate file = .error e) :
      Ends p disk console path args (console, some e) 0 disk
  | unkept {file : File} {compiled : Compiled} {e : CacheError} {disk' : Disk}
      (loaded : load disk path = .ok file) (misses : p.Misses disk path file)
      (translated : p.translate file = .ok compiled)
      (stored : (p.cache.store path file.hash 0 (some compiled) : StateM Disk _) disk =
        (.error e, disk')) :
      Ends p disk console path args (console, some (.cache path e)) 1 disk'
  | kept {file : File} {compiled : Compiled} {a : Artifact} {disk' : Disk}
      (loaded : load disk path = .ok file) (translated : p.translate file = .ok compiled)
      (stored : (p.cache.store path file.hash 0 (some compiled) : StateM Disk _) disk =
        (.ok a, disk')) :
      Ends p disk console path args (p.executed a.program console args) 1 disk'

theorem executed_eq (p : Pipeline σ) (program : Program) (console : σ) (args : List Value)
    (tracer : Trace.Tracer) (span : Nat) :
    let ran := Machine.run { program } p.console console tracer span p.rounds args
    p.executed program console args =
      match ran.result with
      | .ok _ => (ran.console, none)
      | .error stop => (ran.console, some (.exec stop)) := by
  intro ran
  obtain ⟨ended, left, result, notes, -, same⟩ :=
    Machine.run_observed { program } p.console console p.rounds args
  obtain ⟨-, console₁, result₁, -⟩ := same {} 0
  obtain ⟨-, console₂, result₂, -⟩ := same tracer span
  rw [executed]
  rw [console₁, result₁, show ran.result = result from result₂,
    show ran.console = left from console₂]

/-- What is seen of a run: the console and the error, the number of scripts compiled or found, and
the disk. -/
def Shows (out : Progress σ × Disk) (seen : σ × Option RunError) (count : Nat) (disk : Disk) :
    Prop :=
  (out.1.2.console, out.1.1.error) = seen ∧ out.1.2.compilations + out.1.2.hits = count ∧
    out.2 = disk

theorem shows_execute (p : Pipeline σ) (span : Nat) (args : List Value) (a : Artifact)
    (r : RunResult) (s : PipelineState σ) (disk : Disk) (fine : r.error = none) :
    Shows ((p.execute span args a (r, s) : StateM Disk (Progress σ)) disk)
      (p.executed a.program s.console args) (s.compilations + s.hits) disk := by
  rw [executed_eq p a.program s.console args s.tracer span, execute, run_bind]
  show Shows ((match (Machine.run { program := a.program } p.console s.console s.tracer span
    p.rounds args).result with
    | .ok _ => _
    | .error stop => _ : StateM Disk (Progress σ)) disk) _ _ _
  cases (Machine.run { program := a.program } p.console s.console s.tracer span
      p.rounds args).result with
  | ok done => exact ⟨by rw [← fine]; rfl, rfl, rfl⟩
  | error stop => exact ⟨rfl, rfl, rfl⟩

theorem run_timed {α : Type} (work : Unit → StateM Disk α) (disk : Disk) :
    (Clock.timed work : StateM Disk _) disk = (((work () disk).1, 0), (work () disk).2) := rfl

theorem run_now (disk : Disk) : (Clock.now : StateM Disk Int) disk = (0, disk) := rfl

theorem run_pure {α : Type} (a : α) (disk : Disk) : (pure a : StateM Disk α) disk = (a, disk) := rfl

theorem ends_compileAndExecute (p : Pipeline σ) (span : Nat) (args : List Value) {file : File}
    (r : RunResult) (s : PipelineState σ) {disk : Disk} (fine : r.error = none)
    (loaded : load disk r.path = .ok file) (misses : p.Misses disk r.path file) :
    ∃ seen added disk',
      Shows ((p.compileAndExecute pure span args file (r, s) : StateM Disk (Progress σ)) disk)
        seen (s.compilations + s.hits + added) disk' ∧
      Ends p disk s.console r.path args seen added disk' := by
  rw [compileAndExecute]
  simp only [run_bind, run_timed, run_pure]
  cases result : (compile file (some .dbase) p.limit p.unitName).result with
  | error e =>
      have failed : p.translate file = .error (.compile e) := by rw [translate, result]; rfl
      exact ⟨_, _, _, ⟨rfl, rfl, rfl⟩, .rejected loaded failed⟩
  | ok compiled =>
      have translated : p.translate file = .ok compiled := by rw [translate, result]; rfl
      simp only [run_bind, run_timed, run_pure, run_now, RunResult.tell, RunResult.addTime]
      cases stored : (p.cache.store r.path file.hash 0 (some compiled) : StateM Disk _) disk with
      | mk ended disk' =>
          cases ended with
          | error e =>
              refine ⟨_, _, _, ⟨rfl, Nat.add_right_comm _ 1 _, rfl⟩, ?_⟩
              exact .unkept loaded misses translated stored
          | ok a =>
              refine ⟨_, _, _, ?_, .kept loaded translated stored⟩
              rw [Nat.add_right_comm]
              exact p.shows_execute span args a _ _ disk' fine

theorem ends_runFile (p : Pipeline σ) (span : Nat) (args : List Value) {file : File}
    (r : RunResult) (s : PipelineState σ) {disk : Disk} (fine : r.error = none)
    (loaded : load disk r.path = .ok file) :
    ∃ seen added disk',
      Shows ((p.runFile pure span args file (r, s) : StateM Disk (Progress σ)) disk)
        seen (s.compilations + s.hits + added) disk' ∧
      Ends p disk s.console r.path args seen added disk' := by
  rw [runFile]
  simp only [run_bind, run_timed, RunResult.tell, RunResult.addTime]
  rw [show ((p.cache.lookup r.path file.hash : StateM Disk _) disk).2 = disk by
    rw [Cache.run_lookup]]
  cases found : ((p.cache.lookup r.path file.hash : StateM Disk _) disk).1 with
  | error e =>
      apply p.ends_compileAndExecute span args
      · exact fine
      · exact loaded
      · intro a hit
        cases found.symm.trans hit
  | ok answer =>
      cases answer with
      | none =>
          apply p.ends_compileAndExecute span args
          · exact fine
          · exact loaded
          · intro a hit
            cases found.symm.trans hit
      | some a =>
          refine ⟨_, _, _, ?_, .found loaded found⟩
          exact p.shows_execute span args a _ _ disk fine

/-- A run ends in one of the ways. -/
theorem ends_run (p : Pipeline σ) (s : PipelineState σ) (path : Text) (args : List Value)
    (disk : Disk) :
    ∃ seen added disk',
      Shows ((p.run s path args : StateM Disk (Progress σ)) disk) seen
        (s.compilations + s.hits + added) disk' ∧
      Ends p disk s.console path args seen added disk' := by
  rw [run]
  simp only [run_bind, run_pure, RunResult.tell]
  rw [show (Files.readBytes path : StateM Disk _) disk = (disk.readBytes path, disk) from rfl]
  cases read : disk.readBytes path with
  | error e =>
      have failed : load disk path = .error (.load path e) := by rw [load, read]
      exact ⟨_, _, _, ⟨rfl, rfl, rfl⟩, .unread failed⟩
  | ok bytes =>
      have loaded : load disk path = .ok (File.ofDisk path bytes) := by rw [load, read]
      exact p.ends_runFile _ args _ _ rfl loaded

/-! ### A pipeline at work -/

/-- What can be done with a pipeline and the disk that it works on. -/
inductive Deed where
  | write (path bytes : Text)
  | run (path : Text) (args : List Value)
  | clean (mark : Text)

/-- A pipeline at work: its disk, and what one run leaves to the next. -/
structure Workplace (σ : Type) where
  disk : Disk
  state : PipelineState σ

namespace Workplace

def run (p : Pipeline σ) (work : Workplace σ) (path : Text) (args : List Value) :
    RunResult × Workplace σ :=
  let ((r, state), disk) := (p.run work.state path args : StateM Disk _) work.disk
  (r, { disk, state })

/-- Where a deed leads. One that fails may still have changed the disk. -/
def next (p : Pipeline σ) (work : Workplace σ) : Deed → Workplace σ
  | .write path bytes =>
    { work with disk := ((Files.writeBytes path bytes : StateM Disk _) work.disk).2 }
  | .run path args => (work.run p path args).2
  | .clean mark =>
    { work with disk := ((p.cache.clean mark : StateM Disk _) work.disk).2 }

def after (p : Pipeline σ) (work : Workplace σ) (deeds : List Deed) : Workplace σ :=
  deeds.foldl (next p) work

/-- The script that a deed loads, if it does, with the path it is loaded from. -/
def loads (work : Workplace σ) : Deed → List (Text × File)
  | .run path _ =>
    match load work.disk path with
    | .ok file => [(path, file)]
    | .error _ => []
  | .write .. | .clean _ => []

def scripts (p : Pipeline σ) (work : Workplace σ) : List Deed → List (Text × File)
  | [] => []
  | deed :: deeds => work.loads deed ++ (work.next p deed).scripts p deeds

theorem scripts_append (p : Pipeline σ) (work : Workplace σ) (deeds deeds' : List Deed) :
    work.scripts p (deeds ++ deeds') =
      work.scripts p deeds ++ (work.after p deeds).scripts p deeds' := by
  induction deeds generalizing work with
  | nil => rfl
  | cons deed deeds ih =>
      rw [List.cons_append, scripts, scripts, ih, List.append_assoc]
      rfl

theorem mem_loads {work : Workplace σ} {path : Text} {file : File} (args : List Value)
    (h : load work.disk path = .ok file) : (path, file) ∈ work.loads (.run path args) := by
  rw [loads, h]
  exact List.mem_singleton_self _

end Workplace

/-- Nothing decodes at first where an artifact belongs, and nothing that does is written there. -/
structure Unforged (cache : Cache) (start : Disk) (deeds : List Deed) : Prop where
  atFirst : ∀ script bytes, start.get? (cache.placeFor start script) = some (.file bytes) →
    (Artifact.decode bytes).isOk = false
  written : ∀ path bytes script, .write path bytes ∈ deeds →
    start.placeOf path = cache.placeFor start script → (Artifact.decode bytes).isOk = false

/-- The digests of scripts do not collide, and their artifacts are decoded to what was encoded. -/
structure Reliable (p : Pipeline σ) (scripts : List (Text × File)) : Prop where
  apart : ∀ s ∈ scripts, ∀ s' ∈ scripts, s.2.hash = s'.2.hash → s.2.content = s'.2.content
  decodes : ∀ s ∈ scripts, ∀ compiled, p.translate s.2 = .ok compiled →
    Artifact.decode (Cache.artifact s.1 s.2.hash 0 compiled).encode =
      .ok (Cache.artifact s.1 s.2.hash 0 compiled)

/-! ### Genuine artifacts -/

/-- An artifact was made from a script that was loaded under a name. -/
def Genuine (p : Pipeline σ) (scripts : List (Text × File)) (name : Text) (a : Artifact) : Prop :=
  ∃ path file compiled, (path, file) ∈ scripts ∧ file.id = 0 ∧ Path.stem file.path = name ∧
    p.translate file = .ok compiled ∧ a.hash = file.hash ∧ a.program = compiled.program

/-- Every artifact in the cache is genuine. -/
structure Faithful (p : Pipeline σ) (scripts : List (Text × File)) (start disk : Disk) : Prop where
  wellFormed : disk.WellFormed
  workingDirectory : disk.workingDirectory = start.workingDirectory
  genuine : ∀ script bytes a, disk.get? (p.cache.placeFor start script) = some (.file bytes) →
    Artifact.decode bytes = .ok a → p.Genuine scripts (Cache.key script) a

theorem load_eq_ok {disk : Disk} (wf : disk.WellFormed) {path : Text} {file : File}
    (h : load disk path = .ok file) :
    file.id = 0 ∧ Path.stem file.path = Cache.key path ∧ ¬Path.IsRoot path := by
  rw [load] at h
  split at h
  next bytes read =>
    cases h
    obtain ⟨init, name, isName, pieces⟩ := wf.name_of_readBytes read
    refine ⟨rfl, Path.stem_clean isName pieces, ?_⟩
    rintro ⟨nonempty, slashes⟩
    have isSlash := Path.base_of_splitOn isName pieces
    rw [Path.base, if_neg nonempty, if_pos slashes] at isSlash
    exact isName.plain (by simp [← isSlash])
  next => cases h

/-- What is found for a script that is loaded now is what the script is compiled to. -/
theorem Faithful.translate_of_hit {p : Pipeline σ} {scripts : List (Text × File)}
    {start disk : Disk} (h : p.Faithful scripts start disk) (reliable : p.Reliable scripts)
    (checked : p.cache.trustsNames = false) {path : Text} {file : File} {a : Artifact}
    (loaded : load disk path = .ok file) (mem : (path, file) ∈ scripts)
    (hit : ((p.cache.lookup path file.hash : StateM Disk _) disk).1 = .ok (some a)) :
    ∃ compiled, p.translate file = .ok compiled ∧ a.program = compiled.program := by
  obtain ⟨id, stem, named⟩ := load_eq_ok h.wellFormed loaded
  obtain ⟨bytes, read, decoded, accepted⟩ := Cache.lookup_eq_some hit
  have there : disk.get? (p.cache.placeFor start path) = some (.file bytes) := by
    obtain ⟨place, found⟩ := readBytes_eq_ok.1 read
    obtain ⟨resolved, there⟩ := find_eq_ok.1 found
    rw [resolve_eq_placeOf resolved, Cache.placeOf_pathOf named] at there
    rw [← Cache.placeFor_congr h.workingDirectory]
    exact there
  obtain ⟨path', file', compiled, mem', id', stem', translated, hash, program⟩ :=
    h.genuine path bytes a there decoded
  refine ⟨compiled, ?_, program⟩
  have contents : file'.content = file.content := by
    apply reliable.apart _ mem' _ mem
    have same : a.schema = Artifact.currentSchema ∧ a.hash = file.hash := by
      simpa [Cache.accepts, checked] using accepted
    rw [← hash, same.2]
  exact translate_congr (id'.trans id.symm) contents (stem'.trans stem.symm) translated

namespace Faithful

variable {p : Pipeline σ} {scripts : List (Text × File)} {start disk disk' : Disk}

/-- A disk on which every file in place of an artifact was there before, or is no artifact, or is a
genuine one. -/
theorem of_get? (h : p.Faithful scripts start disk) (wf : disk'.WellFormed)
    (same : disk'.workingDirectory = disk.workingDirectory)
    (files : ∀ script bytes, disk'.get? (p.cache.placeFor start script) = some (.file bytes) →
      disk.get? (p.cache.placeFor start script) = some (.file bytes) ∨
        ∀ a, Artifact.decode bytes = .ok a → p.Genuine scripts (Cache.key script) a) :
    p.Faithful scripts start disk' := by
  refine ⟨wf, same.trans h.workingDirectory, ?_⟩
  intro script bytes a there decoded
  cases files script bytes there with
  | inl before => exact h.genuine script bytes a before decoded
  | inr new => exact new a decoded

theorem spared (h : p.Faithful scripts start disk) (spared : Spared disk disk') :
    p.Faithful scripts start disk' := by
  apply h.of_get? spared.wellFormed spared.workingDirectory
  intro script bytes there
  obtain same | gone | isDirectory := spared.get? _ (p.cache.neverFresh_placeFor start script)
  · exact .inl (same ▸ there)
  · rw [gone] at there
    cases there
  · rw [isDirectory] at there
    cases there

theorem write (h : p.Faithful scripts start disk) {path bytes : Text}
    (unforged : ∀ script, start.placeOf path = p.cache.placeFor start script →
      (Artifact.decode bytes).isOk = false) :
    p.Faithful scripts start ((Files.writeBytes path bytes : StateM Disk _) disk).2 := by
  rw [show (Files.writeBytes path bytes : StateM Disk _) disk = _ from run_change _ disk]
  cases wrote : disk.writeBytes path bytes with
  | error e => exact h
  | ok disk' =>
      obtain ⟨wf, same, get?⟩ := h.wellFormed.writeBytes wrote
      apply h.of_get? wf same
      intro script bytes' there
      rw [get?] at there
      split at there
      next here =>
        cases there
        refine .inr fun a decoded => ?_
        rw [placeOf_congr h.workingDirectory] at here
        have undecoded := unforged script here.symm
        rw [decoded] at undecoded
        cases undecoded
      next => exact .inl there

theorem clean (h : p.Faithful scripts start disk) (mark : Text) :
    p.Faithful scripts start ((p.cache.clean mark : StateM Disk _) disk).2 := by
  cases cleaned : (p.cache.clean mark : StateM Disk _) disk with
  | mk result disk' =>
      cases Cache.clean_cases h.wellFormed cleaned with
      | inl emptied =>
          obtain ⟨wf, same, gone⟩ := emptied
          apply h.of_get? wf same
          intro script bytes there
          rw [Cache.placeFor, ← placeOf_congr h.workingDirectory, gone] at there
          cases there
      | inr unchanged => exact unchanged.1 ▸ h

theorem store (h : p.Faithful scripts start disk) (reliable : p.Reliable scripts) {path : Text}
    {file : File} {compiled : Compiled} {result : Except CacheError Artifact}
    (loaded : load disk path = .ok file) (mem : (path, file) ∈ scripts)
    (translated : p.translate file = .ok compiled)
    (stored : (p.cache.store path file.hash 0 (some compiled) : StateM Disk _) disk =
      (result, disk')) :
    p.Faithful scripts start disk' := by
  cases Cache.store_cases h.wellFormed stored with
  | inr failed =>
      obtain ⟨e, -, spared⟩ := failed
      exact h.spared spared
  | inl done =>
      obtain ⟨-, put⟩ := done
      obtain ⟨id, stem, named⟩ := load_eq_ok h.wellFormed loaded
      have place : disk.placeOf (p.cache.pathOf path) = p.cache.placeFor start path := by
        rw [Cache.placeOf_pathOf named, Cache.placeFor_congr h.workingDirectory]
      apply h.of_get? put.wellFormed put.workingDirectory
      intro script bytes there
      by_cases here : p.cache.placeFor start script = p.cache.placeFor start path
      · have found := (find_eq_ok.1 put.found).2
        rw [place, ← here, there] at found
        cases found
        refine .inr fun a decoded => ?_
        rw [reliable.decodes _ mem compiled translated] at decoded
        cases decoded
        rw [Cache.key_eq_of_placeFor here]
        exact ⟨path, file, compiled, mem, id, stem, translated, rfl, rfl⟩
      · obtain same | made :=
          put.others _ (p.cache.neverFresh_placeFor start script) (place ▸ here)
        · exact .inl (same ▸ there)
        · rw [made.2.1] at there
          cases there

theorem run (h : p.Faithful scripts start disk) (reliable : p.Reliable scripts) {path : Text}
    (mem : ∀ file, load disk path = .ok file → (path, file) ∈ scripts) {console : σ}
    {args : List Value} {seen : σ × Option RunError} {added : Nat}
    (ends : p.Ends disk console path args seen added disk') : p.Faithful scripts start disk' := by
  cases ends with
  | unread => exact h
  | found => exact h
  | rejected => exact h
  | unkept loaded _ translated stored =>
      exact h.store reliable loaded (mem _ loaded) translated stored
  | kept loaded translated stored =>
      exact h.store reliable loaded (mem _ loaded) translated stored

theorem next {work : Workplace σ} (h : p.Faithful scripts start work.disk)
    (reliable : p.Reliable scripts) {deed : Deed} (mem : ∀ s ∈ work.loads deed, s ∈ scripts)
    (unforged : ∀ path bytes script, deed = .write path bytes →
      start.placeOf path = p.cache.placeFor start script → (Artifact.decode bytes).isOk = false) :
    p.Faithful scripts start (work.next p deed).disk := by
  cases deed with
  | write path bytes => exact h.write fun script => unforged path bytes script rfl
  | clean mark => exact h.clean mark
  | run path args =>
      obtain ⟨seen, added, disk', shows, ends⟩ := p.ends_run work.state path args work.disk
      have run := h.run reliable (fun file loaded => mem _ (Workplace.mem_loads args loaded)) ends
      rw [← shows.2.2] at run
      exact run

/-- Whatever is done, the artifacts in the cache are genuine. -/
theorem after {work : Workplace σ} (h : p.Faithful scripts start work.disk)
    (reliable : p.Reliable scripts) {deeds : List Deed}
    (mem : ∀ s ∈ work.scripts p deeds, s ∈ scripts)
    (unforged : ∀ path bytes script, .write path bytes ∈ deeds →
      start.placeOf path = p.cache.placeFor start script → (Artifact.decode bytes).isOk = false) :
    p.Faithful scripts start (work.after p deeds).disk := by
  induction deeds generalizing work with
  | nil => exact h
  | cons deed deeds ih =>
      apply ih
      · apply h.next reliable
        · intro s loaded
          exact mem s (List.mem_append_left _ loaded)
        · rintro path bytes script rfl
          exact unforged path bytes script List.mem_cons_self
      · intro s later
        exact mem s (List.mem_append_right _ later)
      · intro path bytes script later
        exact unforged path bytes script (List.mem_cons_of_mem _ later)

/-- What is seen of a run on a disk with genuine artifacts only. -/
theorem uncached (h : p.Faithful scripts start disk) (reliable : p.Reliable scripts)
    (checked : p.cache.trustsNames = false) {path : Text}
    (mem : ∀ file, load disk path = .ok file → (path, file) ∈ scripts) {console : σ}
    {args : List Value} {seen : σ × Option RunError} {added : Nat}
    (ends : p.Ends disk console path args seen added disk') :
    (seen = p.direct disk console path args ∨
        ∃ e, p.Unkept disk path e ∧ seen = (console, some (.cache path e))) ∧
      ((p.translated disk path).isOk = false → disk' = disk) ∧
      added = if (p.translated disk path).isOk then 1 else 0 := by
  have translated_eq {file : File} (loaded : load disk path = .ok file) :
      p.translated disk path = p.translate file := by
    rw [Pipeline.translated, loaded]
    rfl
  cases ends with
  | @unread e failed =>
      have fails : p.translated disk path = .error e := by
        rw [Pipeline.translated, failed]
        rfl
      rw [direct, fails]
      exact ⟨.inl rfl, fun _ => rfl, rfl⟩
  | rejected loaded failed =>
      rw [direct, translated_eq loaded, failed]
      exact ⟨.inl rfl, fun _ => rfl, rfl⟩
  | found loaded hit =>
      obtain ⟨compiled, translated, program⟩ :=
        h.translate_of_hit reliable checked loaded (mem _ loaded) hit
      rw [direct, translated_eq loaded, translated, program]
      exact ⟨.inl rfl, fun _ => rfl, rfl⟩
  | unkept loaded misses translated stored =>
      rw [translated_eq loaded, translated]
      refine ⟨.inr ⟨_, ⟨_, _, loaded, misses, translated, ?_⟩, rfl⟩, (fun fails => by cases fails),
        rfl⟩
      rw [stored]
  | kept loaded translated stored =>
      rw [direct, translated_eq loaded, translated]
      refine ⟨.inl ?_, (fun fails => by cases fails), rfl⟩
      obtain done | failed := Cache.store_cases h.wellFormed stored
      · cases done.1
        rfl
      · obtain ⟨e, fails, -⟩ := failed
        cases fails

end Faithful

theorem Unforged.faithful {p : Pipeline σ} {start : Disk} {deeds : List Deed}
    (h : Unforged p.cache start deeds) (wf : start.WellFormed) (scripts : List (Text × File)) :
    p.Faithful scripts start start := by
  refine ⟨wf, rfl, ?_⟩
  intro script bytes a there decoded
  have undecoded := h.atFirst script bytes there
  rw [decoded] at undecoded
  cases undecoded

/-- A cache that checks digests changes nothing about a run. Whatever was done before with the
pipeline and its disk, a run of any script calls the console and fails or ends as the script does
when it is loaded, compiled and executed without a cache. Only when its artifact is not in the cache
and cannot be written does the run fail with that instead, before anything is executed. A script
that cannot be loaded or compiled leaves the disk alone, and every other one counts as compiled or
as found. It is assumed that nobody else makes artifacts, that the digests of the loaded scripts do
not collide, and that artifacts are decoded to what was encoded. -/
theorem run_uncached (p : Pipeline σ) (checked : p.cache.trustsNames = false) (start : Workplace σ)
    (wf : start.disk.WellFormed) (deeds : List Deed)
    (unforged : Unforged p.cache start.disk deeds) (path : Text) (args : List Value)
    (reliable : p.Reliable (start.scripts p (deeds ++ [.run path args]))) :
    let before := start.after p deeds
    let ran := before.run p path args
    let after := ran.2
    let seen := (after.state.console, ran.1.error)
    (seen = p.direct before.disk before.state.console path args ∨
        ∃ e, p.Unkept before.disk path e ∧ seen = (before.state.console, some (.cache path e))) ∧
      ((p.translated before.disk path).isOk = false → after.disk = before.disk) ∧
      after.state.compilations + after.state.hits =
        before.state.compilations + before.state.hits +
          if (p.translated before.disk path).isOk then 1 else 0 := by
  intro before ran after seen
  rw [Workplace.scripts_append] at reliable
  have faithful := (unforged.faithful wf _).after reliable (fun s => List.mem_append_left _)
    unforged.written
  obtain ⟨_, added, disk', shows, ends⟩ := p.ends_run before.state path args before.disk
  obtain ⟨console, same, count⟩ := faithful.uncached reliable checked
    (fun file loaded => List.mem_append_right _
      (List.mem_append_left _ (Workplace.mem_loads args loaded))) ends
  obtain ⟨rfl, counted, rfl⟩ := shows
  exact ⟨console, same, count ▸ counted⟩

/-- A script, another one of the same name that does not compile, and an artifact that is
overwritten: the script is compiled once more and does the same as without a cache. -/
theorem run_uncached_overwritten :
    let p : Pipeline Recorder :=
      { cache := { directory := "c" }, console := Recorder.console, rounds := 1 }
    let start : Workplace Recorder := ⟨{}, { console := {} }⟩
    let deeds : List Deed :=
      [.write "a.prg" "?", .run "a.prg" [], .write "a.txt" "? (", .run "a.txt" [],
        .write "c/a.bin" "?"]
    let before := start.after p deeds
    let ran := before.run p "a.prg" []
    (ran.2.state.console, ran.1.error) = p.direct before.disk before.state.console "a.prg" [] ∧
      ran.2.state.compilations + ran.2.state.hits = 2 := by
  intro p start deeds
  dsimp only
  let script : File := ⟨0, "a.prg", "?", 0⟩
  let broken : File := ⟨0, "a.txt", "? (", 0⟩
  have unforged : Unforged p.cache start.disk deeds := by
    constructor
    · intro script bytes there
      rw [get?_of_ne (by simp [Cache.placeFor])] at there
      cases there
    · intro path bytes script mem here
      have length := congrArg List.length here
      simp only [deeds, List.mem_cons, Deed.write.injEq, reduceCtorEq, List.not_mem_nil, or_false,
        false_or] at mem
      obtain ⟨rfl, rfl⟩ | ⟨rfl, rfl⟩ | ⟨rfl, rfl⟩ := mem
      · cases length
      · cases length
      · decide +kernel
  have reliable : p.Reliable (start.scripts p (deeds ++ [.run "a.prg" []])) := by
    have loaded : ∀ s ∈ start.scripts p (deeds ++ [.run "a.prg" []]),
        s = (Text.ofString "a.prg", script) ∨ s = (Text.ofString "a.txt", broken) := by
      decide +kernel
    have apart : script.hash ≠ broken.hash := by decide +kernel
    constructor
    · intro s mem s' mem' same
      obtain rfl | rfl := loaded s mem
      · obtain rfl | rfl := loaded s' mem'
        · rfl
        · exact absurd same apart
      · obtain rfl | rfl := loaded s' mem'
        · exact absurd same.symm apart
        · rfl
    · intro s mem compiled translated
      obtain rfl | rfl := loaded s mem
      · have result : (compile script (some .dbase) 0 []).result = .ok {
            lines := ["proc main()", "    println()", "end"]
            program := { name := "a", body := [.print [] true 1] } } := by
          decide +kernel
        have hash : script.hash = [138, 141, 232, 35, 213, 237, 62, 18, 116, 106, 98, 239, 22, 155,
            207, 55, 43, 224, 202, 68, 240, 161, 35, 106, 188, 53, 223, 5, 217, 105, 40, 225] := by
          decide +kernel
        rw [translate, result] at translated
        cases translated
        dsimp only
        rw [hash]
        decide +kernel
      · have rejected : (p.translate broken).isOk = false := by decide +kernel
        rw [translated] at rejected
        cases rejected
  obtain ⟨compiles, counts, fine⟩ :
      (p.translated (start.after p deeds).disk "a.prg").isOk = true ∧
        (start.after p deeds).state.compilations + (start.after p deeds).state.hits = 1 ∧
        ((start.after p deeds).run p "a.prg" []).1.error.isNone = true := by
    decide +kernel
  obtain ⟨seen, -, count⟩ :=
    run_uncached p rfl start wellFormed_empty deeds unforged "a.prg" [] reliable
  rw [counts, if_pos compiles] at count
  refine ⟨?_, count⟩
  cases seen with
  | inl same => exact same
  | inr failed =>
      obtain ⟨e, -, failed⟩ := failed
      rw [(Prod.mk.inj failed).2] at fine
      cases fine

/-- A cache is removed, and a script is written in place of its directory: the script prints a line
without a cache, and with it fails before anything is printed. -/
theorem run_unkept_in_place_of_cache :
    let p : Pipeline Recorder :=
      { cache := { directory := "c" }, console := Recorder.console, rounds := 1 }
    let start : Workplace Recorder :=
      ⟨((Cache.openAt "c" false : StateM Disk _) {}).2, { console := {} }⟩
    let before := start.after p [.clean "0", .write "c" "?"]
    let ran := before.run p "c" []
    let uncached := p.direct before.disk before.state.console "c" []
    (uncached.1.calls = #[.print "\n"] ∧ uncached.2.isNone = true) ∧
      ran.2.state.console.calls = #[] ∧
      ran.1.error.map RunError.message =
        some (Text.ofString "cache c: mkdir c: not a directory") := by
  decide +kernel

end Pipeline

end PrgScript
