import PrgScript.CommandLine.Job
import PrgScript.Host.World
import PrgScript.Proofs.Reporting
import PrgScript.Proofs.RunResults

/-!
# What the user learns of a failed run

The tool runs scripts through a pipeline and reports on each run. The report of a
failed run is its last act: the tool ends as the report does. A failure to load the script is
left to the caller, who is given the message, and a failure of the program is told with the
path of the script. Of a script that could not be compiled, and of an artifact that could
not be kept, nothing is told but the diagnostics of the compilation. That is enough for
the first as long as the error is among them; of the second there is nothing in them.

The statements hold on every host that keeps what is written to it: a `Transcript`.
-/

namespace PrgScript

open Step

/-! ### The report on a run -/

/-- A host that keeps what is written to it and times work fairly. -/
structure Transcript (S : Type) [host : Host (StateM S)] where
  text : S → Channel → Text
  text_write (s : S) (channel other : Channel) (t : Text) :
    text ((Host.write channel t : StateM S Unit).run s).2 other =
      text s other ++ if channel = other then t else []
  isFair : host.toClock.IsFair

def World.transcript : Transcript World where
  text := World.textOn
  text_write w channel other t := by
    show World.textOn { w with written := w.written.push (channel, t) } other = _
    simp [World.textOn]
  isFair _ _ w := ⟨w, rfl⟩

/-- The words for a failure; for an error in a script those without its place. -/
def RunError.reason : RunError → Text
  | .compile (.script e) => e.detail
  | e => e.message

/-- The report on a run says nothing of its failure: the artifact was not kept, or the error of the
script is not among the diagnostics. -/
def RunError.Unreported (compilation : Option Compilation) : RunError → Prop
  | .cache .. => True
  | .compile (.script e) => ∃ c ∈ compilation, e.diagnostic ∉ c.bag.items
  | _ => False

instance (compilation : Option Compilation) :
    (e : RunError) → Decidable (e.Unreported compilation)
  | .cache .. => inferInstanceAs (Decidable True)
  | .compile (.script e) =>
    inferInstanceAs (Decidable (∃ c ∈ compilation, e.diagnostic ∉ c.bag.items))
  | .compile .unknownDialect => inferInstanceAs (Decidable False)
  | .load .. => inferInstanceAs (Decidable False)
  | .exec _ => inferInstanceAs (Decidable False)

namespace CommandLine

/-- From every state, a step of a command ends in one way and tells one text. -/
def Tells {S α : Type} [Host (StateM S)] (log : Transcript S) (x : CommandM (StateM S) α)
    (t : Text) (ending : Except Failure α) : Prop :=
  ∀ s, ∃ s', outcome x s = (ending, s') ∧ log.text s' .diagnostics = log.text s .diagnostics ++ t

namespace Tells

variable {S α β : Type} [Host (StateM S)] {log : Transcript S}

theorem of_pure (a : α) : Tells log (pure a) [] (.ok a) :=
  fun s => ⟨s, rfl, (List.append_nil _).symm⟩

theorem of_throw (f : Failure) : Tells log (throw f : CommandM (StateM S) α) [] (.error f) :=
  fun s => ⟨s, rfl, (List.append_nil _).symm⟩

theorem of_tell (t : Text) : Tells log (tell t) t (.ok ()) := by
  intro s
  rw [CommandLine.tell]
  split
  next => exact ⟨_, rfl, log.text_write s .diagnostics .diagnostics t⟩
  next empty =>
    rw [not_not.1 empty]
    exact Tells.of_pure () s

/-- What is printed is not told. -/
theorem of_print (t : Text) : Tells log (print t) [] (.ok ()) := by
  intro s
  rw [CommandLine.print]
  split
  · exact ⟨_, rfl, log.text_write s .output .diagnostics t⟩
  · exact Tells.of_pure () s

theorem bind {x : CommandM (StateM S) α} {f : α → CommandM (StateM S) β} {t u : Text} {a : α}
    {ending : Except Failure β} (first : Tells log x t (.ok a)) (rest : Tells log (f a) u ending) :
    Tells log (x >>= f) (t ++ u) ending := by
  intro s
  obtain ⟨s₁, ran, grown⟩ := first s
  obtain ⟨s₂, ended, grown'⟩ := rest s₁
  refine ⟨s₂, ?_, ?_⟩
  · rw [outcome_bind_of_ok ran, ended]
  · rw [grown', grown, List.append_assoc]

theorem then_throw {x : CommandM (StateM S) α} {t : Text} {a : α} (first : Tells log x t (.ok a))
    (f : Failure) :
    Tells log (x >>= fun _ => throw f : CommandM (StateM S) β) t (.error f) := by
  have both := first.bind (f := fun _ => throw f) (Tells.of_throw (α := β) f)
  rwa [List.append_nil] at both

end Tells

namespace Invocation

variable {m : Type → Type}

/-- The last line of the report on a run whose program was stopped. -/
def stopLine (r : RunResult) : Text :=
  match r.error with
  | some (.exec stop) => r.path ++ ": " ++ (RunError.exec stop).message ++ "\n"
  | _ => []

def told (inv : Invocation m) (r : RunResult) : Text :=
  (r.compilation.elim [] fun c => inv.shown c ++ inv.shownTimes r.report) ++
    ((if inv.timed then stageLine r else []) ++ stopLine r)

def ending (r : RunResult) : Except Failure Unit :=
  match r.error with
  | none => .ok ()
  | some (.exec _) => .error .reported
  | some e => .error (if r.compilation.isSome then .reported else .told e.message)

def conclude [Monad m] [Host m] (r : RunResult) : CommandM m Unit :=
  match r.error with
  | none => return
  | some (.exec stop) => do
    tell (r.path ++ ": " ++ (RunError.exec stop).message ++ "\n")
    throw .reported
  | some e => if r.compilation.isSome then throw .reported else fail e.message

theorem finishRun_eq [Monad m] [LawfulMonad m] [Host m] (inv : Invocation m) (r : RunResult) :
    inv.finishRun r = (do
      r.compilation.elim (pure ()) (inv.showCompilation · r.report)
      tell (if inv.timed then stageLine r else [])
      conclude r : CommandM m Unit) := by
  have times : (if inv.timed then tell (stageLine r) >>= fun _ => conclude r else conclude r) =
      (tell (if inv.timed then stageLine r else []) >>= fun _ => conclude r : CommandM m Unit) := by
    split
    · rfl
    · rw [tell_nil, pure_bind]
  rw [← times, finishRun]
  cases compiled : r.compilation with
  | none =>
      simp only [conclude, compiled]
      refine Eq.trans ?_ (pure_bind (m := CommandM m) () _).symm
      rfl
  | some c =>
      simp only [conclude, compiled]
      rfl

theorem finishRun_tells {S : Type} [Host (StateM S)] (log : Transcript S)
    (inv : Invocation (StateM S)) (r : RunResult) :
    Tells log (inv.finishRun r) (inv.told r) (ending r) := by
  rw [finishRun_eq]
  refine Tells.bind (a := ()) ?_ (Tells.bind (Tells.of_tell _) ?_)
  · cases r.compilation with
    | none => exact Tells.of_pure ()
    | some c =>
        rw [Option.elim_some, Option.elim_some, showCompilation_eq]
        exact (Tells.of_tell _).bind (Tells.of_tell _)
  · rw [conclude, stopLine, ending]
    cases r.error with
    | none => exact Tells.of_pure ()
    | some e =>
        cases e with
        | exec stop =>
            exact Tells.then_throw (Tells.of_tell _) .reported
        | load path e =>
            dsimp only
            split
            · exact Tells.of_throw _
            · exact Tells.of_throw _
        | compile f =>
            dsimp only
            split
            · exact Tells.of_throw _
            · exact Tells.of_throw _
        | cache path e =>
            dsimp only
            split
            · exact Tells.of_throw _
            · exact Tells.of_throw _

/-- Unless a failure is not reported, the report tells it or leaves it to the caller. -/
theorem reason_infix_told (inv : Invocation m) {r : RunResult} {limit : Int}
    {name script : Text} (consistent : r.Consistent limit name script) {e : RunError}
    (failed : r.error = some e) (known : ¬e.Unreported r.compilation) :
    ending r = .error (.told e.message) ∨
      ending r = .error .reported ∧ e.reason <:+: inv.told r := by
  have fits := consistent.fits failed
  cases e with
  | load path e =>
      left
      rw [ending, failed]
      simp only [RunError.Fits] at fits
      rw [fits]
      rfl
  | exec stop =>
      right
      refine ⟨by rw [ending, failed], ?_⟩
      have line : (RunError.exec stop).message <:+: stopLine r := by
        rw [stopLine, failed]
        exact List.infix_append _ _ _
      have last : stopLine r <:+ inv.told r :=
        (List.suffix_append _ _).trans (List.suffix_append _ _)
      exact line.trans last.isInfix
  | cache path e => exact absurd trivial known
  | compile f =>
      right
      obtain ⟨file, compiled, result⟩ := fits
      obtain ⟨e, rfl⟩ : ∃ e, f = .script e := by
        rw [compile_result] at result
        cases ended : (compileIn file .dbase name {}).result with
        | ok compiled =>
            rw [ended] at result
            cases result
        | error e =>
            rw [ended] at result
            cases result
            exact ⟨e, rfl⟩
      have mem : e.diagnostic ∈ (PrgScript.compile file (some .dbase) limit name).bag.items := by
        by_contra missing
        exact known ⟨_, compiled, missing⟩
      refine ⟨by rw [ending, failed, compiled]; rfl, ?_⟩
      have message : e.detail <:+: inv.display.headline e.diagnostic :=
        inv.display.message_infix_headline e.diagnostic
      refine (message.trans (inv.headline_infix_shown mem rfl)).trans ?_
      rw [told, compiled, Option.elim_some, List.append_assoc]
      exact (List.prefix_append _ _).isInfix

/-- The report on a failure that is not reported holds warnings and timings only. -/
theorem told_of_unreported (inv : Invocation m) {r : RunResult} {limit : Int}
    {name script : Text} (consistent : r.Consistent limit name script) {e : RunError}
    (failed : r.error = some e) (unknown : e.Unreported r.compilation) :
    ending r = .error .reported ∧ ∃ c, r.compilation = some c ∧
      (∀ d ∈ c.bag.items, d.severity = .warning) ∧
      inv.told r = inv.shown c ++ inv.shownTimes r.report ++
        if inv.timed then stageLine r else [] := by
  have fits := consistent.fits failed
  cases e with
  | load path e => cases unknown
  | exec stop => cases unknown
  | cache path e =>
      obtain ⟨file, compiled, kept, result⟩ := fits
      refine ⟨by rw [ending, failed, kept]; rfl, _, kept, ?_, ?_⟩
      · intro d mem
        obtain warned | ⟨e, wrong, -⟩ := severity_of_mem_items mem
        · exact warned
        · rw [result] at wrong
          cases wrong
      · rw [told, kept, stopLine, failed, List.append_nil]
        rfl
  | compile f =>
      obtain ⟨file, kept, result⟩ := fits
      refine ⟨by rw [ending, failed, kept]; rfl, _, kept, ?_, ?_⟩
      · intro d mem
        obtain warned | ⟨e, wrong, rfl⟩ := severity_of_mem_items mem
        · exact warned
        · rw [result] at wrong
          cases wrong
          obtain ⟨c, compiled, missing⟩ := unknown
          rw [kept] at compiled
          cases compiled
          exact absurd mem missing
      · rw [told, kept, stopLine, failed, List.append_nil]
        rfl

/-! ### The runs of a command -/

/-- Runs one script on a terminal, up to the report on it. -/
def runScript [Monad m] [Host m] (inv : Invocation m) (p : Pipeline Terminal) (args : List Value)
    (ansi : Bool) (tracer : Trace.Tracer) (colors : ColorPair) (script : Text) :
    CommandM m (RunResult × Trace.Tracer × ColorPair) := do
  let start : PipelineState Terminal := { console := { ansi, colors }, tracer }
  let (r, s) ← p.run (m := m) start script args inv.log.flush
  print s.console.output
  let tracer ← inv.log.flush s.tracer
  return (r, tracer, s.console.colors)

theorem runOnTerminal_cons [Monad m] [LawfulMonad m] [Host m] (inv : Invocation m)
    (p : Pipeline Terminal) (args : List Value) (ansi : Bool) (tracer : Trace.Tracer)
    (colors : ColorPair) (script : Text) (scripts : List Text) :
    inv.runOnTerminal p args ansi tracer colors (script :: scripts) =
      (do
        let done ← inv.runScript p args ansi tracer colors script
        inv.finishRun done.1
        inv.runOnTerminal p args ansi done.2.1 done.2.2 scripts) := by
  rw [runOnTerminal, runScript]
  simp only [bind_assoc, pure_bind]

/-- Shows what came of runs behind a progress view. -/
def showRuns [Monad m] [Host m] (scripts : List Text) (results : List RunResult)
    (s : PipelineState Recorder) : CommandM m Unit := do
  let view := (results.flatMap (·.events)).foldl ProgressView.apply (.start "xbase run" scripts)
  tell view.finish.text
  let screen := screenText s.console.rows
  if screen ≠ [] then print (screen ++ "\n")

theorem runBehindView_eq [Monad m] [LawfulMonad m] [Host m] (inv : Invocation m) (cache : Cache)
    (args : List Value) (scripts : List Text) :
    inv.runBehindView cache args scripts =
      (do
        let done ← inv.runAll (inv.pipeline cache Recorder.console) args
          { console := {}, tracer := inv.log.tracer } scripts
        showRuns scripts done.1 done.2
        forM done.1 inv.finishRun : CommandM m Unit) := by
  have loop (rs : List RunResult) :
      (do for r in rs do inv.finishRun r : CommandM m Unit) = forM rs inv.finishRun := by
    induction rs with
    | nil => rw [List.forIn_nil, pure_bind, List.forM_nil]
    | cons r rs ih =>
        rw [List.forM_cons, ← ih]
        simp only [List.forIn_cons, bind_assoc, pure_bind]
  rw [runBehindView]
  simp only [showRuns, ← loop]
  congr 1
  funext done
  rw [bind_assoc]
  congr 1
  funext _
  split
  · rfl
  · rw [pure_bind]

def openRuns [Monad m] [Host m] (inv : Invocation m) : CommandM m Cache := do
  require ("failed to open cache: " ++ ·) (← openCache (m := m) inv.settings)

def printsColors [Monad m] [Host m] (inv : Invocation m) : CommandM m Bool := do
  return inv.inColor && (← Host.isTerminal (m := m) .output)

theorem run_eq [Monad m] [LawfulMonad m] [Host m] (inv : Invocation m) (scripts : List Text)
    (args : List Value) (withView : Bool) :
    inv.run scripts args withView = (do
      let cache ← inv.openRuns
      if withView then inv.runBehindView cache args scripts
      else
        let ansi ← inv.printsColors
        inv.runOnTerminal (inv.pipeline cache Terminal.console) args ansi inv.log.tracer .default
          scripts) := by
  rw [run, openRuns]
  simp only [printsColors, bind_assoc, pure_bind]

section Ran

variable {S : Type} [host : Host (StateM S)]

omit host in
/-- The rest of a sequence starts where an action that cannot fail has ended. -/
theorem outcome_lift_bind {α β : Type} (x : StateM S α) (f : α → CommandM (StateM S) β) (s : S) :
    outcome (liftM x >>= f) s = outcome (f (x.run s).1) (x.run s).2 := by
  apply outcome_bind_of_ok
  show (Except.ok <$> x).run s = _
  rw [StateT.run_map]
  rfl

/-- A command that runs scripts on a terminal has just run one: the first, or a later one if the
command has not ended with those before it. -/
inductive RanOnTerminal (inv : Invocation (StateM S)) (p : Pipeline Terminal)
    (args : List Value) (ansi : Bool) :
    Trace.Tracer → ColorPair → List Text → S → RunResult → S → Prop where
  | here {tracer tracer' : Trace.Tracer} {colors colors' : ColorPair} {script : Text}
      {scripts : List Text} {s s₁ : S} {r : RunResult}
      (ran : outcome (inv.runScript p args ansi tracer colors script) s =
        (.ok (r, tracer', colors'), s₁)) :
      RanOnTerminal inv p args ansi tracer colors (script :: scripts) s r s₁
  | later {tracer tracer' : Trace.Tracer} {colors colors' : ColorPair} {script : Text}
      {scripts : List Text} {s s₁ s₂ s₃ : S} {r r' : RunResult}
      (ran : outcome (inv.runScript p args ansi tracer colors script) s =
        (.ok (r, tracer', colors'), s₁))
      (told : outcome (inv.finishRun r) s₁ = (.ok (), s₂))
      (next : RanOnTerminal inv p args ansi tracer' colors' scripts s₂ r' s₃) :
      RanOnTerminal inv p args ansi tracer colors (script :: scripts) s r' s₃

/-- A command that runs scripts has run one of them with a result, and has not told anything of
the run. Behind a view, all scripts are run before that. -/
inductive Ran (inv : Invocation (StateM S)) (scripts : List Text) (args : List Value) :
    Bool → S → RunResult → S → Prop where
  | onTerminal {cache : Cache} {s s₁ s₂ s₃ : S} {ansi : Bool} {r : RunResult}
      (opened : outcome inv.openRuns s = (.ok cache, s₁))
      (asked : outcome inv.printsColors s₁ = (.ok ansi, s₂))
      (ran : RanOnTerminal inv (inv.pipeline cache Terminal.console) args ansi
        inv.log.tracer .default scripts s₂ r s₃) :
      Ran inv scripts args false s r s₃
  | behindView {cache : Cache} {s s₁ s₂ : S} {results : List RunResult}
      {last : PipelineState Recorder} {r : RunResult}
      (opened : outcome inv.openRuns s = (.ok cache, s₁))
      (ran : (inv.runAll (inv.pipeline cache Recorder.console) args
        { console := {}, tracer := inv.log.tracer } scripts).run s₁ = ((results, last), s₂))
      (mem : r ∈ results) :
      Ran inv scripts args true s r s₂

variable {inv : Invocation (StateM S)} {args : List Value} {r : RunResult} {s s' : S}

/-! Each result fits together, and a run that failed is the last. -/

/-- The clock of the host is the one that counts, not the one of every state. -/
theorem run_consistent {σ : Type} (log : Transcript S) (p : Pipeline σ) (state : PipelineState σ)
    (script : Text) (handOver : Trace.Tracer → StateM S Trace.Tracer) :
    Gives (fun done => done.1.Consistent p.limit p.unitName script)
      (@Pipeline.run σ (StateM S) _ host.toFiles host.toClock p state script args handOver) :=
  @Pipeline.run_consistent σ S host.toFiles host.toClock p handOver args script log.isFair state

theorem runScript_consistent (log : Transcript S) {p : Pipeline Terminal} {ansi : Bool}
    {tracer tracer' : Trace.Tracer} {colors colors' : ColorPair} {script : Text}
    (ran : outcome (inv.runScript p args ansi tracer colors script) s =
      (.ok (r, tracer', colors'), s')) : r.Consistent p.limit p.unitName script := by
  rw [runScript, outcome_lift_bind] at ran
  obtain ⟨_, _, -, rest⟩ := outcome_bind_eq_ok.1 ran
  obtain ⟨_, _, -, returned⟩ := outcome_bind_eq_ok.1 rest
  cases returned
  exact run_consistent log p _ script inv.log.flush s

theorem RanOnTerminal.consistent (log : Transcript S) {p : Pipeline Terminal}
    {ansi : Bool} {tracer : Trace.Tracer} {colors : ColorPair} {scripts : List Text}
    (ran : RanOnTerminal inv p args ansi tracer colors scripts s r s') :
    ∃ script ∈ scripts, r.Consistent p.limit p.unitName script := by
  induction ran with
  | here ran => exact ⟨_, List.mem_cons_self, runScript_consistent log ran⟩
  | later _ _ _ ih =>
      obtain ⟨script, mem, consistent⟩ := ih
      exact ⟨script, List.mem_cons_of_mem _ mem, consistent⟩

/-- The results of running scripts in order, up to the first that fails. -/
inductive Gathered {σ : Type} (p : Pipeline σ) : List Text → List RunResult → Prop
  | done : Gathered p [] []
  | failed {script : Text} {r : RunResult} (scripts : List Text)
      (consistent : r.Consistent p.limit p.unitName script) (failed : r.error ≠ none) :
      Gathered p (script :: scripts) [r]
  | next {script : Text} {r : RunResult} {scripts : List Text} {rs : List RunResult}
      (consistent : r.Consistent p.limit p.unitName script) (well : r.error = none)
      (rest : Gathered p scripts rs) : Gathered p (script :: scripts) (r :: rs)

theorem runAll_gathered (log : Transcript S) {σ : Type} (p : Pipeline σ)
    (scripts : List Text) (state : PipelineState σ) :
    Gives (fun done => Gathered p scripts done.1) (inv.runAll p args state scripts) := by
  induction scripts generalizing state with
  | nil => exact Gives.pure .done
  | cons script scripts ih =>
      rw [runAll]
      refine Gives.bind (run_consistent log p _ _ _) ?_
      rintro ⟨r, state⟩ consistent
      refine Gives.bind (Gives.any _) fun tracer _ => ?_
      dsimp only
      split
      next failed => exact Gives.pure (.failed _ consistent (Option.isSome_iff_ne_none.1 failed))
      next going =>
        refine Gives.bind (ih _) ?_
        rintro ⟨rs, state⟩ all
        exact Gives.pure (.next consistent (by simpa using going) all)

namespace Gathered

variable {σ : Type} {p : Pipeline σ} {scripts : List Text} {rs : List RunResult}

theorem consistent (all : Gathered p scripts rs) :
    ∀ r ∈ rs, ∃ script ∈ scripts, r.Consistent p.limit p.unitName script := by
  induction all with
  | done => exact List.forall_mem_nil _
  | failed _ consistent _ =>
      exact List.forall_mem_singleton.2 ⟨_, List.mem_cons_self, consistent⟩
  | next consistent _ _ ih =>
      refine List.forall_mem_cons.2 ⟨⟨_, List.mem_cons_self, consistent⟩, ?_⟩
      intro r mem
      obtain ⟨script, mem', consistent'⟩ := ih r mem
      exact ⟨script, List.mem_cons_of_mem _ mem', consistent'⟩

theorem last (all : Gathered p scripts rs) :
    ∀ r ∈ rs, r.error ≠ none →
      ∃ before, rs = before ++ [r] ∧ ∀ r' ∈ before, r'.error = none := by
  induction all with
  | done => exact List.forall_mem_nil _
  | failed => exact List.forall_mem_singleton.2 fun _ => ⟨[], rfl, List.forall_mem_nil _⟩
  | @next _ r _ _ _ well _ ih =>
      refine List.forall_mem_cons.2 ⟨fun failed => absurd well failed, ?_⟩
      intro r' mem failed
      obtain ⟨before, split, before_well⟩ := ih r' mem failed
      exact ⟨r :: before, by rw [split]; rfl, List.forall_mem_cons.2 ⟨well, before_well⟩⟩

end Gathered

theorem Ran.consistent (log : Transcript S) {scripts : List Text} {withView : Bool}
    (ran : inv.Ran scripts args withView s r s') :
    ∃ script ∈ scripts, r.Consistent inv.settings.limit [] script := by
  cases ran with
  | onTerminal _ _ ran => exact ran.consistent log
  | behindView _ ran mem => exact ((runAll_gathered log _ _ _).of_run ran).consistent r mem

/-! The report on a failed run is the end of the command. -/

theorem RanOnTerminal.ends {p : Pipeline Terminal} {ansi : Bool} {tracer : Trace.Tracer}
    {colors : ColorPair} {scripts : List Text}
    (ran : RanOnTerminal inv p args ansi tracer colors scripts s r s')
    {f : Failure} {s'' : S} (failed : outcome (inv.finishRun r) s' = (.error f, s'')) :
    outcome (inv.runOnTerminal p args ansi tracer colors scripts) s = (.error f, s'') := by
  induction ran with
  | here ran =>
      rw [runOnTerminal_cons, outcome_bind_of_ok ran]
      exact outcome_bind_of_error failed
  | later ran told _ ih =>
      rw [runOnTerminal_cons, outcome_bind_of_ok ran, outcome_bind_of_ok told]
      exact ih failed

theorem forM_finishRun_tells (log : Transcript S) {before : List RunResult}
    (well : ∀ r ∈ before, r.error = none) (r : RunResult) :
    Tells log (forM (before ++ [r]) inv.finishRun) (before.flatMap inv.told ++ inv.told r)
      (ending r) := by
  induction before with
  | nil =>
      rw [List.nil_append, List.forM_cons, List.forM_nil, bind_pure_unit]
      exact finishRun_tells log inv r
  | cons r' before ih =>
      have first : Tells log (inv.finishRun r') (inv.told r') (.ok ()) := by
        have told := finishRun_tells log inv r'
        rwa [ending, well r' List.mem_cons_self] at told
      rw [List.cons_append, List.forM_cons, List.flatMap_cons, List.append_assoc]
      exact first.bind (ih fun r mem => well r (List.mem_cons_of_mem _ mem))

def lastView (scripts : List Text) (results : List RunResult) : ProgressView :=
  ((results.flatMap (·.events)).foldl ProgressView.apply (.start "xbase run" scripts)).finish

theorem showRuns_tells (log : Transcript S) (scripts : List Text) (results : List RunResult)
    (state : PipelineState Recorder) :
    Tells log (showRuns scripts results state) (lastView scripts results).text (.ok ()) := by
  rw [showRuns, ← List.append_nil (lastView scripts results).text]
  refine Tells.bind (Tells.of_tell _) ?_
  dsimp only
  split
  · exact Tells.of_print _
  · exact Tells.of_pure ()

/-- A view shows the failure of its last run. -/
theorem shorten_infix_lastView {limit : Int} {name script : Text} {scripts : List Text}
    (listed : script ∈ scripts) (consistent : r.Consistent limit name script) {e : RunError}
    (failed : r.error = some e) (before : List RunResult) :
    ProgressView.shorten 64 e.message <:+: (lastView scripts (before ++ [r])).text := by
  obtain ⟨events, stage, told⟩ := consistent.last failed
  have split : (before ++ [r]).flatMap (·.events) = (before.flatMap (·.events) ++ events) ++
      [{ file := script, stage, status := .failed, error := some e.message }] := by
    rw [List.flatMap_append, List.flatMap_singleton, told, List.append_assoc]
  have paths : ((before.flatMap (·.events) ++ events).foldl ProgressView.apply
      (.start "xbase run" scripts)).rows.map (·.path) = scripts := by
    rw [ProgressView.paths_foldl_apply, ProgressView.start, List.map_map]
    exact List.map_id _
  have width : (lastView scripts (before ++ [r])).nameWidth = 64 := by
    have kept : (lastView scripts (before ++ [r])).width = 80 :=
      ProgressView.width_foldl_apply _ _
    rw [ProgressView.nameWidth, kept]
    rfl
  obtain ⟨row, mem, error⟩ := @ProgressView.mem_rows_of_failed _
    { file := script, stage, status := .failed, error := some e.message }
    (by rw [paths]; exact listed) rfl
  rw [← width]
  refine ProgressView.shorten_infix_text ?_ error
  rw [lastView, split, List.foldl_append]
  exact mem

/-- A command ends as the report on a failed run does. Behind a view the failure is shown first. -/
theorem Ran.ends (log : Transcript S) {scripts : List Text} {withView : Bool}
    (ran : inv.Ran scripts args withView s r s') {e : RunError} (failed : r.error = some e)
    {f : Failure} (ends : ending r = .error f) :
    ∃ above s'', outcome (inv.run scripts args withView) s = (.error f, s'') ∧
      log.text s'' .diagnostics = log.text s' .diagnostics ++ (above ++ inv.told r) ∧
      if withView then ProgressView.shorten 64 e.message <:+: above else above = [] := by
  rw [run_eq]
  have told := finishRun_tells log inv r
  rw [ends] at told
  cases ran with
  | onTerminal opened asked ran =>
      obtain ⟨s'', reported, grown⟩ := told s'
      refine ⟨[], s'', ?_, grown, rfl⟩
      rw [outcome_bind_of_ok opened, if_neg Bool.false_ne_true, outcome_bind_of_ok asked]
      exact ran.ends reported
  | @behindView _ _ _ _ _ last _ opened ran mem =>
      have gathered := (runAll_gathered log _ _ _).of_run ran
      obtain ⟨script, listed, consistent⟩ := gathered.consistent r mem
      obtain ⟨before, rfl, well⟩ := gathered.last r mem (by simp [failed])
      have reports := (showRuns_tells log scripts (before ++ [r]) last).bind
        (f := fun _ => forM (before ++ [r]) inv.finishRun) (forM_finishRun_tells log well r)
      rw [ends] at reports
      obtain ⟨s'', reported, grown⟩ := reports s'
      refine ⟨(lastView scripts (before ++ [r])).text ++ before.flatMap inv.told, s'', ?_, ?_, ?_⟩
      · rw [outcome_bind_of_ok opened, if_pos rfl, runBehindView_eq, outcome_lift_bind, ran]
        exact reported
      · rw [grown, List.append_assoc]
      · exact (shorten_infix_lastView listed consistent failed before).trans
          (List.prefix_append _ _).isInfix

end Ran

/-- The first run of a command on a terminal, if it comes to one. -/
def firstRun {S : Type} [Host (StateM S)] (inv : Invocation (StateM S)) (script : Text)
    (args : List Value) (s : S) : Option (RunResult × S) :=
  match outcome inv.openRuns s with
  | (.error _, _) => none
  | (.ok cache, s) =>
    match outcome inv.printsColors s with
    | (.error _, _) => none
    | (.ok ansi, s) =>
      match outcome (inv.runScript (inv.pipeline cache Terminal.console) args ansi inv.log.tracer
        .default script) s with
      | (.error _, _) => none
      | (.ok (r, _), s) => some (r, s)

theorem ran_of_firstRun {S : Type} [Host (StateM S)] {inv : Invocation (StateM S)} {script : Text}
    {args : List Value} {s s₁ : S} {r : RunResult}
    (first : inv.firstRun script args s = some (r, s₁)) (scripts : List Text) :
    inv.Ran (script :: scripts) args false s r s₁ := by
  rw [firstRun] at first
  split at first
  next => cases first
  next cache s₂ opened =>
    split at first
    next => cases first
    next ansi s₃ asked =>
      split at first
      next => cases first
      next r' rest s₄ ran =>
        cases first
        exact .onTerminal opened asked (.here ran)

/-- A disk with one script, and with a directory where its artifact is to be kept. -/
def blockedWorld (source : Text) : World where
  disk := { nodes := [([Text.ofString "a.prg"], .file source), ([Text.ofString "c"], .directory),
    ([Text.ofString "c", Text.ofString "a.bin"], .directory),
    ([Text.ofString "c", Text.ofString "a.bin", Text.ofString "x"], .file [])] }

/-- The tool in a world in memory, with its cache in a directory `c`. -/
def inWorld : Invocation (StateM World) :=
  { settings := { cacheDirectory := "c" }, workingDirectory := "/", rounds := 10
    log := { write := Host.write .diagnostics } }

/-- A command that runs scripts makes the failure of a run known, by its own failure or by what it
tells, unless the artifact was not kept or the error of the script is not among the
diagnostics. Then it claims to have reported the failure, and has told only what else there is
to tell of the compilation, and nothing if it is to tell little. Behind a view, every failure
is shown in up to 64 columns. -/
theorem failed_run_told {S : Type} [Host (StateM S)] (log : Transcript S)
    (inv : Invocation (StateM S)) {scripts : List Text} {args : List Value} {withView : Bool}
    {s s₁ : S} {r : RunResult} {e : RunError} (ran : inv.Ran scripts args withView s r s₁)
    (failed : r.error = some e) :
    ∃ f told s', outcome (inv.run scripts args withView) s = (.error f, s') ∧
      log.text s' .diagnostics = log.text s₁ .diagnostics ++ told ∧
      (withView = true → ProgressView.shorten 64 e.message <:+: told) ∧
      (¬e.Unreported r.compilation → f = .told e.message ∨ f = .reported ∧ e.reason <:+: told) ∧
      (e.Unreported r.compilation → f = .reported ∧ ∃ c, r.compilation = some c ∧
        (∀ d ∈ c.bag.items, d.severity = .warning) ∧ (inv.quiet = true → inv.shown c = []) ∧
        (withView = false → told = inv.shown c ++ inv.shownTimes r.report ++
          if inv.timed then stageLine r else [])) := by
  obtain ⟨script, -, consistent⟩ := ran.consistent log
  -- the report is the last that is told, so what it says is told
  have report (f : Failure) (ends : ending r = .error f) : ∃ told s',
      outcome (inv.run scripts args withView) s = (.error f, s') ∧
      log.text s' .diagnostics = log.text s₁ .diagnostics ++ told ∧
      (withView = true → ProgressView.shorten 64 e.message <:+: told) ∧
      inv.told r <:+: told ∧ (withView = false → told = inv.told r) := by
    obtain ⟨above, s', ended, grown, view⟩ := ran.ends log failed ends
    refine ⟨_, s', ended, grown, ?_, (List.suffix_append _ _).isInfix, ?_⟩
    · intro isView
      rw [if_pos isView] at view
      exact view.trans (List.prefix_append _ _).isInfix
    · intro noView
      rw [noView, if_neg Bool.false_ne_true] at view
      rw [view, List.nil_append]
  by_cases known : e.Unreported r.compilation
  · obtain ⟨ends, c, compiled, warned, said⟩ := told_of_unreported inv consistent failed known
    obtain ⟨told, s', ended, grown, view, -, all⟩ := report _ ends
    refine ⟨_, told, s', ended, grown, view, fun h => absurd known h, fun _ => ⟨rfl, c, compiled,
      warned, ?_, ?_⟩⟩
    · intro quiet
      rw [shown, if_pos ⟨quiet, by rw [Bag.hasErrors_eq_false warned]; rfl⟩]
    · intro noView
      rw [all noView, said]
  · obtain ends | ⟨ends, said⟩ := reason_infix_told inv consistent failed known
    · obtain ⟨told, s', ended, grown, view, -, -⟩ := report _ ends
      exact ⟨_, told, s', ended, grown, view, fun _ => .inl rfl, fun h => absurd h known⟩
    · obtain ⟨told, s', ended, grown, view, report, -⟩ := report _ ends
      exact ⟨_, told, s', ended, grown, view, fun _ => .inr ⟨rfl, said.trans report⟩,
        fun h => absurd h known⟩

/-- The end of a branch that has not begun is reported. -/
theorem failed_run_told_unopened :
    ∃ r s₁ s', inWorld.Ran ["a.prg"] [] false (blockedWorld "ENDIF\n") r s₁ ∧
      r.error.map RunError.reason = some (Text.ofString "ENDIF without IF") ∧
      outcome (inWorld.run ["a.prg"] [] false) (blockedWorld "ENDIF\n") = (.error .reported, s') ∧
      Text.ofString "ENDIF without IF" <:+: s'.textOn .diagnostics := by
  have computed : ((inWorld.firstRun "a.prg" [] (blockedWorld "ENDIF\n")).bind fun ran =>
      ran.1.error.map fun e => (e.reason, decide (e.Unreported ran.1.compilation))) =
      some (Text.ofString "ENDIF without IF", false) := by decide +kernel
  have reported : (outcome (inWorld.run ["a.prg"] [] false) (blockedWorld "ENDIF\n")).1 =
      .error .reported := by decide +kernel
  obtain ⟨⟨r, s₁⟩, first, rest⟩ := Option.bind_eq_some_iff.1 computed
  obtain ⟨e, failed, data⟩ := Option.map_eq_some_iff.1 rest
  obtain ⟨reason, known⟩ := Prod.mk.inj data
  have ran := ran_of_firstRun first []
  obtain ⟨f, told, s', ended, grown, -, tells, -⟩ :=
    failed_run_told World.transcript inWorld ran failed
  rw [ended] at reported
  cases reported
  obtain wrong | ⟨-, said⟩ := tells (of_decide_eq_false known)
  · cases wrong
  · refine ⟨r, s₁, s', ran, ?_, ended, ?_⟩
    · rw [failed, ← reason]
      rfl
    · show _ <:+: World.transcript.text s' .diagnostics
      rw [grown, ← reason]
      exact said.trans (List.suffix_append _ _).isInfix

/-- An artifact that cannot be kept makes the command fail, and nothing is told or printed. -/
theorem silent_failed_run :
    ((inWorld.firstRun "a.prg" [] (blockedWorld "? 1\n")).bind fun ran =>
      ran.1.error.map RunError.message) =
        some (Text.ofString "cache a.prg: rename c/tmp-0 c/a.bin: file exists") ∧
    (outcome (inWorld.run ["a.prg"] [] false) (blockedWorld "? 1\n")).1 = .error .reported ∧
    (outcome (inWorld.run ["a.prg"] [] false) (blockedWorld "? 1\n")).2.written.toList = [] := by
  decide +kernel

end Invocation

end CommandLine

end PrgScript
