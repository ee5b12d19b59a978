import PrgScript.Pipeline.Basic
import PrgScript.Pipeline.View

/-!
# What runs of scripts leave

A run through a pipeline leaves a result that holds, side by side, how it failed, what came
of the compilation and what was told on the way. `RunResult.Consistent` says how these fit
together, whatever the host of the pipeline does: the kind of the failure tells whether there
is a compilation and how it ended, and the failure is the last that was told.

A progress view that is told all of this shows the failure in the row of a script.
-/

namespace PrgScript

/-! ### Results of a pipeline -/

/-- Timing some work does not change what comes of it. -/
def Clock.IsFair {S : Type} (clock : Clock (StateM S)) : Prop :=
  ∀ ⦃α : Type⦄ (work : Unit → StateM S α) (s : S),
    ∃ s₀, ((clock.timed work).run s).1.1 = ((work ()).run s₀).1

/-- What comes of an action has a property, from whatever state the action starts. -/
def Gives {S α : Type} (P : α → Prop) (x : StateM S α) : Prop := ∀ s, P (x.run s).1

namespace Gives

variable {S α β : Type} {P : α → Prop} {Q : β → Prop}

theorem pure {a : α} (h : P a) : Gives P (pure a : StateM S α) := fun _ => h

theorem any (x : StateM S α) : Gives (fun _ => True) x := fun _ => trivial

theorem of_run {x : StateM S α} (h : Gives P x) {s s' : S} {a : α} (ran : x.run s = (a, s')) :
    P a := by
  have ended := h s
  rw [ran] at ended
  exact ended

theorem bind {x : StateM S α} {f : α → StateM S β} (first : Gives P x)
    (rest : ∀ a, P a → Gives Q (f a)) : Gives Q (x >>= f) := by
  intro s
  rw [StateT.run_bind]
  exact rest _ (first s) _

theorem timed [clock : Clock (StateM S)] (fair : clock.IsFair) {work : Unit → StateM S α}
    (h : Gives P (work ())) : Gives (fun done => P done.1) (Clock.timed work) := by
  intro s
  obtain ⟨s₀, same⟩ := fair work s
  show P _
  rw [same]
  exact h s₀

end Gives

/-- What a failure says about the compilation: a script that was not loaded is not compiled, an
error of a script is that of its compilation, and only the artifact of a script that compiles
is to be kept. -/
def RunError.Fits (limit : Int) (name : Text) (compilation : Option Compilation) : RunError → Prop
  | .load .. => compilation = none
  | .compile f => ∃ file, compilation = some (PrgScript.compile file (some .dbase) limit name) ∧
      (PrgScript.compile file (some .dbase) limit name).result = .error f
  | .cache .. => ∃ file compiled,
      compilation = some (PrgScript.compile file (some .dbase) limit name) ∧
      (PrgScript.compile file (some .dbase) limit name).result = .ok compiled
  | .exec _ => True

/-- A run that goes on has told of its script only, and of no failure. -/
def RunResult.Going (script : Text) (r : RunResult) : Prop :=
  r.path = script ∧ r.error = none ∧ ∀ ev ∈ r.events, ev.file = script ∧ ev.status ≠ .failed

theorem RunResult.Going.tell {script : Text} {r : RunResult} (going : r.Going script)
    (stage : Stage) (status : Status) (fine : status ≠ .failed) :
    (r.tell stage status).Going script := by
  obtain ⟨path, well, told⟩ := going
  exact ⟨path, well, List.forall_mem_append.2 ⟨told, List.forall_mem_singleton.2 ⟨path, fine⟩⟩⟩

/-- What the parts of the result for a script say together. A failure is the last that is told;
without one it is that the program is done. -/
structure RunResult.Consistent (limit : Int) (name script : Text) (r : RunResult) : Prop where
  path : r.path = script
  fits {e : RunError} (failed : r.error = some e) : e.Fits limit name r.compilation
  last {e : RunError} (failed : r.error = some e) : ∃ before stage, r.events =
    before ++ [{ file := script, stage, status := .failed, error := some e.message }]
  about : ∀ ev ∈ r.events, ev.file = script
  done (well : r.error = none) : ∃ before, (∀ ev ∈ before, ev.status ≠ .failed) ∧
    r.events = before ++ [{ file := script, stage := .execute, status := .done }]

namespace RunResult.Consistent

variable {limit : Int} {name script : Text} {r : RunResult}

theorem of_done (going : r.Going script) :
    (r.tell .execute .done).Consistent limit name script := by
  obtain ⟨path, well, told⟩ := going
  have never {e : RunError} (failed : (r.tell .execute .done).error = some e) : False :=
    Option.some_ne_none e (failed.symm.trans well)
  refine ⟨path, ?_, ?_, ?_, ?_⟩
  · exact fun failed => (never failed).elim
  · exact fun failed => (never failed).elim
  · exact List.forall_mem_append.2 ⟨fun ev mem => (told ev mem).1, List.forall_mem_singleton.2 path⟩
  · exact fun _ => ⟨r.events, fun ev mem => (told ev mem).2, by rw [← path]; rfl⟩

theorem of_fail (going : r.Going script) (stage : Stage) {e : RunError}
    (fits : e.Fits limit name r.compilation) : (r.fail stage e).Consistent limit name script := by
  obtain ⟨path, -, told⟩ := going
  refine ⟨path, ?_, ?_, ?_, ?_⟩
  · intro e' failed
    cases failed
    exact fits
  · intro e' failed
    cases failed
    exact ⟨r.events, stage, by rw [← path]; rfl⟩
  · exact List.forall_mem_append.2 ⟨fun ev mem => (told ev mem).1, List.forall_mem_singleton.2 path⟩
  · intro well
    cases well

end RunResult.Consistent

namespace Pipeline

variable {σ S : Type} [Files (StateM S)] [clock : Clock (StateM S)]
variable {p : Pipeline σ} {handOver : Trace.Tracer → StateM S Trace.Tracer} {span : Nat}
variable {args : List Value} {script : Text} {r : RunResult}

omit [Files (StateM S)] in
theorem execute_consistent (going : r.Going script) (a : Artifact) (s : PipelineState σ) :
    Gives (fun done => done.1.Consistent p.limit p.unitName script)
      (p.execute (m := StateM S) span args a (r, s)) := by
  rw [execute]
  refine Gives.bind (Gives.any _) ?_
  rintro ⟨outcome, time⟩ -
  dsimp only
  split
  · refine Gives.pure (.of_done ?_)
    exact going.tell .execute .working (by decide)
  · refine Gives.pure (.of_fail ?_ .execute ?_)
    · exact going.tell .execute .working (by decide)
    · trivial

theorem compileAndExecute_consistent (fair : clock.IsFair) (going : r.Going script) (file : File)
    (s : PipelineState σ) :
    Gives (fun done => done.1.Consistent p.limit p.unitName script)
      (p.compileAndExecute handOver span args file (r, s)) := by
  rw [compileAndExecute]
  have begun := going.tell .compile .working (by decide)
  have compiled := begun.tell .compile .done (by decide)
  have compiles : Gives (· = compile file (some .dbase) p.limit p.unitName)
      (pure (compile file (some .dbase) p.limit p.unitName) : StateM S Compilation) :=
    Gives.pure rfl
  refine Gives.bind (Gives.timed fair compiles) ?_
  rintro ⟨c, time⟩ rfl
  dsimp only
  split
  next f failed =>
    refine Gives.pure (.of_fail ?_ .compile ?_)
    · exact begun
    · exact ⟨file, rfl, failed⟩
  next result done =>
    refine Gives.bind (Gives.any _) fun tracer _ => ?_
    refine Gives.bind (Gives.any _) fun created _ => ?_
    refine Gives.bind (Gives.any _) ?_
    rintro ⟨stored, time⟩ -
    dsimp only
    split
    · refine Gives.pure (.of_fail ?_ .cache ?_)
      · exact compiled
      · exact ⟨file, result, rfl, done⟩
    · refine execute_consistent ?_ _ _
      exact compiled.tell .cache .done (by decide)

theorem runFile_consistent (fair : clock.IsFair) (going : r.Going script) (file : File)
    (s : PipelineState σ) :
    Gives (fun done => done.1.Consistent p.limit p.unitName script)
      (p.runFile handOver span args file (r, s)) := by
  rw [runFile]
  refine Gives.bind (Gives.any _) ?_
  rintro ⟨found, time⟩ -
  have begun : ((r.tell .cache .working).addTime .cache time).Going script :=
    going.tell .cache .working (by decide)
  dsimp only
  split
  · refine execute_consistent ?_ _ _
    exact (begun.tell .cache .hit (by decide)).tell .compile .hit (by decide)
  · exact compileAndExecute_consistent fair begun _ _
  · exact compileAndExecute_consistent fair begun _ _

theorem run_consistent (fair : clock.IsFair) (s : PipelineState σ) :
    Gives (fun done => done.1.Consistent p.limit p.unitName script)
      (p.run s script args handOver) := by
  rw [run]
  have going : (RunResult.tell { path := script } .compile .queued).Going script :=
    RunResult.Going.tell ⟨rfl, rfl, List.forall_mem_nil _⟩ .compile .queued (by decide)
  generalize s.tracer.beginSpan .driver "run" 0 = begun
  refine Gives.bind (Gives.any _) fun tracer _ => ?_
  refine Gives.bind (Gives.any _) fun content _ => ?_
  cases content with
  | error e =>
      refine Gives.bind (P := fun done => done.1.Consistent p.limit p.unitName script) ?_ ?_
      · exact Gives.pure (.of_fail going .compile rfl)
      · exact fun done consistent => Gives.pure consistent
  | ok bytes =>
      refine Gives.bind (P := fun done => done.1.Consistent p.limit p.unitName script) ?_ ?_
      · exact runFile_consistent fair going _ _
      · exact fun done consistent => Gives.pure consistent

end Pipeline

/-! ### Progress views -/

namespace ProgressView

theorem paths_apply (v : ProgressView) (ev : ProgressEvent) :
    (v.apply ev).rows.map (·.path) = v.rows.map (·.path) := by
  have row (row : ProgressRow) : (applyToRow ev row).path = row.path := by
    rw [applyToRow]
    grind
  rw [apply]
  split
  · apply List.ext_getElem
    · simp
    · intro i _ _
      simp only [List.getElem_map, List.getElem_modify]
      grind
  · rfl

theorem width_apply (v : ProgressView) (ev : ProgressEvent) : (v.apply ev).width = v.width := by
  rw [apply]
  split <;> rfl

theorem width_foldl_apply (v : ProgressView) (evs : List ProgressEvent) :
    (evs.foldl apply v).width = v.width := by
  induction evs generalizing v with
  | nil => rfl
  | cons ev evs ih => rw [List.foldl_cons, ih, width_apply]

theorem paths_foldl_apply (v : ProgressView) (evs : List ProgressEvent) :
    (evs.foldl apply v).rows.map (·.path) = v.rows.map (·.path) := by
  induction evs generalizing v with
  | nil => rfl
  | cons ev evs ih => rw [List.foldl_cons, ih, paths_apply]

/-- A failure that is told about a listed script is in a row. -/
theorem mem_rows_of_failed {v : ProgressView} {ev : ProgressEvent}
    (listed : ev.file ∈ v.rows.map (·.path)) (failed : ev.status = .failed) :
    ∃ row ∈ (v.apply ev).rows, row.error = ev.error := by
  have some : (v.rows.reverse.findIdx? (·.path == ev.file)).isSome = true := by
    rw [List.findIdx?_isSome, List.any_reverse, List.any_eq_true]
    obtain ⟨row, mem, path⟩ := List.mem_map.1 listed
    exact ⟨row, mem, beq_iff_eq.2 path⟩
  obtain ⟨k, at_k⟩ := Option.isSome_iff_exists.1 some
  have found : v.rowOf? ev.file = .some (v.rows.length - 1 - k) := by
    rw [rowOf?, at_k]
    rfl
  have bound : v.rows.length - 1 - k < v.rows.length := by
    have := List.length_pos_of_mem listed
    rw [List.length_map] at this
    omega
  have row : (v.apply ev).rows[v.rows.length - 1 - k]? =
      .some (applyToRow ev v.rows[v.rows.length - 1 - k]) := by
    simp only [apply, found, List.getElem?_modify_eq, List.getElem?_eq_getElem bound]
    rfl
  refine ⟨_, List.mem_of_getElem? row, ?_⟩
  rw [applyToRow]
  simp only [failed, if_pos]

/-- The failure of a row is shown, as far as there are columns for it. -/
theorem shorten_infix_text {v : ProgressView} {row : ProgressRow} (mem : row ∈ v.rows)
    {error : Text} (failed : row.error = some error) :
    shorten v.nameWidth error <:+: v.text := by
  have line : shorten v.nameWidth error <:+: v.line [] error := by
    rw [ProgressView.line]
    exact List.infix_append _ _ _
  have inRow : v.line [] error <:+: v.rowText row := by
    rw [rowText, failed]
    exact (List.suffix_append _ _).isInfix
  have inRows : v.rowText row <:+: v.rows.flatMap v.rowText :=
    List.infix_of_mem_flatten (List.mem_map_of_mem mem)
  have nonempty : ¬v.rows.isEmpty = true := by
    rw [List.isEmpty_iff]
    exact List.ne_nil_of_mem mem
  rw [text, if_neg nonempty]
  refine ((line.trans inRow).trans inRows).trans ?_
  rw [List.append_assoc, List.append_assoc]
  exact List.infix_append _ _ _

end ProgressView

end PrgScript
