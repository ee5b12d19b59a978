import PrgScript.Proofs.FailedRuns

/-!
# The rows of a progress view

A progress view has a row for every script of a command, and what is told about a script goes
to the last row with its path. So of the rows with one path, all but the last wait for ever, and
the last shows what came of the last run of that path. For a path that is listed once this is
what came of its run; a path that is listed again is shown wrongly as soon as one of its runs
is over.
-/

namespace PrgScript

namespace ProgressView

variable {v : ProgressView} {path : Text} {front back : List Text}

/-- A path stands for the last row that has it. -/
theorem rowOf?_eq_some_iff (paths : v.rows.map (·.path) = front ++ path :: back) (file : Text) :
    v.rowOf? file = some front.length ↔ file = path ∧ path ∉ back := by
  have count : v.rows.length = front.length + (back.length + 1) := by
    rw [← List.length_map, paths, List.length_append, List.length_cons]
  have index : v.rowOf? file =
      ((back.reverse ++ path :: front.reverse).findIdx? (· == file)).map
        fun i => front.length + back.length - i := by
    have reversed : back.reverse ++ path :: front.reverse = v.rows.reverse.map (·.path) := by
      rw [List.map_reverse, paths]
      simp
    rw [reversed, List.findIdx?_map, rowOf?, count]
    rfl
  rw [index, List.findIdx?_append, List.findIdx?_cons]
  cases below : back.reverse.findIdx? (· == file) with
  | some i =>
      obtain ⟨bound, is, -⟩ := List.findIdx?_eq_some_iff_getElem.1 below
      have again : file ∈ back := List.mem_reverse.1 (beq_iff_eq.1 is ▸ List.getElem_mem bound)
      rw [List.length_reverse] at bound
      simp only [Option.some_or, Option.map_some, Option.some.injEq]
      constructor
      · intro
        omega
      · rintro ⟨rfl, last⟩
        exact absurd again last
  | none =>
      have last : file ∉ back := by
        intro again
        have := List.findIdx?_eq_none_iff.1 below file (List.mem_reverse.2 again)
        simp at this
      by_cases is : path = file
      · subst is
        simp [last]
      · simp only [beq_iff_eq, if_neg is, Option.none_or, Option.map_map, Option.map_eq_some_iff]
        constructor
        · rintro ⟨i, above, same⟩
          obtain ⟨bound, -, -⟩ := List.findIdx?_eq_some_iff_getElem.1 above
          simp only [Function.comp_apply, List.length_reverse] at same bound
          omega
        · rintro ⟨rfl, -⟩
          exact absurd rfl is

/-- A row with a path after something is told. -/
def hear (path : Text) (row : ProgressRow) (ev : ProgressEvent) : ProgressRow :=
  if ev.file = path then applyToRow ev row else row

/-- What is told changes the last row of a path, and no other. -/
theorem getElem?_apply (paths : v.rows.map (·.path) = front ++ path :: back) (ev : ProgressEvent) :
    (v.apply ev).rows[front.length]? =
      if path ∈ back then v.rows[front.length]?
      else v.rows[front.length]?.map fun row => hear path row ev := by
  have row := rowOf?_eq_some_iff paths ev.file
  rw [apply]
  cases found : v.rowOf? ev.file with
  | none => grind [hear]
  | some i =>
      rw [found, Option.some.injEq] at row
      simp only [List.getElem?_modify, row]
      grind [hear]

theorem getElem?_foldl_apply (paths : v.rows.map (·.path) = front ++ path :: back)
    (evs : List ProgressEvent) :
    (evs.foldl apply v).rows[front.length]? =
      if path ∈ back then v.rows[front.length]?
      else v.rows[front.length]?.map (evs.foldl (hear path)) := by
  induction evs generalizing v with
  | nil => simp
  | cons ev evs ih =>
      rw [List.foldl_cons, ih (by rw [paths_apply, paths]), getElem?_apply paths]
      split
      · rfl
      · rw [Option.map_map]
        rfl

end ProgressView

/-! ### Rows after runs -/

namespace ProgressRow

/-- The state that a row shows, and the failure. -/
def shown (row : ProgressRow) : Text × Option Text := (row.label, row.error)

/-- What is to be shown about a script, given what came of its run if there was one. -/
def due : Option RunResult → Text × Option Text
  | none => ("queued", none)
  | some r =>
    match r.error with
    | none => ("done", none)
    | some e => ("error", some e.message)

theorem error_foldl_hear {evs : List ProgressEvent} (fine : ∀ ev ∈ evs, ev.status ≠ .failed)
    (path : Text) (row : ProgressRow) :
    (evs.foldl (ProgressView.hear path) row).error = row.error := by
  induction evs generalizing row with
  | nil => rfl
  | cons ev evs ih =>
      obtain ⟨first, rest⟩ := List.forall_mem_cons.1 fine
      rw [List.foldl_cons, ih rest]
      grind [ProgressView.hear, ProgressView.applyToRow]

theorem foldl_hear_of_ne {evs : List ProgressEvent} {script path : Text}
    (about : ∀ ev ∈ evs, ev.file = script) (other : script ≠ path) (row : ProgressRow) :
    evs.foldl (ProgressView.hear path) row = row := by
  induction evs with
  | nil => rfl
  | cons ev evs ih =>
      obtain ⟨first, rest⟩ := List.forall_mem_cons.1 about
      rw [List.foldl_cons, ProgressView.hear, if_neg (first.trans_ne other), ih rest]

theorem shown_hear_done (path : Text) (row : ProgressRow) :
    (ProgressView.hear path row { file := path, stage := .execute, status := .done }).shown =
      (Text.ofString "done", row.error) := by
  rw [ProgressView.hear, if_pos rfl]
  rfl

theorem shown_hear_failed (path : Text) (stage : Stage) (error : Option Text) (row : ProgressRow) :
    (ProgressView.hear path row { file := path, stage, status := .failed, error }).shown =
      (Text.ofString "error", error) := by
  rw [ProgressView.hear, if_pos rfl]
  rfl

variable {row : ProgressRow} {ran : Option RunResult}

/-- A row without a failure shows what came of a run of its script. -/
theorem shown_foldl_events {limit : Int} {name script : Text} {r : RunResult}
    (consistent : r.Consistent limit name script) (path : Text) (clear : (due ran).2 = none)
    (shows : row.shown = due ran) :
    (r.events.foldl (ProgressView.hear path) row).shown =
      due ((if r.path = path then some r else none).or ran) := by
  rw [consistent.path]
  split
  next same =>
    subst same
    cases ended : r.error with
    | none =>
        obtain ⟨before, fine, told⟩ := consistent.done ended
        have kept := (error_foldl_hear fine script row).trans (congrArg Prod.snd shows)
        rw [told, List.foldl_append, Option.some_or, due, ended]
        exact (shown_hear_done _ _).trans (by rw [kept, clear])
    | some e =>
        obtain ⟨before, stage, told⟩ := consistent.last ended
        rw [told, List.foldl_append, Option.some_or, due, ended]
        exact shown_hear_failed script stage _ _
  next other => rw [foldl_hear_of_ne consistent.about other, Option.none_or, shows]

/-- Of all the runs of its script, the row shows what came of the last. -/
theorem shown_foldl_runs {σ : Type} {p : Pipeline σ} {scripts : List Text} {rs : List RunResult}
    (all : CommandLine.Invocation.Gathered p scripts rs) (path : Text)
    (clear : (due ran).2 = none) (shows : row.shown = due ran) :
    ((rs.flatMap (·.events)).foldl (ProgressView.hear path) row).shown =
      due ((rs.reverse.find? (·.path = path)).or ran) := by
  induction all generalizing row ran with
  | done => exact shows
  | failed _ consistent _ =>
      rw [List.flatMap_singleton, shown_foldl_events consistent path clear shows]
      simp [List.find?_singleton]
  | @next _ r _ _ consistent well _ ih =>
      rw [List.flatMap_cons, List.foldl_append, List.reverse_cons, List.find?_append,
        Option.or_assoc]
      have first := shown_foldl_events consistent path clear shows
      have seen : [r].find? (·.path = path) = if r.path = path then some r else none := by
        simp [List.find?_singleton]
      rw [seen]
      refine ih ?_ first
      split
      · rw [Option.some_or, due, well]
      · exact clear

end ProgressRow

namespace CommandLine

namespace Invocation

/-- The scripts are run in order, and the runs end early only with a failure. -/
theorem Gathered.ordered {σ : Type} {p : Pipeline σ} {scripts : List Text} {rs : List RunResult}
    (all : Gathered p scripts rs) :
    rs.map (·.path) <+: scripts ∧ (∀ r ∈ rs.dropLast, r.error = none) ∧
      (rs.length < scripts.length → ∃ r ∈ rs, r.error ≠ none) := by
  induction all with
  | done => simp
  | failed _ consistent failed => simp [consistent.path, failed]
  | @next _ r _ rs consistent well _ ih =>
      obtain ⟨paths, going, early⟩ := ih
      refine ⟨?_, ?_, ?_⟩
      · simp [consistent.path, paths]
      · cases rs with
        | nil => simp
        | cons r' rs => exact List.forall_mem_cons.2 ⟨well, going⟩
      · intro short
        obtain ⟨r', mem, failed⟩ := early (by simpa using short)
        exact ⟨r', List.mem_cons_of_mem _ mem, failed⟩

/-- The last run of a path is the one of its last row, if that was run or the path has no other. -/
theorem find?_reverse_of_ordered {rs : List RunResult} {front back : List Text} {script : Text}
    (ordered : rs.map (·.path) <+: front ++ script :: back) (last : script ∉ back)
    (own : script ∉ front ∨ front.length < rs.length) :
    rs.reverse.find? (·.path = script) = rs[front.length]? := by
  induction front generalizing rs with
  | nil =>
      cases rs with
      | nil => rfl
      | cons r rs =>
          obtain ⟨path, rest⟩ := List.cons_prefix_cons.1 ordered
          have later : rs.reverse.find? (·.path = script) = none := by
            rw [List.find?_eq_none]
            intro r mem same
            refine last (rest.subset ?_)
            exact of_decide_eq_true same ▸ List.mem_map_of_mem (List.mem_reverse.1 mem)
          rw [List.reverse_cons, List.find?_append, later]
          simp [path]
  | cons first front ih =>
      cases rs with
      | nil => rfl
      | cons r rs =>
          obtain ⟨path, rest⟩ := List.cons_prefix_cons.1 ordered
          rw [List.reverse_cons, List.find?_append]
          obtain new | ran := own
          · have other : first ≠ script := fun same => new (same ▸ List.mem_cons_self)
            have before : [r].find? (·.path = script) = none := by
              simpa [← path] using other
            rw [before, Option.or_none]
            exact ih rest (.inl fun mem => new (List.mem_cons_of_mem _ mem))
          · have ran : front.length < rs.length := Nat.lt_of_succ_lt_succ ran
            rw [ih rest (.inr ran), List.getElem?_eq_getElem ran, Option.some_or]
            exact (List.getElem?_eq_getElem ran).symm

/-- A row of the view of runs that are over: one that waits if its path is listed again. -/
theorem getElem?_lastView {scripts front back : List Text} {script : Text}
    (split : scripts = front ++ script :: back) (results : List RunResult) :
    ∃ row, (lastView scripts results).rows[front.length]? = some row ∧ row.path = script ∧
      row = if script ∈ back then { path := script } else
        (results.flatMap (·.events)).foldl (ProgressView.hear script) { path := script } := by
  have paths : (ProgressView.start "xbase run" scripts).rows.map (·.path) =
      front ++ script :: back := by
    rw [← split, ProgressView.start, List.map_map]
    exact List.map_id _
  have waits : (ProgressView.start "xbase run" scripts).rows[front.length]? =
      some { path := script } := by
    rw [ProgressView.start, split]
    simp
  have row := ProgressView.getElem?_foldl_apply paths (results.flatMap (·.events))
  rw [waits, Option.map_some, ← apply_ite some] at row
  refine ⟨_, row, ?_, rfl⟩
  have listed := congrArg (·[front.length]?)
    ((ProgressView.paths_foldl_apply _ (results.flatMap (·.events))).trans paths)
  rw [List.getElem?_map, row] at listed
  simpa using listed

variable {S : Type} [Host (StateM S)]

/-- After runs in order up to the first failure, a row of the view shows what came of the last run
of its path, unless the path is listed again: then it still waits. So a row whose path has no
other row shows what came of its own run. -/
theorem rows_show_last_runs (log : Transcript S) (inv : Invocation (StateM S)) {σ : Type}
    (p : Pipeline σ) (args : List Value) (state : PipelineState σ) (scripts : List Text) (s : S) :
    let results := ((inv.runAll p args state scripts).run s).1.1
    (results.map (·.path) <+: scripts ∧ (∀ r ∈ results.dropLast, r.error = none) ∧
      (results.length < scripts.length → ∃ r ∈ results, r.error ≠ none)) ∧
    ∀ front script back, scripts = front ++ script :: back →
      ∃ row, (lastView scripts results).rows[front.length]? = some row ∧ row.path = script ∧
        (script ∈ back → row.shown = ProgressRow.due none) ∧
        (script ∉ back →
          row.shown = ProgressRow.due (results.reverse.find? (·.path = script))) ∧
        (script ∉ back → script ∉ front ∨ front.length < results.length →
          row.shown = ProgressRow.due results[front.length]?) := by
  intro results
  have all : Gathered p scripts results := runAll_gathered log p scripts state s
  refine ⟨all.ordered, ?_⟩
  intro front script back split
  obtain ⟨row, found, path, is⟩ := getElem?_lastView split results
  refine ⟨row, found, path, ?_⟩
  by_cases again : script ∈ back
  · rw [if_pos again] at is
    refine ⟨fun _ => ?_, absurd again, absurd again⟩
    rw [is]
    rfl
  · rw [if_neg again] at is
    have shows := ProgressRow.shown_foldl_runs all script
      (show (ProgressRow.due none).2 = none from rfl)
      (show ProgressRow.shown { path := script } = ProgressRow.due none from rfl)
    rw [← is, Option.or_none] at shows
    refine ⟨fun h => absurd h again, fun _ => shows, fun _ own => ?_⟩
    rw [shows, find?_reverse_of_ordered (split ▸ all.ordered.1) again own]

/-- A disk with the script `a.prg` and a place for artifacts. -/
def smallWorld : World where
  disk := { nodes := [([Text.ofString "a.prg"], .file "? 1\n"), ([Text.ofString "c"], .directory)] }

def smallRuns (scripts : List Text) : List RunResult :=
  ((inWorld.runAll (inWorld.pipeline { directory := "c" } Recorder.console) [] { console := {} }
    scripts).run smallWorld).1.1

def missing : Text × Option Text :=
  ("error", some (Text.ofString "load b.prg: open b.prg: no such file or directory"))

/-- A script that is not there is shown as such, between one that ran and one that waits. -/
theorem rows_show_last_runs_of_missing :
    let scripts : List Text := ["a.prg", "b.prg", "c.prg"]
    ∃ row, (lastView scripts (smallRuns scripts)).rows[1]? = some row ∧ row.shown = missing := by
  have computed : ProgressRow.due (smallRuns ["a.prg", "b.prg", "c.prg"])[1]? = missing := by
    decide +kernel
  have shows := (rows_show_last_runs World.transcript inWorld
    (inWorld.pipeline { directory := "c" } Recorder.console) [] { console := {} }
    ["a.prg", "b.prg", "c.prg"] smallWorld).2 ["a.prg"] "b.prg" ["c.prg"] rfl
  obtain ⟨row, found, -, -, -, own⟩ := shows
  refine ⟨row, found, ?_⟩
  rw [← computed]
  exact own (by decide) (.inl (by decide))

/-- With a script before and after one that fails, the first row waits though its run is done, and
the last is done though it was not run. -/
theorem rows_of_repeated_scripts_differ :
    let scripts : List Text := ["a.prg", "b.prg", "a.prg"]
    (smallRuns scripts).map (ProgressRow.due ∘ some) = [(Text.ofString "done", none), missing] ∧
    (lastView scripts (smallRuns scripts)).rows.map ProgressRow.shown =
      [(Text.ofString "queued", none), missing, (Text.ofString "done", none)] := by
  decide +kernel

end Invocation

end CommandLine

end PrgScript
