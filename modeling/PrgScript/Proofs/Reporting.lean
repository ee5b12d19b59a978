import PrgScript.CommandLine.Invocation
import PrgScript.Proofs.Placement
import PrgScript.Proofs.TwinCompile

/-!
# What is shown of a failed compilation

A bag with a limit keeps the first diagnostics that are added to it. The error of a
failed compilation is added behind the warnings that were found before it, so whether it
is kept depends on their number alone. All of them are of the severity of warnings, so the
bag tells of an error exactly if the error is in it.

The tool shows nothing of a compilation but its bag and its timings. `Invocation.shown` is
the text that it shows of the bag; the message of each diagnostic in the bag is part of
it, unless less is to be shown and there is no error among them.
-/

namespace PrgScript

open Step

/-! ### Bags with a limit -/

namespace Bag

/-- The diagnostics that a bag with a limit keeps of those added to it. -/
def kept (limit : Int) (ds : List Diagnostic) : List Diagnostic :=
  if 0 < limit then ds.take limit.toNat else ds

theorem isFull_iff (bag : Bag) :
    bag.isFull = true ↔ 0 < bag.limit ∧ bag.limit ≤ bag.items.length := by
  rw [isFull, Bool.and_eq_true, decide_eq_true_iff, decide_eq_true_iff]

theorem add_limit (bag : Bag) (d : Diagnostic) : (bag.add d).limit = bag.limit := by
  rw [add]
  split <;> rfl

/-- One more diagnostic is kept as long as there is room. -/
theorem items_add {bag : Bag} {ds : List Diagnostic} (h : bag.items = kept bag.limit ds)
    (d : Diagnostic) : (bag.add d).items = kept bag.limit (ds ++ [d]) := by
  rw [add, kept]
  by_cases positive : 0 < bag.limit
  · rw [kept, if_pos positive] at h
    rw [if_pos positive]
    have counted : bag.items.length = min bag.limit.toNat ds.length := by rw [h, List.length_take]
    split
    next full =>
      have enough : bag.limit.toNat ≤ ds.length := by
        have := (bag.isFull_iff.1 full).2
        omega
      rw [h, List.take_append_of_le_length enough]
    next room =>
      have short : ds.length < bag.limit.toNat := by
        rw [isFull_iff] at room
        omega
      rw [List.take_of_length_le (by simp; omega)]
      rw [List.take_of_length_le (by omega)] at h
      exact congrArg (· ++ [d]) h
  · rw [kept, if_neg positive] at h
    rw [if_neg positive, if_neg (by rw [isFull_iff]; exact fun full => positive full.1)]
    exact congrArg (· ++ [d]) h

theorem items_addAll {bag : Bag} {before : List Diagnostic} (h : bag.items = kept bag.limit before)
    (ds : List Diagnostic) : (bag.addAll ds).items = kept bag.limit (before ++ ds) := by
  induction ds generalizing bag before with
  | nil =>
      rw [List.append_nil]
      exact h
  | cons d ds ih =>
      have added := items_add h d
      rw [← bag.add_limit d] at added
      have rest := ih added
      rw [add_limit, List.append_assoc] at rest
      exact rest

theorem kept_of_room {limit : Int} {ds : List Diagnostic} (room : limit ≤ 0 ∨ ds.length ≤ limit) :
    kept limit ds = ds := by
  rw [kept]
  split
  · exact List.take_of_length_le (by omega)
  · rfl

theorem kept_append_of_full {limit : Int} {ds : List Diagnostic} (positive : 0 < limit)
    (full : limit ≤ ds.length) (more : List Diagnostic) :
    kept limit (ds ++ more) = ds.take limit.toNat := by
  rw [kept, if_pos positive]
  exact List.take_append_of_le_length (by omega)

theorem hasErrors_iff (bag : Bag) :
    bag.hasErrors = true ↔ ∃ d ∈ bag.items, Severity.error.level ≤ d.severity.level := by
  simp only [hasErrors, List.any_eq_true, decide_eq_true_eq]

theorem hasErrors_eq_false {bag : Bag} (warned : ∀ d ∈ bag.items, d.severity = .warning) :
    bag.hasErrors = false := by
  apply Bool.eq_false_iff.2
  intro has
  obtain ⟨d, mem, level⟩ := bag.hasErrors_iff.1 has
  rw [warned d mem] at level
  exact absurd level (by decide)

end Bag

/-! ### The bag of a compilation -/

section Failed

variable {file : File} {limit : Int} {name : Text} {e : ScriptError}

/-- The bag of a failed compilation keeps the warnings and then the error, as far as they fit. -/
theorem items_of_failed (failed : (compile file (some .dbase) limit name).result =
      .error (.script e)) :
    (compile file (some .dbase) limit name).bag.items =
      Bag.kept limit ((compileIn file .dbase name {}).warnings ++ [e.diagnostic]) := by
  have result : (compileIn file .dbase name {}).result = .error e := by
    rw [compile_result] at failed
    cases ended : (compileIn file .dbase name {}).result with
    | ok compiled =>
        rw [ended] at failed
        cases failed
    | error e' =>
        rw [ended] at failed
        cases failed
        rfl
  have bag : (compile file (some .dbase) limit name).bag =
      Bag.addAll { limit } ((compileIn file .dbase name {}).warnings ++ [e.diagnostic]) := by
    rw [compile]
    simp only [result]
    rw [Bag.addAll, Bag.addAll, List.foldl_append]
    rfl
  have empty : ({ limit } : Bag).items = Bag.kept limit [] := by simp [Bag.kept]
  rw [bag, Bag.items_addAll empty]
  rfl

/-- What a bag holds beside the error of the compilation is warnings. -/
theorem severity_of_mem_items {d : Diagnostic}
    (mem : d ∈ (compile file (some .dbase) limit name).bag.items) :
    d.severity = .warning ∨
      ∃ e, (compile file (some .dbase) limit name).result = .error (.script e) ∧
        d = e.diagnostic := by
  have kept {ds : List Diagnostic} (h : d ∈ Bag.kept limit ds) : d ∈ ds := by
    rw [Bag.kept] at h
    split at h
    · exact List.mem_of_mem_take h
    · exact h
  cases result : (compileIn file .dbase name {}).result with
  | error e =>
      have failed : (compile file (some .dbase) limit name).result = .error (.script e) := by
        rw [compile_result, result]
        rfl
      rw [items_of_failed failed] at mem
      obtain mem | mem := List.mem_append.1 (kept mem)
      · exact .inl (severity_of_mem_warnings file name d mem)
      · exact .inr ⟨e, failed, List.mem_singleton.1 mem⟩
  | ok compiled =>
      have bag : (compile file (some .dbase) limit name).bag =
          (Bag.addAll { limit } (compileIn file .dbase name {}).warnings).sort := by
        rw [compile]
        simp only [result]
      have empty : ({ limit } : Bag).items = Bag.kept limit [] := by simp [Bag.kept]
      rw [bag, Bag.sort, List.mem_mergeSort, Bag.items_addAll empty] at mem
      exact .inl (severity_of_mem_warnings file name d (kept mem))

end Failed

/-! ### What the tool shows -/

theorem Display.headline_infix_bag (display : Display) (set : FileSet) {bag : Bag} {d : Diagnostic}
    (mem : d ∈ bag.items) : display.headline d <:+: display.bag set bag := by
  have one : display.headline d <:+: display.diagnostic set d := by
    rw [diagnostic]
    split
    next => exact List.infix_rfl
    next file _ =>
      refine ⟨display.paths.shownPath file.path ++ ":" ++ Text.ofNat (set.resolve d.span).1.line ++
        ":" ++ Text.ofNat (set.resolve d.span).1.col ++ ": ", ?after, ?split⟩
      case split =>
        simp only [List.append_assoc]
        rfl
  rw [Display.bag, List.flatMap]
  exact one.trans (List.infix_of_mem_flatten (List.mem_map_of_mem mem))

theorem Display.message_infix_headline (display : Display) (d : Diagnostic) :
    d.message <:+: display.headline d := by
  rw [headline, List.append_assoc]
  exact List.infix_append' _ _ _

namespace CommandLine

variable {m : Type → Type}

theorem tell_nil [Monad m] [Host m] : (tell [] : CommandM m Unit) = pure () := rfl

namespace Invocation

def display (inv : Invocation m) : Display :=
  { colored := inv.inColor, paths := inv.paths .relative, context := 1 }

def shown (inv : Invocation m) (c : Compilation) : Text :=
  if inv.quiet ∧ !c.bag.hasErrors then [] else inv.display.bag { files := #[c.file] } c.bag

def shownTimes (inv : Invocation m) (report : Report) : Text :=
  if inv.timed ∧ !report.phases.isEmpty then report.text else []

theorem showCompilation_eq [Monad m] [LawfulMonad m] [Host m] (inv : Invocation m)
    (c : Compilation) (report : Report) :
    inv.showCompilation c report =
      (do tell (inv.shown c); tell (inv.shownTimes report) : CommandM m Unit) := by
  have diagnostics :
      (if c.bag.items ≠ [] ∧ (!inv.quiet ∨ c.bag.hasErrors) then
        inv.showDiagnostics .relative c.file c.bag else pure ()) = tell (m := m) (inv.shown c) := by
    rw [shown]
    by_cases hidden : inv.quiet = true ∧ (!c.bag.hasErrors) = true
    · rw [if_pos hidden, if_neg (by grind), tell_nil]
    · rw [if_neg hidden]
      by_cases empty : c.bag.items = []
      · rw [if_neg (by grind), Display.bag, empty, List.flatMap_nil, tell_nil]
      · rw [if_pos (by grind)]
        rfl
  have times : (if inv.timed ∧ !report.phases.isEmpty then tell report.text else pure ()) =
      tell (m := m) (inv.shownTimes report) := by
    rw [shownTimes]
    split
    · rfl
    · exact tell_nil.symm
  rw [showCompilation, ← diagnostics, ← times]
  split
  · rfl
  · rw [pure_bind]

/-- An error in the bag of a compilation is shown, however little is to be shown. -/
theorem headline_infix_shown (inv : Invocation m) {c : Compilation} {d : Diagnostic}
    (mem : d ∈ c.bag.items) (error : d.severity = .error) :
    inv.display.headline d <:+: inv.shown c := by
  have has : c.bag.hasErrors = true := c.bag.hasErrors_iff.2 ⟨d, mem, error ▸ Nat.le_refl _⟩
  rw [shown, if_neg (by rw [has]; simp)]
  exact inv.display.headline_infix_bag _ mem

end Invocation

/-- The error of a failed compilation is in its bag, behind the warnings found before it, exactly if
the limit of diagnostics leaves room for it; the tool then shows it. If the warnings fill the
bag, there is no error in it, and a tool that is to show little shows nothing of the
compilation. -/
theorem failure_in_bag {file : File} {limit : Int} {name : Text} {e : ScriptError}
    (failed : (compile file (some .dbase) limit name).result = .error (.script e)) :
    let c := compile file (some .dbase) limit name
    let warnings := (compileIn file .dbase name {}).warnings
    (∀ d ∈ warnings, d.severity = .warning) ∧
    (limit ≤ 0 ∨ warnings.length < limit →
      c.bag.items = warnings ++ [⟨.error, e.code, e.detail, e.span⟩] ∧ c.bag.hasErrors = true ∧
      ∀ (m : Type → Type) [Monad m] [LawfulMonad m] [Host m] (inv : Invocation m)
        (report : Report), ∃ above below,
        inv.showCompilation c report =
          (do
            tell (above ++ inv.display.headline ⟨.error, e.code, e.detail, e.span⟩ ++ below)
            tell (inv.shownTimes report) : CommandM m Unit)) ∧
    (0 < limit ∧ limit ≤ warnings.length →
      c.bag.items = warnings.take limit.toNat ∧ c.bag.hasErrors = false ∧
      ∀ (m : Type → Type) [Monad m] [LawfulMonad m] [Host m] (inv : Invocation m)
        (report : Report), inv.quiet = true →
        inv.showCompilation c report = tell (inv.shownTimes report)) := by
  intro c warnings
  have warned := severity_of_mem_warnings file name
  have items : c.bag.items = Bag.kept limit (warnings ++ [e.diagnostic]) := items_of_failed failed
  refine ⟨warned, ?_, ?_⟩
  · intro room
    have all : c.bag.items = warnings ++ [e.diagnostic] := by
      rw [items]
      apply Bag.kept_of_room
      rw [List.length_append, List.length_singleton]
      omega
    have mem : e.diagnostic ∈ c.bag.items := by
      rw [all]
      exact List.mem_append_right _ (List.mem_singleton_self _)
    refine ⟨all, c.bag.hasErrors_iff.2 ⟨_, mem, Nat.le_refl _⟩, ?_⟩
    intro m _ _ _ inv report
    obtain ⟨above, below, shown⟩ := inv.headline_infix_shown mem rfl
    refine ⟨above, below, ?_⟩
    rw [inv.showCompilation_eq, ← shown]
    rfl
  · rintro ⟨positive, full⟩
    have first : c.bag.items = warnings.take limit.toNat := by
      rw [items, Bag.kept_append_of_full positive full]
    have none : c.bag.hasErrors = false := by
      apply Bag.hasErrors_eq_false
      intro d mem
      rw [first] at mem
      exact warned d (List.mem_of_mem_take mem)
    refine ⟨first, none, ?_⟩
    intro m _ _ _ inv report quiet
    rw [inv.showCompilation_eq, Invocation.shown, if_pos ⟨quiet, by rw [none]; rfl⟩, tell_nil,
      pure_bind]

/-- A variable declared twice, and the end of a branch that has not begun. -/
def unopened : File := ⟨0, "demo.prg", "LOCAL a\nLOCAL a\nENDIF\n", 0⟩

theorem unopened_result (limit : Int) :
    (compile unopened (some .dbase) limit []).result = .error (.script
      { cause := .withoutOpener .endif "ENDIF", file := "demo.prg", line := 3, col := 1,
        span := ⟨0, 16, 21⟩ }) := by
  have result : (compileIn unopened .dbase [] {}).result = .error
      { cause := .withoutOpener .endif "ENDIF", file := "demo.prg", line := 3, col := 1,
        span := ⟨0, 16, 21⟩ } := by decide +kernel
  rw [compile_result, result]
  rfl

/-- With room for two diagnostics the warning and the error are kept. -/
theorem failure_in_bag_of_two :
    (compile unopened (some .dbase) 2 []).result.isOk = false ∧
      (compile unopened (some .dbase) 2 []).bag.items.map (·.severity) = [.warning, .error] ∧
      (compile unopened (some .dbase) 2 []).bag.hasErrors = true :=
  ⟨by rw [unopened_result]; rfl, by decide +kernel,
    ((failure_in_bag (unopened_result 2)).2.1 (.inr (by decide +kernel))).2.1⟩

/-- With room for one diagnostic the warning takes it, and the error is lost. -/
theorem failure_missing_from_bag :
    ∃ e, (compile unopened (some .dbase) 1 []).result = .error (.script e) ∧
      e.diagnostic ∉ (compile unopened (some .dbase) 1 []).bag.items ∧
      (compile unopened (some .dbase) 1 []).bag.items.map (·.severity) = [.warning] ∧
      (compile unopened (some .dbase) 1 []).bag.hasErrors = false :=
  ⟨_, unopened_result 1, by decide +kernel, by decide +kernel, by decide +kernel⟩

end CommandLine

end PrgScript
