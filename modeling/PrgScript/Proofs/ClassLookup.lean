import Mathlib.Data.List.Induction
import PrgScript.Proofs.FaultLines
import PrgScript.Proofs.Primitives

/-!
# Looking up classes

A class is looked up by its name in any letter case, in two places. A run enters the
classes of the program into a table, where a later class takes the place of an earlier one
with the same key. A name that is not in the table is searched for in the program, from the
first class on. A run that is given too many arguments stops before it gets to the table.

So a program that declares a name more than once has two answers: the first class before
the table is made and the last one afterwards (`class_lookups`). They agree for every name
that is declared once.
-/

namespace PrgScript

open Step

/-- Whether a class has a name, in any letter case. -/
def Class.isNamed (name : Text) (c : Class) : Bool := Variables.key c.name == Variables.key name

namespace Program

def firstNamed? (p : Program) (name : Text) : Option Class := p.classes.find? (Class.isNamed name)

def lastNamed? (p : Program) (name : Text) : Option Class :=
  p.classes.reverse.find? (Class.isNamed name)

theorem lastNamed?_or_firstNamed? (p : Program) (name : Text) :
    (p.lastNamed? name).or (p.firstNamed? name) = p.lastNamed? name := by
  cases last : p.lastNamed? name with
  | some c => rfl
  | none =>
      have absent : ∀ c ∈ p.classes, ¬c.isNamed name = true := by
        simpa [lastNamed?] using last
      simpa [firstNamed?] using absent

/-- A name that at most one class has is looked up the same way from both ends. -/
theorem lastNamed?_eq_firstNamed? {p : Program} {name : Text}
    (once : p.classes.countP (Class.isNamed name) ≤ 1) :
    p.lastNamed? name = p.firstNamed? name := by
  rw [List.countP_eq_length_filter] at once
  rw [lastNamed?, firstNamed?, ← List.getLast?_filter, ← List.head?_filter]
  generalize p.classes.filter (Class.isNamed name) = named at once ⊢
  cases named with
  | nil => rfl
  | cons c others =>
      cases others with
      | nil => rfl
      | cons => simp at once

end Program

/-! ### The table of a run -/

namespace Exec

variable {σ : Type}

theorem enterClasses_concat (classes : List Class) (c : Class) (table : Table Nat) :
    enterClasses (classes ++ [c]) table =
      (enterClasses classes table).put (Variables.key c.name) classes.length := by
  rw [enterClasses, List.zipIdx_append, List.foldl_append]
  simp [enterClasses]

/-- Under each key stands the place of the last class that has it. -/
theorem lookup_enterClasses (classes : List Class) (k : Text) :
    ((enterClasses classes []).lookup k).map (classes[·]?) =
      (classes.reverse.find? (Variables.key ·.name == k)).map some := by
  induction classes using List.reverseRecOn with
  | nil => rfl
  | append_singleton classes c ih =>
      rw [enterClasses_concat, Table.lookup_put, List.reverse_append, List.reverse_singleton,
        List.singleton_append, List.find?_cons]
      by_cases own : k = Variables.key c.name
      · simp [own]
      rw [if_neg own, beq_false_of_ne (Ne.symm own)]
      dsimp only
      rw [← ih]
      -- A place found before is one of the classes before.
      cases found : (enterClasses classes []).lookup k with
      | none => rfl
      | some place =>
          rw [found] at ih
          obtain ⟨d, -, there⟩ := Option.map_eq_some_iff.1 ih.symm
          obtain ⟨inside, -⟩ := List.getElem?_eq_some_iff.1 there.symm
          simp [List.getElem?_append_left inside]

theorem leaves_classes : Steady (fun {α} (x : Exec σ α) => Leaves (·.classes) x) :=
  Leaves.steady fun _ _ _ classes => classes

/-- A program enters its classes unless it has too many arguments, and nothing else touches the
table. -/
theorem program_classes (c : Console σ) (rounds : Nat) (p : Program) (args : List Value)
    (s : Session σ) :
    (outcome (program c rounds p args) s).2.classes =
      if args.length ≤ p.params.length then enterClasses p.classes s.classes else s.classes := by
  have sets (name : Text) (v : Value) :
      Leaves (·.classes) (setVariable name v : Exec σ Unit) := fun _ => rfl
  have block := leaves_classes.block c rounds p.body fun _ _ name _ => sets name
  unfold program
  split
  next tooMany =>
    rw [if_neg (Nat.not_le.2 tooMany)]
    rfl
  next fits =>
    rw [if_pos (Nat.not_lt.1 fits), outcome_bind_of_ok (outcome_bindParams p.params args s)]
    exact leaves_classes.discarding block _

end Exec

namespace Machine

/-- The machines that a machine becomes by running, however each run ends. -/
inductive Ran (m : Machine) : Machine → Prop
  | fresh : Ran m m
  | run {m' : Machine} {σ : Type} (before : Ran m m') (c : Console σ) (console : σ)
      (tracer : Trace.Tracer) (parent rounds : Nat) (args : List Value) :
      Ran m (m'.run c console tracer parent rounds args).machine

theorem Ran.program {m m' : Machine} (h : m.Ran m') : m'.program = m.program := by
  induction h with
  | fresh => rfl
  | run before c console tracer parent rounds args ih => exact ih

theorem eq_of_ofProgram {p : Program} {m : Machine} (h : ofProgram (some p) true = .ok m) :
    m = { program := p } := by
  unfold ofProgram at h
  dsimp only at h
  split at h
  · cases h
  · cases h
    rfl

theorem run_classes {σ : Type} (m : Machine) (c : Console σ) (console : σ)
    (tracer : Trace.Tracer) (parent rounds : Nat) (args : List Value) :
    (m.run c console tracer parent rounds args).machine.classes =
      if args.length ≤ m.program.params.length then Exec.enterClasses m.program.classes []
      else [] :=
  Exec.program_classes c rounds m.program args _

/-- After a run the table has the last class under a name. -/
theorem entered?_run {σ : Type} (m : Machine) (c : Console σ) (console : σ)
    (tracer : Trace.Tracer) (parent rounds : Nat) (args : List Value) (name : Text) :
    (m.run c console tracer parent rounds args).machine.entered? name =
      if args.length ≤ m.program.params.length then m.program.lastNamed? name else none := by
  have kept : (m.run c console tracer parent rounds args).machine.program = m.program := rfl
  rw [entered?, run_classes, kept]
  split
  · have places := Exec.lookup_enterClasses m.program.classes (Variables.key name)
    change _ = m.program.classes.reverse.find? (Variables.key ·.name == Variables.key name)
    simpa [Option.bind_map, Function.comp_def] using congrArg (Option.bind · id) places
  · rfl

/-- An object is of the class that is looked up. -/
theorem class?_of_instantiate {m : Machine} {name : Text} {inst : Instance}
    (h : m.instantiate name = .ok inst) :
    ∃ d, m.class? name = some d ∧ inst.className = d.name ∧ inst.base = d.base := by
  unfold instantiate at h
  split at h
  next => cases h
  next d found =>
    dsimp only at h
    split at h
    · cases h
      exact ⟨d, found, rfl, rfl⟩
    · cases h

/-- Before any run a name is not in the table, and stands for the first class of the program that
has it. After a run the table has the last one, whatever has been run before and however the run
has ended, unless the run has been given too many arguments; a name that is not in the table
stands for the first class still. So a run changes what a name stands for exactly if it gets to its
table and the first and the last class with the name differ, and never if there is only one. -/
theorem class_lookups (p : Program) (m : Machine) (made : ofProgram (some p) true = .ok m)
    (m' : Machine) (ran : m.Ran m') (σ : Type) (c : Console σ) (console : σ)
    (tracer : Trace.Tracer) (parent rounds : Nat) (args : List Value) (name : Text) :
    let after := (m'.run c console tracer parent rounds args).machine
    m.class? name = p.firstNamed? name ∧
      after.class? name = (after.entered? name).or (p.firstNamed? name) ∧
      after.entered? name =
        (if args.length ≤ p.params.length then p.lastNamed? name else none) ∧
      after.class? name =
        (if args.length ≤ p.params.length then p.lastNamed? name else p.firstNamed? name) ∧
      (after.class? name = m.class? name ↔
        p.params.length < args.length ∨ p.lastNamed? name = p.firstNamed? name) ∧
      (p.classes.countP (Class.isNamed name) ≤ 1 → after.class? name = m.class? name) ∧
      ∀ inst, after.instantiate name = .ok inst →
        ∃ d, after.class? name = some d ∧ inst.className = d.name ∧ inst.base = d.base := by
  intro after
  obtain rfl := eq_of_ofProgram made
  have before : ({ program := p } : Machine).class? name = p.firstNamed? name := rfl
  have looked : after.class? name = (after.entered? name).or (p.firstNamed? name) := by
    have kept : after.program = p := ran.program
    rw [class?, kept]
    rfl
  have entered : after.entered? name =
      if args.length ≤ p.params.length then p.lastNamed? name else none := by
    have left := entered?_run m' c console tracer parent rounds args name
    rwa [ran.program] at left
  have behind : after.class? name =
      if args.length ≤ p.params.length then p.lastNamed? name else p.firstNamed? name := by
    rw [looked, entered]
    split
    · exact p.lastNamed?_or_firstNamed? name
    · rfl
  have agree : after.class? name = ({ program := p } : Machine).class? name ↔
      p.params.length < args.length ∨ p.lastNamed? name = p.firstNamed? name := by
    rw [behind, before]
    by_cases fits : args.length ≤ p.params.length
    · simp [fits, Nat.not_lt.2 fits]
    · simp [fits, Nat.not_le.1 fits]
  exact ⟨before, looked, entered, behind, agree,
    fun once => agree.2 (.inr (Program.lastNamed?_eq_firstNamed? once)),
    fun inst built => class?_of_instantiate built⟩

/-- A run that is refused for its argument, and then one that fails at its first statement. -/
theorem class_lookups_failed :
    let p : Program := {
      name := "u", body := [.print [.ident "x" 1] true 1]
      classes := [{ name := "Pane", base := .form }, { name := "Key", base := .pushButton }] }
    let m : Machine := { program := p }
    let refused := (m.run Console.down () {} 0 1 [.logical true]).machine
    let failed := (refused.run Console.down () {} 0 1 []).machine
    ofProgram (some p) true = .ok m ∧ refused.entered? "KEY" = none ∧
      (failed.entered? "KEY").isSome = true ∧ failed.class? "KEY" = m.class? "KEY" := by
  intro p m refused failed
  have once : p.classes.countP (Class.isNamed "KEY") ≤ 1 := by decide
  obtain ⟨-, -, -, -, -, same, -⟩ := class_lookups p m rfl refused (.run .fresh _ _ _ _ _ _) Unit
    Console.down () {} 0 1 [] "KEY"
  exact ⟨rfl, rfl, rfl, same once⟩

/-- A name that two classes have stands for the first one before a run and for the last one after
it. -/
theorem class_changed_by_run :
    let p : Program := {
      name := "u", classes := [{ name := "K", base := .form }, { name := "k", base := .grid }] }
    let m : Machine := { program := p }
    let after := (m.run Console.down () {} 0 1 []).machine
    ofProgram (some p) true = .ok m ∧ (m.class? "K").map (·.base) = some .form ∧
      (after.class? "K").map (·.base) = some .grid :=
  ⟨rfl, rfl, rfl⟩

end Machine

end PrgScript
