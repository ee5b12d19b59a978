import PrgScript.Machine.Basic

/-!
# Statements that are never reached

A return leaves the script at once: no statement behind it in the same sequence is
executed, and every block around it hands the signal on. `Stmt.Cut` relates a sequence
of statements to what is left of it when those behind a return are deleted, in the
sequence itself or in one that a statement holds at any depth. The two sequences are the
same step of an execution. For the sequence with the return this is an equation on lists,
and each construct around it is a congruence, so the induction follows the place of the
cut from the inside out.
-/

namespace PrgScript

namespace Stmt

/-- The statements behind a return are deleted, at the top or in one of the bodies inside. -/
inductive Cut : List Stmt → List Stmt → Prop
  | here (before : List Stmt) (line : Nat) (behind : List Stmt) :
      Cut (before ++ .finish line :: behind) (before ++ [.finish line])
  | thenBody {body body' : List Stmt} (cut : Cut body body') (before : List Stmt)
      (condition : Expr) (elseBody : List Stmt) (line : Nat) (behind : List Stmt) :
      Cut (before ++ .branch condition body elseBody line :: behind)
        (before ++ .branch condition body' elseBody line :: behind)
  | elseBody {body body' : List Stmt} (cut : Cut body body') (before : List Stmt)
      (condition : Expr) (thenBody : List Stmt) (line : Nat) (behind : List Stmt) :
      Cut (before ++ .branch condition thenBody body line :: behind)
        (before ++ .branch condition thenBody body' line :: behind)
  | forBody {body body' : List Stmt} (cut : Cut body body') (before : List Stmt)
      (counter : Text) (start limit : Expr) (step : Option Expr) (line : Nat)
      (behind : List Stmt) :
      Cut (before ++ .forTo counter start limit step body line :: behind)
        (before ++ .forTo counter start limit step body' line :: behind)
  | whileBody {body body' : List Stmt} (cut : Cut body body') (before : List Stmt)
      (condition : Expr) (line : Nat) (behind : List Stmt) :
      Cut (before ++ .whileDo condition body line :: behind)
        (before ++ .whileDo condition body' line :: behind)

/-! ### The check -/

theorem blockFault?_append (before behind : List Stmt) :
    blockFault? (before ++ behind) = (blockFault? before).or (blockFault? behind) := by
  induction before with
  | nil => rfl
  | cons s before ih => simp only [List.cons_append, blockFault?, ih, Option.or_assoc]

/-- Sequences with the same surroundings pass the check if the statement in between does. -/
theorem blockFault?_replace {s s' : Stmt} (passes : s.fault? = none → s'.fault? = none)
    {before behind : List Stmt} (checked : blockFault? (before ++ s :: behind) = none) :
    blockFault? (before ++ s' :: behind) = none := by
  simp only [blockFault?_append, blockFault?, Option.or_eq_none_iff] at checked ⊢
  exact ⟨checked.1, passes checked.2.1, checked.2.2⟩

theorem Cut.blockFault? {ss ss' : List Stmt} (cut : Cut ss ss')
    (checked : Stmt.blockFault? ss = none) : Stmt.blockFault? ss' = none := by
  induction cut with
  | here before line behind =>
      simp only [blockFault?_append, Stmt.blockFault?, Option.or_eq_none_iff] at checked ⊢
      exact ⟨checked.1, checked.2.1, trivial⟩
  | thenBody _ _ _ _ _ _ ih =>
      refine blockFault?_replace (fun whole => ?_) checked
      simp only [fault?, Option.or_eq_none_iff] at whole ⊢
      exact ⟨whole.1, ih whole.2.1, whole.2.2⟩
  | elseBody _ _ _ _ _ _ ih =>
      refine blockFault?_replace (fun whole => ?_) checked
      simp only [fault?, Option.or_eq_none_iff] at whole ⊢
      exact ⟨whole.1, whole.2.1, ih whole.2.2⟩
  | forBody _ _ _ _ _ _ _ _ ih | whileBody _ _ _ _ _ ih =>
      refine blockFault?_replace (fun whole => ?_) checked
      simp only [fault?, Option.or_eq_none_iff] at whole ⊢
      exact ⟨whole.1, ih whole.2⟩

end Stmt

/-! ### Executions -/

namespace Exec

variable {σ : Type} {c : Console σ} {rounds : Nat}

/-- A sequence behind statements may be replaced by one that does the same. -/
theorem block_append_congr {ss ss' : List Stmt} (same : block c rounds ss = block c rounds ss')
    (before : List Stmt) : block c rounds (before ++ ss) = block c rounds (before ++ ss') := by
  induction before with
  | nil => exact same
  | cons s before ih => simp only [List.cons_append, block, ih]

/-- A statement between others may be replaced by one that does the same. -/
theorem block_replace {s s' : Stmt} (same : stmt c rounds s = stmt c rounds s')
    (before behind : List Stmt) :
    block c rounds (before ++ s :: behind) = block c rounds (before ++ s' :: behind) := by
  refine block_append_congr ?_ before
  simp only [block, same]

theorem block_finish (line : Nat) (behind : List Stmt) :
    block c rounds (.finish line :: behind) = block c rounds [.finish line] := by
  simp only [block, stmt, bind_assoc, pure_bind]

/-- What is deleted is never executed. -/
theorem block_cut {ss ss' : List Stmt} (cut : Stmt.Cut ss ss') :
    block c rounds ss = block c rounds ss' := by
  induction cut with
  | here before line behind => exact block_append_congr (block_finish line behind) before
  | thenBody _ before condition elseBody line behind ih
  | elseBody _ before condition thenBody line behind ih
  | forBody _ before counter start limit step line behind ih
  | whileBody _ before condition line behind ih =>
      refine block_replace ?_ before behind
      simp only [stmt, ih]
      rfl

theorem program_cut (c : Console σ) (rounds : Nat) {p : Program} {body : List Stmt}
    (cut : Stmt.Cut p.body body) (args : List Value) :
    program c rounds { p with body } args = program c rounds p args := by
  simp only [program, block_cut cut]

end Exec

/-- Deleting what stands behind a return in a checked program, at any depth, leaves a checked
program that runs in the same way: on every console, with all arguments and within every bound it
makes the same calls, counts the same statements, leaves the same variables and trace, and ends
alike. -/
theorem run_cut {m : Machine} (checked : m.program.fault? = none) {body : List Stmt}
    (cut : Stmt.Cut m.program.body body) :
    let p : Program := { m.program with body }
    p.fault? = none ∧
      ∀ {σ : Type} (c : Console σ) (console : σ) (tracer : Trace.Tracer) (parent rounds : Nat)
        (args : List Value),
        let ran := m.run c console tracer parent rounds args
        let ran' := ({ m with program := p } : Machine).run c console tracer parent rounds args
        ran'.console = ran.console ∧ ran'.machine.vars = ran.machine.vars ∧
          ran'.machine.steps = ran.machine.steps ∧ ran'.result = ran.result ∧
          ran'.tracer = ran.tracer := by
  intro p
  constructor
  · simp only [Program.fault?, Option.or_eq_none_iff] at checked ⊢
    exact ⟨cut.blockFault? checked.1, checked.2⟩
  · intro σ c console tracer parent rounds args
    have same := Exec.program_cut c rounds cut args
    simp only [Machine.run, p, same]
    exact ⟨rfl, rfl, rfl, rfl, rfl⟩

/-- A statement behind a return in a conditional of a loop, and a run that counts three statements
with it and without it. -/
theorem run_cut_within_loop :
    let test : Expr := .logical true 1
    let m : Machine := { program := { name := "t", body :=
      [.whileDo test [.branch test [.finish 3, .print [] true 4] [] 2] 1, .print [] true 6] } }
    let body : List Stmt := [.whileDo test [.branch test [.finish 3] [] 2] 1, .print [] true 6]
    let p : Program := { m.program with body }
    m.program.fault? = none ∧ Stmt.Cut m.program.body body ∧ p.fault? = none ∧
      (m.run Console.down () {} 0 1 []).machine.steps = 3 ∧
      (({ m with program := p } : Machine).run Console.down () {} 0 1 []).machine.steps = 3 := by
  intro test m body p
  have checked : m.program.fault? = none := rfl
  have cut : Stmt.Cut m.program.body body :=
    .whileBody (.thenBody (.here [] 3 [.print [] true 4]) [] test [] 2 []) [] test 1
      [.print [] true 6]
  have counted : (m.run Console.down () {} 0 1 []).machine.steps = 3 := rfl
  obtain ⟨checked', alike⟩ := run_cut checked cut
  exact ⟨checked, cut, checked', counted, (alike Console.down () {} 0 1 []).2.2.1.trans counted⟩

end PrgScript
