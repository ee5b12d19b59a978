import PrgScript.Proofs.FaultLines

/-!
# The bound on the rounds of loops

A run is given a bound on the rounds of each loop, and stops where a loop has used it up.
`Exec.Approximates x y` says that this is all the bound does: `y` ends as `x` does, unless `x` has
used up its bound. Sequences inherit it, so each construct has it if its parts have. Loops are
where the bounds differ; there the induction is on the smaller one.

`Machine.run_of_le` is the result: the bounds that are large enough all give the same run, which
is the run of the script.
-/

namespace PrgScript

open Step

namespace Exec

variable {σ α β : Type}

/-- A step ends as another one does, unless it uses up a bound that the other has more of. -/
def Approximates (x y : Exec σ α) : Prop :=
  ∀ s, (outcome x s).1 ≠ .error .outOfFuel → outcome y s = outcome x s

namespace Approximates

theorem refl (x : Exec σ α) : Approximates x x := fun _ _ => rfl

theorem bind {x y : Exec σ α} {f g : α → Exec σ β} (first : Approximates x y)
    (rest : ∀ a, Approximates (f a) (g a)) : Approximates (x >>= f) (y >>= g) := by
  intro s ends
  cases ended : outcome x s with
  | mk result s' =>
      cases result with
      | ok a =>
          have same := first s (by simp [ended])
          rw [outcome_bind_of_ok ended] at ends ⊢
          rw [outcome_bind_of_ok (same.trans ended)]
          exact rest a s' ends
      | error stop =>
          rw [outcome_bind_of_error ended] at ends ⊢
          have same := first s (by simpa [ended] using ends)
          rw [outcome_bind_of_error (same.trans ended)]

theorem outOfFuel (y : Exec σ α) : Approximates (throw .outOfFuel) y :=
  fun _ ends => absurd rfl ends

/-! ### Loops -/

variable {body body' : Exec σ Flow} {rounds more : Nat}

theorem whileLoop (inner : Approximates body body') (test : Exec σ Bool) (line : Nat)
    (le : rounds ≤ more) :
    Approximates (Exec.whileLoop test body line rounds) (Exec.whileLoop test body' line more) := by
  induction rounds generalizing more with
  | zero => exact outOfFuel _
  | succ rounds ih =>
      obtain ⟨more, rfl⟩ := Nat.exists_eq_add_one_of_ne_zero (Nat.ne_zero_of_lt le)
      refine (refl test).bind fun holds => ?_
      cases holds with
      | false => exact refl _
      | true =>
          refine inner.bind fun flow => ?_
          cases flow with
          | leave => exact refl _
          | next => exact (refl _).bind fun _ => ih (Nat.le_of_succ_le_succ le)

theorem forLoop (inner : Approximates body body') (counter : Text) (limit step : Float) (line : Nat)
    (le : rounds ≤ more) :
    Approximates (Exec.forLoop counter limit step body line rounds)
      (Exec.forLoop counter limit step body' line more) := by
  induction rounds generalizing more with
  | zero => exact outOfFuel _
  | succ rounds ih =>
      obtain ⟨more, rfl⟩ := Nat.exists_eq_add_one_of_ne_zero (Nat.ne_zero_of_lt le)
      refine (refl (counterValue counter)).bind fun current => ?_
      split
      · exact refl _
      · refine inner.bind fun flow => ?_
        cases flow with
        | leave => exact refl _
        | next =>
            refine (refl (setLine line)).bind fun _ => (refl _).bind fun _ => ?_
            exact (refl _).bind fun _ => ih (Nat.le_of_succ_le_succ le)

theorem countLoop (inner : Approximates body body') (counter : Text) (start limit : Expr)
    (step : Option Expr) (line : Nat) (le : rounds ≤ more) :
    Approximates (Exec.countLoop counter start limit step body line rounds)
      (Exec.countLoop counter start limit step body' line more) := by
  rw [Exec.countLoop_eq, Exec.countLoop_eq]
  refine (refl (number .forStart start)).bind fun first => ?_
  refine (refl (number .forLimit limit)).bind fun last => ?_
  refine (refl (stepValue counter step)).bind fun by_ => ?_
  exact (refl _).bind fun _ => inner.forLoop counter last by_ line le

/-! ### Statements -/

theorem stmt (c : Console σ) (le : rounds ≤ more) {s : Stmt}
    (inner : ∀ body ∈ s.bodies, Approximates (Exec.block c rounds body) (Exec.block c more body)) :
    Approximates (Exec.stmt c rounds s) (Exec.stmt c more s) := by
  cases s with
  | branch e thenBody elseBody line =>
      refine (refl (enter _)).bind fun _ => (refl (condition .ifWord e)).bind fun holds => ?_
      split
      · exact inner thenBody (by simp [Stmt.bodies])
      · exact inner elseBody (by simp [Stmt.bodies])
  | forTo counter start limit step body line =>
      have held := inner body (by simp [Stmt.bodies])
      exact (refl (enter _)).bind fun _ => held.countLoop counter start limit step line le
  | whileDo e body line =>
      have held := inner body (by simp [Stmt.bodies])
      exact (refl (enter _)).bind fun _ => held.whileLoop (condition .doWhile e) line le
  | _ => exact refl _

theorem block (c : Console σ) (le : rounds ≤ more) (ss : List Stmt) :
    Approximates (Exec.block c rounds ss) (Exec.block c more ss) := by
  induction ss using Stmt.block_induction with
  | nil => exact refl _
  | cons s inner ss ih =>
      refine (stmt c le inner).bind fun flow => ?_
      cases flow with
      | leave => exact refl _
      | next => exact ih

theorem program (c : Console σ) (le : rounds ≤ more) (p : Program) (args : List Value) :
    Approximates (Exec.program c rounds p args) (Exec.program c more p args) := by
  have body := (block c le p.body).bind fun _ => refl (pure ())
  have executes := (refl (bindParams p.params args)).bind fun _ =>
    (refl (announce p.classes)).bind fun _ => body
  unfold Exec.program
  split
  · exact (refl _).bind fun _ => executes
  · exact executes

end Approximates

end Exec

/-- A run that does not use up its bound is the same with every larger one. -/
theorem Machine.run_of_le {σ : Type} (m : Machine) (c : Console σ) (console : σ)
    (tracer : Trace.Tracer) (parent : Nat) {rounds more : Nat} (le : rounds ≤ more)
    (args : List Value)
    (ends : (m.run c console tracer parent rounds args).result ≠ .error .outOfFuel) :
    m.run c console tracer parent more args = m.run c console tracer parent rounds args := by
  have same : (Exec.program c more m.program args).run.run
      { tracer := (tracer.beginSpan .unit ("exec:" ++ m.program.name) parent).2, console } = _ :=
    Exec.Approximates.program c le m.program args _ ends
  simp only [Machine.run, same]
  rfl

end PrgScript
