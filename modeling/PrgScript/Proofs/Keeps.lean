import PrgScript.Proofs.Step

/-!
# What steps keep

A step that may be refused keeps a property of its state if the property holds after it
whenever it held before, however the step has ended. `Keeps` says this together with what
is known of the value or of the error at the end. The rules follow the operations that
steps are put together from; what is known of a value is at hand for the steps behind it.
-/

namespace PrgScript.Step

variable {ε σ α β : Type}

/-- A step keeps `I`, and ends with a value in `R` or an error in `F`. -/
def Keeps (I : σ → Prop) (F : ε → Prop) (R : α → Prop) (x : Step ε σ α) : Prop :=
  ∀ s, I s → I (outcome x s).2 ∧
    (∀ a, (outcome x s).1 = .ok a → R a) ∧ ∀ e, (outcome x s).1 = .error e → F e

namespace Keeps

variable {I : σ → Prop} {F : ε → Prop} {R : α → Prop} {Q : β → Prop} {x y : Step ε σ α}

/-- A step that always ends well. -/
theorem of_ok (h : ∀ s, I s → ∃ a s', outcome x s = (.ok a, s') ∧ I s' ∧ R a) : Keeps I F R x := by
  intro s holds
  obtain ⟨a, s', ended, kept, value⟩ := h s holds
  rw [ended]
  refine ⟨kept, fun a' same => ?_, fun e same => by cases same⟩
  cases same
  exact value

theorem pure {a : α} (value : R a) : Keeps I F R (Pure.pure a : Step ε σ α) :=
  .of_ok fun s holds => ⟨a, s, rfl, holds, value⟩

theorem throw {e : ε} (error : F e) : Keeps I F R (MonadExcept.throw e : Step ε σ α) := by
  refine fun s holds => ⟨holds, (fun a same => by cases same), fun e' same => ?_⟩
  cases same
  exact error

theorem bind {f : α → Step ε σ β} (first : Keeps I F R x) (rest : ∀ a, R a → Keeps I F Q (f a)) :
    Keeps I F Q (x >>= f) := by
  intro s holds
  obtain ⟨kept, values, errors⟩ := first s holds
  rw [outcome_bind]
  cases ended : outcome x s with
  | mk result s' =>
      rw [ended] at kept values errors
      cases result with
      | ok a => exact rest a (values a rfl) s' kept
      | error e =>
          refine ⟨kept, (fun a same => by cases same), fun e' same => ?_⟩
          cases same
          exact errors e rfl

theorem map (f : α → β) (h : Keeps I F R x) (values : ∀ a, R a → Q (f a)) :
    Keeps I F Q (f <$> x) := by
  rw [← bind_pure_comp]
  exact h.bind fun a value => .pure (values a value)

theorem discard (h : Keeps I F R x) : Keeps I F (fun _ => True) (Functor.discard x) :=
  h.map _ fun _ _ => trivial

theorem ite {p : Prop} [Decidable p] (yes : Keeps I F R x) (no : Keeps I F R y) :
    Keeps I F R (if p then x else y) := by
  split
  · exact yes
  · exact no

/-- A step before another one that is made only in some cases. -/
theorem optional {p : Prop} [Decidable p] {y : Step ε σ β} (first : Keeps I F R x)
    (rest : Keeps I F Q y) : Keeps I F Q (if p then x >>= fun _ => y else y) :=
  ite (first.bind fun _ _ => rest) rest

theorem get : Keeps I F I (MonadState.get : Step ε σ σ) :=
  .of_ok fun s holds => ⟨s, s, rfl, holds, holds⟩

theorem modifyState {f : σ → σ} (h : ∀ s, I s → I (f s)) :
    Keeps I F (fun _ => True) (modify f : Step ε σ Unit) :=
  .of_ok fun s holds => ⟨(), f s, rfl, h s holds, trivial⟩

end Keeps

end PrgScript.Step
