import PrgScript.Proofs.Step

/-!
# Two runs side by side

Some properties compare two runs: of one step from two states, or of two steps
that differ only in what does not matter. `Twin` says that two steps, started
from related states, both end with related values or both fail with related
errors, and leave related states either way. What counts as related is chosen by
the user: one relation for the states, one for the errors, one for the values.

The rules follow the operations of a `do` block, so a proof about two runs of a
block reads like the block.
-/

namespace PrgScript.Step

variable {ε σ α β : Type}

/-- Two results that are both values, related by `R`, or both errors, related by `E`. -/
inductive Ends (E : ε → ε → Prop) (R : α → α → Prop) : Except ε α → Except ε α → Prop
  | ok {a b : α} (related : R a b) : Ends E R (.ok a) (.ok b)
  | error {e f : ε} (related : E e f) : Ends E R (.error e) (.error f)

/-- From states related by `S` two steps end alike, and leave states related by `S`. -/
def Twin (S : σ → σ → Prop) (E : ε → ε → Prop) (R : α → α → Prop) (x y : Step ε σ α) : Prop :=
  ∀ s t, S s t → Ends E R (outcome x s).1 (outcome y t).1 ∧ S (outcome x s).2 (outcome y t).2

namespace Ends

variable {E : ε → ε → Prop} {R R' : α → α → Prop}

theorem mono {r s : Except ε α} (weaker : ∀ a b, R a b → R' a b) (h : Ends E R r s) :
    Ends E R' r s := by
  cases h with
  | ok related => exact .ok (weaker _ _ related)
  | error related => exact .error related

theorem symm {r s : Except ε α} (flip : ∀ a b, R a b → R b a) (flipError : ∀ e f, E e f → E f e)
    (h : Ends E R r s) : Ends E R s r := by
  cases h with
  | ok related => exact .ok (flip _ _ related)
  | error related => exact .error (flipError _ _ related)

theorem trans {r s t : Except ε α} (chain : ∀ a b c, R a b → R b c → R a c)
    (chainError : ∀ e f g, E e f → E f g → E e g) (first : Ends E R r s) (second : Ends E R s t) :
    Ends E R r t := by
  cases first with
  | ok related =>
      cases second with
      | ok related' => exact .ok (chain _ _ _ related related')
  | error related =>
      cases second with
      | error related' => exact .error (chainError _ _ _ related related')

end Ends

namespace Twin

variable {S : σ → σ → Prop} {E : ε → ε → Prop} {R R' : α → α → Prop} {Q : β → β → Prop}
  {x y : Step ε σ α}

theorem pure {a b : α} (related : R a b) :
    Twin S E R (Pure.pure a : Step ε σ α) (Pure.pure b) := by
  intro s t same
  exact ⟨.ok related, same⟩

theorem throw {e f : ε} (related : E e f) :
    Twin S E R (MonadExcept.throw e : Step ε σ α) (MonadExcept.throw f) := by
  intro s t same
  exact ⟨.error related, same⟩

theorem bind {f g : α → Step ε σ β} (first : Twin S E R x y)
    (rest : ∀ a b, R a b → Twin S E Q (f a) (g b)) : Twin S E Q (x >>= f) (y >>= g) := by
  intro s t same
  obtain ⟨ends, after⟩ := first s t same
  rw [outcome_bind, outcome_bind]
  cases endX : outcome x s with
  | mk r s' =>
      cases endY : outcome y t with
      | mk r' t' =>
          rw [endX, endY] at ends after
          cases ends with
          | ok related => exact rest _ _ related s' t' after
          | error related => exact ⟨.error related, after⟩

theorem map {f g : α → β} (image : ∀ a b, R a b → Q (f a) (g b)) (h : Twin S E R x y) :
    Twin S E Q (f <$> x) (g <$> y) := by
  rw [← bind_pure_comp, ← bind_pure_comp]
  exact h.bind fun a b related => .pure (image a b related)

theorem discard (h : Twin S E R x y) : Twin S E Eq (Functor.discard x) (Functor.discard y) :=
  h.map fun _ _ _ => rfl

/-- Two choices by conditions that agree. -/
theorem ite {p q : Prop} [Decidable p] [Decidable q] {x y x' y' : Step ε σ α} (agree : p ↔ q)
    (yes : Twin S E R x x') (no : Twin S E R y y') :
    Twin S E R (if p then x else y) (if q then x' else y') := by
  by_cases holds : p
  · rw [if_pos holds, if_pos (agree.1 holds)]
    exact yes
  · rw [if_neg holds, if_neg (mt agree.2 holds)]
    exact no

/-- Two first steps that are taken or left out, by conditions that agree. -/
theorem optional {p q : Prop} [Decidable p] [Decidable q] {x y : Step ε σ Unit}
    {f g : Unit → Step ε σ α} (agree : p ↔ q) (first : Twin S E Eq x y)
    (rest : Twin S E R (f ()) (g ())) :
    Twin S E R (if p then x >>= f else f ()) (if q then y >>= g else g ()) :=
  .ite agree (first.bind fun _ _ _ => rest) rest

/-- Two checks that fail or go on, by conditions that agree. -/
theorem guard {p q : Prop} [Decidable p] [Decidable q] {e e' : ε} {f g : Unit → Step ε σ α}
    (agree : p ↔ q) (failed : E e e') (rest : Twin S E R (f ()) (g ())) :
    Twin S E R (if p then MonadExcept.throw e >>= f else f ())
      (if q then MonadExcept.throw e' >>= g else g ()) :=
  .optional agree (.throw failed) rest

theorem get : Twin S E S (MonadState.get : Step ε σ σ) MonadState.get := by
  intro s t same
  exact ⟨.ok same, same⟩

theorem set {s' t' : σ} (related : S s' t') :
    Twin S E Eq (MonadStateOf.set s' : Step ε σ Unit) (MonadStateOf.set t') := by
  intro s t _
  exact ⟨.ok rfl, related⟩

theorem modifyState {f g : σ → σ} (image : ∀ s t, S s t → S (f s) (g t)) :
    Twin S E Eq (modify f : Step ε σ Unit) (modify g) := by
  intro s t same
  exact ⟨.ok rfl, image s t same⟩

/-- The runs of two steps may be compared with the run of a third one in between. -/
theorem trans {x y z : Step ε σ α} (refl : ∀ s, S s s) (chainState : ∀ s t u, S s t → S t u → S s u)
    (chainError : ∀ e f g, E e f → E f g → E e g) (chain : ∀ a b c, R a b → R b c → R a c)
    (first : Twin S E R x y) (second : Twin S E R y z) : Twin S E R x z := by
  intro s t same
  obtain ⟨ends, after⟩ := first s s (refl s)
  obtain ⟨ends', after'⟩ := second s t same
  exact ⟨ends.trans chain chainError ends', chainState _ _ _ after after'⟩

theorem symm (flipState : ∀ s t, S s t → S t s) (flipError : ∀ e f, E e f → E f e)
    (flip : ∀ a b, R a b → R b a) (h : Twin S E R x y) : Twin S E R y x := by
  intro s t same
  obtain ⟨ends, after⟩ := h t s (flipState s t same)
  exact ⟨ends.symm flip flipError, flipState _ _ after⟩

end Twin

end PrgScript.Step
