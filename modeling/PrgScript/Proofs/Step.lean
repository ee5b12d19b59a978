import PrgScript.Text.Basic

/-!
# Running steps that may be refused

Builders, line readers and the compiler are steps of one kind: they change a
state and end with a value or an error, and the state they have reached stays
either way. `outcome` names both. The equations below run a step one operation
at a time, so a proof about a `do` block follows the block and never unfolds
the monad.

`outcome_bind_eq_ok` is the inversion used throughout: a sequence ends well
exactly when its first part does and the rest ends well from there.
-/

namespace PrgScript

/-- A step that may be refused with an error, and leaves a state either way. -/
abbrev Step (ε σ : Type) := ExceptT ε (StateM σ)

namespace Step

variable {ε σ α β : Type}

/-- How a step ends from a state, and the state it leaves. -/
def outcome (x : Step ε σ α) (s : σ) : Except ε α × σ := x.run.run s

theorem outcome_bind (x : Step ε σ α) (f : α → Step ε σ β) (s : σ) :
    outcome (x >>= f) s =
      match outcome x s with
      | (.ok a, s') => outcome (f a) s'
      | (.error e, s') => (.error e, s') := by
  simp only [outcome, ExceptT.run_bind, StateT.run_bind]
  generalize StateT.run (ExceptT.run x) s = ended
  obtain ⟨_ | _, _⟩ := ended <;> rfl

variable {x : Step ε σ α} {f : α → Step ε σ β} {s s' s'' : σ} {a : α} {b : β} {e : ε}

/-- The rest of a sequence starts where its first part has ended well. -/
theorem outcome_bind_of_ok (h : outcome x s = (.ok a, s')) :
    outcome (x >>= f) s = outcome (f a) s' := by
  rw [outcome_bind, h]

theorem outcome_bind_of_error (h : outcome x s = (.error e, s')) :
    outcome (x >>= f) s = (.error e, s') := by
  rw [outcome_bind, h]

theorem outcome_bind_eq_ok :
    outcome (x >>= f) s = (.ok b, s'') ↔
      ∃ a s', outcome x s = (.ok a, s') ∧ outcome (f a) s' = (.ok b, s'') := by
  rw [outcome_bind]
  obtain ⟨_ | a, s'⟩ := outcome x s
  · simp
  · constructor
    · intro h
      exact ⟨a, s', rfl, h⟩
    · rintro ⟨_, _, hx, h⟩
      cases hx
      exact h

/-- A sequence fails in its first part, or in the rest after that has ended well. -/
theorem outcome_bind_eq_error :
    outcome (x >>= f) s = (.error e, s'') ↔
      outcome x s = (.error e, s'') ∨
        ∃ a s', outcome x s = (.ok a, s') ∧ outcome (f a) s' = (.error e, s'') := by
  rw [outcome_bind]
  obtain ⟨_ | a, s'⟩ := outcome x s
  · simp
  · constructor
    · intro h
      exact .inr ⟨a, s', rfl, h⟩
    · rintro (hx | ⟨_, _, hx, h⟩)
      · cases hx
      · cases hx
        exact h

@[simp] theorem outcome_pure (a : α) (s : σ) :
    outcome (pure a : Step ε σ α) s = (.ok a, s) := rfl

@[simp] theorem outcome_throw (e : ε) (s : σ) :
    outcome (throw e : Step ε σ α) s = (.error e, s) := rfl

@[simp] theorem outcome_get (s : σ) : outcome (get : Step ε σ σ) s = (.ok s, s) := rfl

@[simp] theorem outcome_set (s s' : σ) :
    outcome (set s' : Step ε σ Unit) s = (.ok (), s') := rfl

@[simp] theorem outcome_modify (f : σ → σ) (s : σ) :
    outcome (modify f : Step ε σ Unit) s = (.ok (), f s) := rfl

theorem outcome_map (f : α → β) (x : Step ε σ α) (s : σ) :
    outcome (f <$> x) s =
      match outcome x s with
      | (.ok a, s') => (.ok (f a), s')
      | (.error e, s') => (.error e, s') := by
  rw [← bind_pure_comp, outcome_bind]
  rfl

theorem outcome_map_of_ok (f : α → β) (h : outcome x s = (.ok a, s')) :
    outcome (f <$> x) s = (.ok (f a), s') := by
  rw [outcome_map, h]

theorem outcome_map_of_error (f : α → β) (h : outcome x s = (.error e, s')) :
    outcome (f <$> x) s = (.error e, s') := by
  rw [outcome_map, h]

theorem outcome_map_eq_ok {f : α → β} :
    outcome (f <$> x) s = (.ok b, s') ↔ ∃ a, outcome x s = (.ok a, s') ∧ f a = b := by
  rw [outcome_map]
  obtain ⟨_ | a, s''⟩ := outcome x s
  · simp
  · simp only [Prod.mk.injEq, Except.ok.injEq]
    grind

theorem outcome_discard_of_ok (h : outcome x s = (.ok a, s')) :
    outcome (discard x) s = (.ok (), s') :=
  outcome_map_of_ok (fun _ => ()) h

theorem outcome_discard_of_error (h : outcome x s = (.error e, s')) :
    outcome (discard x) s = (.error e, s') :=
  outcome_map_of_error (fun _ => ()) h

end Step

end PrgScript
