import PrgScript.Text.Quoted

/-!
# Bytes of written numbers and characters

Facts about the small texts that listings are made of: the decimal digits of a
number by recursion on the number, and the bytes of a single character. A
character below 128 is its own byte, and every byte of any other character is
at least 128; this is what keeps line feeds, quotes and blanks recognisable
inside arbitrary text.
-/

namespace PrgScript.Text

@[simp] theorem ofString_append (s t : String) : ofString (s ++ t) = ofString s ++ ofString t := by
  simp [ofString]

def IsDigit (b : UInt8) : Prop := 48 ≤ b ∧ b ≤ 57

instance (b : UInt8) : Decidable (IsDigit b) := inferInstanceAs (Decidable (_ ∧ _))

/-- What a number is written with: digits and points, and at least one of them. -/
def IsNumeral (t : Text) : Prop := t ≠ [] ∧ ∀ b ∈ t, IsDigit b ∨ b = 46

def digitByte (d : Nat) : UInt8 := UInt8.ofNat (48 + d)

theorem isDigit_digitByte {d : Nat} (small : d < 10) : IsDigit (digitByte d) := by
  decide +revert

theorem exists_digitByte {b : UInt8} (h : IsDigit b) : ∃ k < 10, b = digitByte k := by
  obtain ⟨low, high⟩ : 48 ≤ b.toNat ∧ b.toNat ≤ 57 := h
  refine ⟨b.toNat - 48, by omega, ?_⟩
  rw [digitByte, show 48 + (b.toNat - 48) = b.toNat by omega, UInt8.ofNat_toNat]

theorem ofNat_of_lt {n : Nat} (small : n < 10) : ofNat n = [digitByte n] := by
  rw [ofNat, Nat.repr_of_lt small]
  decide +revert

theorem ofNat_of_ge {n : Nat} (large : 10 ≤ n) :
    ofNat n = ofNat (n / 10) ++ [digitByte (n % 10)] := by
  have last : ofString (String.singleton (Nat.digitChar (n % 10))) = [digitByte (n % 10)] := by
    have small : n % 10 < 10 := Nat.mod_lt _ (by decide)
    generalize n % 10 = d at small
    decide +revert
  rw [ofNat, Nat.repr_of_ge large, ofString_append, last]
  rfl

/-- Induction on the decimal digits of a number, the last one taken off. -/
theorem decimal_induction {motive : Nat → Prop} (small : ∀ n, n < 10 → motive n)
    (large : ∀ n, 10 ≤ n → motive (n / 10) → motive n) (n : Nat) : motive n := by
  induction n using Nat.strongRecOn with
  | ind n ih =>
      rcases Nat.lt_or_ge n 10 with h | h
      · exact small n h
      · exact large n h (ih _ (by omega))

theorem isDigit_of_mem_ofNat {b : UInt8} (n : Nat) (h : b ∈ ofNat n) : IsDigit b := by
  induction n using decimal_induction with
  | small n small =>
      rw [ofNat_of_lt small, List.mem_singleton] at h
      exact h ▸ isDigit_digitByte small
  | large n large ih =>
      rw [ofNat_of_ge large, List.mem_append, List.mem_singleton] at h
      rcases h with h | h
      · exact ih h
      · exact h ▸ isDigit_digitByte (Nat.mod_lt _ (by decide))

theorem ofNat_ne_nil (n : Nat) : ofNat n ≠ [] := by
  rcases Nat.lt_or_ge n 10 with h | h
  · simp [ofNat_of_lt h]
  · simp [ofNat_of_ge h]

theorem exists_of_mem_toDigits {base n : Nat} (large : 1 < base) {c : Char}
    (h : c ∈ Nat.toDigits base n) : ∃ d < base, Nat.digitChar d = c := by
  induction n using Nat.strongRecOn with
  | ind n ih =>
      rw [Nat.toDigits_eq_if large] at h
      split at h
      next small => exact ⟨n, small, (List.mem_singleton.1 h).symm⟩
      next big =>
        rcases List.mem_append.1 h with h | h
        · exact ih _ (Nat.div_lt_self (by omega) large) h
        · exact ⟨n % base, Nat.mod_lt _ (by omega), (List.mem_singleton.1 h).symm⟩

/-! ### The bytes of a character -/

theorem ofChar_of_lt {c : Char} (small : c.toNat < 128) : ofChar c = [UInt8.ofNat c.toNat] :=
  if_pos (Nat.le_of_lt_succ small)

theorem ofChar_digit {k : Nat} (small : k < 10) : ofChar (Char.ofNat (48 + k)) = [digitByte k] := by
  decide +revert

theorem le_ofNat {n : Nat} (low : 128 ≤ n) (high : n < 256) : 128 ≤ UInt8.ofNat n := by
  rw [UInt8.le_iff_toNat_le, UInt8.toNat_ofNat_of_lt' high]
  exact low

theorem le_of_mem_ofChar {c : Char} (large : 128 ≤ c.toNat) {b : UInt8} (h : b ∈ ofChar c) :
    128 ≤ b := by
  have : ¬c.val.toNat ≤ 127 := Nat.not_le.2 large
  simp only [ofChar, String.utf8EncodeChar, this, if_false] at h
  split at h
  · simp only [List.mem_cons, List.not_mem_nil, or_false] at h
    rcases h with rfl | rfl <;> exact le_ofNat (by omega) (by omega)
  · split at h
    · simp only [List.mem_cons, List.not_mem_nil, or_false] at h
      rcases h with rfl | rfl | rfl <;> exact le_ofNat (by omega) (by omega)
    · simp only [List.mem_cons, List.not_mem_nil, or_false] at h
      rcases h with rfl | rfl | rfl | rfl <;> exact le_ofNat (by omega) (by omega)

/-- A character whose bytes hold a byte below 128 is that byte. -/
theorem toNat_of_mem_ofChar {c : Char} {b : UInt8} (h : b ∈ ofChar c) (small : b < 128) :
    c.toNat = b.toNat := by
  rcases Nat.lt_or_ge c.toNat 128 with low | high
  · rw [ofChar_of_lt low, List.mem_singleton] at h
    rw [h, UInt8.toNat_ofNat_of_lt' (Nat.lt_trans low (by decide))]
  · exact absurd small (UInt8.not_lt.2 (le_of_mem_ofChar high h))

end PrgScript.Text
