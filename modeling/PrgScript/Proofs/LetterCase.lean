import PrgScript.Program.Color
import PrgScript.Proofs.Glyphs
import PrgScript.Text.Letter

/-!
# Letter case

Names are compared in several ways: in upper case, in lower case, by case folding.
All of them agree on texts that differ only in the case of ASCII letters. The
reason is that raising ASCII letters acts on the characters of a text one by one,
and that no comparison tells a raised letter from the letter itself.
-/

namespace PrgScript.Text

def upperByte (b : UInt8) : UInt8 := if 97 ≤ b ∧ b ≤ 122 then b - 32 else b

theorem upperASCII_eq_map (t : Text) : upperASCII t = t.map upperByte := rfl

theorem toNat_upperByte (b : UInt8) :
    (upperByte b).toNat = if 97 ≤ b.toNat ∧ b.toNat ≤ 122 then b.toNat - 32 else b.toNat := by
  have isLetter : (97 ≤ b ∧ b ≤ 122) ↔ (97 ≤ b.toNat ∧ b.toNat ≤ 122) := by
    rw [UInt8.le_iff_toNat_le, UInt8.le_iff_toNat_le]
    rfl
  unfold upperByte
  simp only [isLetter]
  split
  next letter =>
    have room : (32 : UInt8) ≤ b := UInt8.le_iff_toNat_le.2 (show 32 ≤ b.toNat by omega)
    exact UInt8.toNat_sub_of_le b 32 room
  next => rfl

theorem upperByte_high {b : UInt8} : 128 ≤ (upperByte b).toNat ↔ 128 ≤ b.toNat := by
  rw [toNat_upperByte]
  split <;> omega

theorem upperByte_of_high {b : UInt8} (high : 128 ≤ b.toNat) : upperByte b = b := by
  apply UInt8.toNat_inj.1
  rw [toNat_upperByte]
  split <;> omega

theorem upperByte_upperByte (b : UInt8) : upperByte (upperByte b) = upperByte b := by
  apply UInt8.toNat_inj.1
  rw [toNat_upperByte (upperByte b), toNat_upperByte b]
  grind

theorem map_upperByte_of_high {t : Text} (high : ∀ b ∈ t, 128 ≤ b.toNat) :
    t.map upperByte = t := by
  conv => rhs; rw [← List.map_id t]
  exact List.map_congr_left fun b mem => upperByte_of_high (high b mem)

theorem toUpper_of_high {c : Char} (high : 128 ≤ c.toNat) : c.toUpper = c := by
  unfold Char.toUpper
  split
  next letter =>
    have : c.toNat ≤ 122 := UInt32.le_iff_toNat_le.1 letter.2
    omega
  next => rfl

theorem ofNat_upper {n : Nat} (low : n < 128) :
    Char.ofNat (if 97 ≤ n ∧ n ≤ 122 then n - 32 else n) = (Char.ofNat n).toUpper := by
  revert n
  decide

theorem upperByte_acts : ActsAs upperByte Char.toUpper where
  high := upperByte_of_high
  low low := Nat.not_le.1 (mt upperByte_high.1 (Nat.not_le.2 low))
  char low := by rw [toNat_upperByte, ofNat_upper low]
  highChar := toUpper_of_high

theorem highFront_upperASCII (t : Text) : highFront (upperASCII t) = highFront t :=
  upperByte_acts.highFront_map t

/-- Raising ASCII letters acts on the characters of a text one by one. -/
theorem chars_upperASCII (t : Text) : chars (upperASCII t) = (chars t).map Char.toUpper :=
  upperByte_acts.chars_map t

/-- A question about a character that takes ASCII letters and raised ones alike. -/
theorem of_toUpper {α : Type} {f : Char → α}
    (blind : ∀ n, n < 128 → f (Char.ofNat n).toUpper = f (Char.ofNat n)) (c : Char) :
    f c.toUpper = f c := by
  by_cases high : 128 ≤ c.toNat
  · rw [toUpper_of_high high]
  · have := blind c.toNat (Nat.not_le.1 high)
    rwa [Char.ofNat_toNat] at this

theorem isLetter_toUpper (c : Char) : isLetter c.toUpper = isLetter c :=
  of_toUpper (by decide +kernel) c

theorem upperASCII_ofChar (c : Char) : upperASCII (ofChar c) = ofChar c.toUpper := by
  by_cases high : 128 ≤ c.toNat
  · rw [toUpper_of_high high, upperASCII_eq_map]
    exact map_upperByte_of_high fun b mem => le_of_mem_ofChar high mem
  · have low := Nat.not_le.1 high
    have bytes : ∀ n, n < 128 → (Char.ofNat n).toUpper.toNat < 128 ∧
        upperByte (UInt8.ofNat (Char.ofNat n).toNat) =
          UInt8.ofNat (Char.ofNat n).toUpper.toNat := by decide
    obtain ⟨low', raised⟩ := bytes c.toNat low
    rw [Char.ofNat_toNat] at low' raised
    rw [ofChar_of_lt low, ofChar_of_lt low', ← raised]
    rfl

theorem upperASCII_ofChars (cs : List Char) :
    upperASCII (ofChars cs) = ofChars (cs.map Char.toUpper) := by
  induction cs with
  | nil => rfl
  | cons c cs ih =>
      rw [List.map_cons, ofChars_cons, ofChars_cons, ← ih, ← upperASCII_ofChar]
      exact List.map_append

/-- A map of characters that does not tell ASCII letters from raised ones. -/
theorem map_chars_of_upperASCII {f : Char → Char}
    (blind : ∀ n, n < 128 → f (Char.ofNat n).toUpper = f (Char.ofNat n)) {s t : Text}
    (same : upperASCII s = upperASCII t) : (chars s).map f = (chars t).map f := by
  have whole (t : Text) : (chars (upperASCII t)).map f = (chars t).map f := by
    rw [chars_upperASCII, List.map_map]
    exact List.map_congr_left fun c _ => of_toUpper blind c
  rw [← whole s, ← whole t, same]

variable {s t : Text}

theorem upper_of_upperASCII (same : upperASCII s = upperASCII t) : upper s = upper t := by
  rw [upper, upper, map_chars_of_upperASCII (by decide) same]

theorem lower_of_upperASCII (same : upperASCII s = upperASCII t) : lower s = lower t := by
  rw [lower, lower, map_chars_of_upperASCII (by decide) same]

theorem sameFold_of_upperASCII {s' t' : Text} (same : upperASCII s = upperASCII t)
    (same' : upperASCII s' = upperASCII t') : sameFold s s' = sameFold t t' := by
  rw [sameFold, sameFold, map_chars_of_upperASCII (by decide) same,
    map_chars_of_upperASCII (by decide) same']

theorem ofName?_of_upperASCII (same : upperASCII s = upperASCII t) :
    Color.ofName? s = Color.ofName? t := by
  rw [Color.ofName?, Color.ofName?, upper_of_upperASCII same]

end PrgScript.Text
