import Mathlib
import PrgScript.Number.Binary64

/-!
# The number nearest to a fraction

A finite number is a mantissa times a power of two, and its bits hold the two side by side.
A finite number has the bits that it was made of, so a magnitude and its mantissa and exponent
determine each other.

The second part is about rounding a fraction. A value is `Near` a finite number if it lies no
further from it than half way to the next one, and `nearestBits_of_near` says that such a value
is rounded to that number. Below a power of two the numbers lie twice as close; there a value
may be rounded up to the power of two with the exponent of the numbers below it.
-/

namespace PrgScript.Number

/-! ### The bits of a number -/

open Float.Model (Format UnpackedFloat)

/-- A number that is finite has the bits that it was made of. -/
theorem toBits_ofBits {a : UInt64} (finite : a.toNat / 2 ^ 52 % 2 ^ 11 ≠ 0x7FF) :
    (Float.ofBits a).toBits = a := by
  have exponent : (@UnpackedFloat.unpackExponent Format.binary64 a.toBitVec).toNat =
      a.toNat / 2 ^ 52 % 2 ^ 11 := by
    simp [UnpackedFloat.unpackExponent, Nat.shiftRight_eq_div_pow]
  have number : ¬@UnpackedFloat.isNaNBits Format.binary64 a.toBitVec = true := by
    intro isNaN
    rw [(of_decide_eq_true isNaN).1] at exponent
    exact finite exponent.symm
  show UInt64.ofBitVec (UnpackedFloat.pack Format.binary64
    (UnpackedFloat.unpack Format.binary64 a.toBitVec)) = a
  rw [UnpackedFloat.pack_unpack, if_neg number]

/-- The bits of a number that is not negative. -/
theorem toBits_ofMagnitude {bits : Nat} (finite : bits < 0x7FF * 2 ^ 52) :
    (ofMagnitude false bits).toBits.toNat = bits := by
  have same : (UInt64.ofNat bits).toNat = bits := UInt64.toNat_ofNat_of_lt' (by
    show bits < 2 ^ 64
    omega)
  rw [ofMagnitude, if_neg (by decide), toBits_ofBits (by rw [same]; omega), same]

/-- What the bits of a finite number hold: a mantissa of 53 bits at most, and one of fewer bits
only with the least exponent. -/
structure IsFinite (mantissa : Nat) (exponent : Int) : Prop where
  small : mantissa < 2 ^ 53
  least : leastExponent ≤ exponent
  greatest : exponent ≤ greatestExponent
  normal : mantissa < 2 ^ 52 → exponent = leastExponent

/-- The bits of the number `mantissa * 2 ^ exponent`. -/
def magnitude (mantissa : Nat) (exponent : Int) : Nat :=
  if mantissa < 2 ^ 52 then mantissa
  else (exponent + 1075).toNat * 2 ^ 52 + (mantissa - 2 ^ 52)

theorem IsFinite.magnitude_lt {m : Nat} {e : Int} (finite : IsFinite m e) :
    magnitude m e < 0x7FF * 2 ^ 52 := by
  obtain ⟨small, least, greatest, normal⟩ := finite
  unfold magnitude
  unfold greatestExponent at greatest
  split
  · omega
  · omega

/-- A number is taken apart into the mantissa and the exponent that its bits were made of. -/
theorem IsFinite.parts_magnitude {m : Nat} {e : Int} (finite : IsFinite m e) :
    parts (ofMagnitude false (magnitude m e)) = .finite false m e := by
  have bound := finite.magnitude_lt
  obtain ⟨small, least, greatest, normal⟩ := finite
  have sign : (magnitude m e / 2 ^ 63 % 2 == 1) = false := by
    rw [Nat.div_eq_of_lt (by omega)]
    rfl
  have field : magnitude m e / 2 ^ 52 % 2 ^ 11 = magnitude m e / 2 ^ 52 :=
    Nat.mod_eq_of_lt (by omega)
  unfold parts
  simp only [toBits_ofMagnitude bound, sign, field]
  rw [if_neg (by omega)]
  unfold leastExponent at least
  by_cases subnormal : m < 2 ^ 52
  · rw [magnitude, if_pos subnormal, if_pos (by omega), Nat.mod_eq_of_lt subnormal,
      normal subnormal]
  · rw [magnitude, if_neg subnormal, if_neg (by omega)]
    congr 1
    · omega
    · omega

/-! ### Fractions and their orders of magnitude -/

/-- A power of `base` put into the numerator or the denominator of a fraction. -/
theorem scaled_value {base num den n d : Nat} {k : Int} (large : 0 < base)
    (scaled : (if k < 0 then (num, den * base ^ k.natAbs) else (num * base ^ k.natAbs, den)) =
      (n, d)) (pos : 0 < den) :
    0 < d ∧ (n : ℚ) / d = num / den * (base : ℚ) ^ k := by
  have cast : (0 : ℚ) < base := by exact_mod_cast large
  split at scaled
  next negative =>
    obtain ⟨rfl, rfl⟩ := Prod.mk.inj scaled
    obtain ⟨j, rfl⟩ : ∃ j : Nat, k = -j := ⟨k.natAbs, by omega⟩
    refine ⟨Nat.mul_pos pos (Nat.pow_pos large), ?_⟩
    rw [Int.natAbs_neg, Int.natAbs_natCast, zpow_neg, zpow_natCast]
    push_cast
    field_simp
  next nonneg =>
    obtain ⟨rfl, rfl⟩ := Prod.mk.inj scaled
    obtain ⟨j, rfl⟩ : ∃ j : Nat, k = j := ⟨k.natAbs, by omega⟩
    refine ⟨pos, ?_⟩
    rw [Int.natAbs_natCast, zpow_natCast]
    push_cast
    ring

theorem scaleTwo_value {num den n d : Nat} {k : Int} (scaled : scaleTwo num den k = (n, d))
    (pos : 0 < den) : 0 < d ∧ (n : ℚ) / d = num / den * 2 ^ k :=
  scaled_value (by decide) scaled pos

theorem scaleTen_value {num den n d : Nat} {k : Int} (scaled : scaleTen num den k = (n, d))
    (pos : 0 < den) : 0 < d ∧ (n : ℚ) / d = num / den * 10 ^ k :=
  scaled_value (by decide) scaled pos

theorem log2_bounds {n : Nat} (pos : 0 < n) :
    (2 : ℚ) ^ (n.log2 : Int) ≤ n ∧ (n : ℚ) < 2 ^ ((n.log2 : Int) + 1) := by
  have low : 2 ^ n.log2 ≤ n := Nat.log2_self_le (by omega)
  have high : n < 2 ^ (n.log2 + 1) := Nat.lt_log2_self
  constructor
  · exact_mod_cast low
  · exact_mod_cast high

theorem binaryOrder_bounds {num den : Nat} (num_pos : 0 < num) (den_pos : 0 < den) :
    (2 : ℚ) ^ binaryOrder num den ≤ num / den ∧
      (num : ℚ) / den < 2 ^ (binaryOrder num den + 1) := by
  have cast : (0 : ℚ) < den := by exact_mod_cast den_pos
  obtain ⟨numLow, numHigh⟩ := log2_bounds num_pos
  obtain ⟨denLow, denHigh⟩ := log2_bounds den_pos
  have below : (2 : ℚ) ^ ((num.log2 : Int) - den.log2 - 1) ≤ num / den := by
    rw [le_div_iff₀ cast]
    calc (2 : ℚ) ^ ((num.log2 : Int) - den.log2 - 1) * den
        ≤ 2 ^ ((num.log2 : Int) - den.log2 - 1) * 2 ^ ((den.log2 : Int) + 1) := by gcongr
      _ = 2 ^ (num.log2 : Int) := by
        rw [← zpow_add₀ (by norm_num)]
        congr 1
        omega
      _ ≤ num := numLow
  have above : (num : ℚ) / den < 2 ^ ((num.log2 : Int) - den.log2 + 1) := by
    rw [div_lt_iff₀ cast]
    calc (num : ℚ) < 2 ^ ((num.log2 : Int) + 1) := numHigh
      _ = 2 ^ ((num.log2 : Int) - den.log2 + 1) * 2 ^ (den.log2 : Int) := by
        rw [← zpow_add₀ (by norm_num)]
        congr 1
        omega
      _ ≤ 2 ^ ((num.log2 : Int) - den.log2 + 1) * den := by gcongr
  unfold binaryOrder
  dsimp only
  rcases scaled : scaleTwo num den (-((num.log2 : Int) - den.log2)) with ⟨n, d⟩
  obtain ⟨d_pos, same⟩ := scaleTwo_value scaled den_pos
  have d_cast : (0 : ℚ) < d := by exact_mod_cast d_pos
  generalize (num.log2 : Int) - den.log2 = guess at *
  have power : (0 : ℚ) < 2 ^ guess := by positivity
  rw [zpow_neg, ← div_eq_mul_inv] at same
  dsimp only
  split
  next le =>
    refine ⟨?_, above⟩
    have : (1 : ℚ) ≤ n / d := by
      rw [le_div_iff₀ d_cast]
      exact_mod_cast (by omega : 1 * d ≤ n)
    rwa [same, le_div_iff₀ power, one_mul] at this
  next lt =>
    refine ⟨below, ?_⟩
    have : (n : ℚ) / d < 1 := by
      rw [div_lt_iff₀ d_cast]
      exact_mod_cast (by omega : n < 1 * d)
    rwa [same, div_lt_iff₀ power, one_mul, show guess = guess - 1 + 1 by omega] at this

theorem binaryOrder_lt {num den : Nat} {k : Int} (num_pos : 0 < num) (den_pos : 0 < den)
    (high : (num : ℚ) / den < 2 ^ k) : binaryOrder num den < k :=
  (zpow_lt_zpow_iff_right₀ (by norm_num)).1
    ((binaryOrder_bounds num_pos den_pos).1.trans_lt high)

theorem le_binaryOrder {num den : Nat} {k : Int} (num_pos : 0 < num) (den_pos : 0 < den)
    (low : (2 : ℚ) ^ k ≤ num / den) : k ≤ binaryOrder num den :=
  Int.lt_add_one_iff.1 ((zpow_lt_zpow_iff_right₀ (by norm_num)).1
    (low.trans_lt (binaryOrder_bounds num_pos den_pos).2))

/-! ### Rounding -/

/-- A quotient is rounded down, or up by less than one. -/
theorem roundQuotient_bounds (num den : Nat) :
    num / den ≤ roundQuotient num den ∧ roundQuotient num den ≤ num / den + 1 := by
  unfold roundQuotient
  dsimp only
  split
  · omega
  · split
    · omega
    · omega

theorem roundQuotient_eq {num den m : Nat} (pos : 0 < den) (low : 2 * m * den ≤ 2 * num + den)
    (high : 2 * num ≤ 2 * m * den + den)
    (tie : 2 * m * den = 2 * num + den ∨ 2 * num = 2 * m * den + den → m % 2 = 0) :
    roundQuotient num den = m := by
  have split : den * (num / den) + num % den = num := Nat.div_add_mod num den
  have small : num % den < den := Nat.mod_lt num pos
  unfold roundQuotient
  dsimp only
  generalize num / den = w at *
  generalize num % den = r at *
  subst split
  have least : w ≤ m := by
    by_contra less
    have : (m + 1) * den ≤ w * den := Nat.mul_le_mul_right den (by omega)
    nlinarith
  have most : m ≤ w + 1 := by
    by_contra more
    have : (w + 2) * den ≤ m * den := Nat.mul_le_mul_right den (by omega)
    nlinarith
  obtain rfl | rfl : m = w ∨ m = w + 1 := by omega
  · have half : 2 * r ≤ den := by nlinarith
    have even : 2 * r = den → m % 2 = 0 := fun h => tie (.inr (by nlinarith))
    split
    · rfl
    · rw [if_neg (by omega), even (by omega), Nat.add_zero]
  · have half : den ≤ 2 * r := by nlinarith
    have even : 2 * r = den → (w + 1) % 2 = 0 := fun h => tie (.inl (by nlinarith))
    rw [if_neg (by omega)]
    split
    · rfl
    · have := even (by omega)
      omega

/-- The whole number within one half of a quotient is what the quotient is rounded to, if it
is even where the distance is one half. -/
theorem roundQuotient_of_near {num den m : Nat} (pos : 0 < den)
    (low : (m : ℚ) - 1 / 2 ≤ (num : ℚ) / den) (high : (num : ℚ) / den ≤ m + 1 / 2)
    (tie : (num : ℚ) / den = m - 1 / 2 ∨ (num : ℚ) / den = m + 1 / 2 → m % 2 = 0) :
    roundQuotient num den = m := by
  have cast : (0 : ℚ) < den := by exact_mod_cast pos
  rw [le_div_iff₀ cast] at low
  rw [div_le_iff₀ cast] at high
  rw [div_eq_iff cast.ne', div_eq_iff cast.ne'] at tie
  apply roundQuotient_eq pos
  · have : (2 * m * den : ℚ) ≤ 2 * num + den := by linarith
    exact_mod_cast this
  · have : (2 * num : ℚ) ≤ 2 * m * den + den := by linarith
    exact_mod_cast this
  · rintro (same | same)
    · have : (2 * m * den : ℚ) = 2 * num + den := by exact_mod_cast same
      exact tie (.inl (by linarith))
    · have : (2 * num : ℚ) = 2 * m * den + den := by exact_mod_cast same
      exact tie (.inr (by linarith))

theorem nearestBits_eq {num den n d : Nat} {e : Int} (nonzero : num ≠ 0)
    (exponent : max (binaryOrder num den - 52) leastExponent = e)
    (scaled : scaleTwo num den (-e) = (n, d)) :
    nearestBits num den =
      if roundQuotient n d = 2 ^ 53 then
        if greatestExponent < e + 1 then none else some (magnitude (2 ^ 52) (e + 1))
      else if greatestExponent < e then none else some (magnitude (roundQuotient n d) e) := by
  unfold nearestBits
  rw [if_neg nonzero]
  simp only [exponent, scaled]
  split
  · split
    · rfl
    · rw [if_neg (by omega), magnitude, if_neg (by omega)]
  · split
    · rfl
    · rw [magnitude]
      split
      · rfl
      · rfl

/-- The bits found are those of a finite number. -/
theorem isFinite_of_nearestBits {num den bits : Nat} (pos : 0 < den)
    (found : nearestBits num den = some bits) :
    ∃ m e, IsFinite m e ∧ magnitude m e = bits := by
  by_cases zero : num = 0
  · rw [nearestBits, if_pos zero] at found
    cases found
    exact ⟨0, leastExponent, ⟨by decide, by decide, by decide, fun _ => rfl⟩, rfl⟩
  obtain ⟨low, high⟩ := binaryOrder_bounds (Nat.pos_of_ne_zero zero) pos
  obtain ⟨e, exponent⟩ : ∃ e, max (binaryOrder num den - 52) leastExponent = e := ⟨_, rfl⟩
  rcases scaled : scaleTwo num den (-e) with ⟨n, d⟩
  obtain ⟨d_pos, same⟩ := scaleTwo_value scaled pos
  have d_cast : (0 : ℚ) < d := by exact_mod_cast d_pos
  have less : n / d < 2 ^ 53 := by
    have : (n : ℚ) / d < 2 ^ (53 : Int) := by
      rw [same]
      calc (num : ℚ) / den * 2 ^ (-e) < 2 ^ (binaryOrder num den + 1) * 2 ^ (-e) := by gcongr
        _ = 2 ^ (binaryOrder num den + 1 + -e) := (zpow_add₀ (by norm_num) _ _).symm
        _ ≤ 2 ^ (53 : Int) := zpow_le_zpow_right₀ (by norm_num) (by omega)
    rw [div_lt_iff₀ d_cast] at this
    rw [Nat.div_lt_iff_lt_mul d_pos]
    exact_mod_cast this
  have normal : e ≠ leastExponent → 2 ^ 52 ≤ n / d := by
    intro more
    have : (2 : ℚ) ^ (52 : Int) ≤ n / d := by
      rw [same]
      calc (2 : ℚ) ^ (52 : Int) ≤ 2 ^ (binaryOrder num den + -e) :=
            zpow_le_zpow_right₀ (by norm_num) (by omega)
        _ = 2 ^ binaryOrder num den * 2 ^ (-e) := zpow_add₀ (by norm_num) _ _
        _ ≤ num / den * 2 ^ (-e) := by gcongr
    rw [le_div_iff₀ d_cast] at this
    rw [Nat.le_div_iff_mul_le d_pos]
    exact_mod_cast this
  obtain ⟨down, up⟩ := roundQuotient_bounds n d
  have least : leastExponent ≤ e := by omega
  rw [nearestBits_eq zero exponent scaled] at found
  split at found
  · split at found
    · cases found
    · cases found
      exact ⟨2 ^ 52, e + 1, ⟨by omega, by omega, by omega, fun h => absurd h (by omega)⟩, rfl⟩
  · split at found
    · cases found
    · cases found
      refine ⟨_, e, ⟨by omega, least, by omega, fun small => ?_⟩, rfl⟩
      by_contra more
      have := normal more
      omega

/-- The values that read back as `mantissa * 2 ^ exponent`: those at most one half of the
mantissa's unit away, the ends only if the mantissa is even. Below a power of two the numbers
lie twice as close. -/
structure Near (mantissa : Nat) (exponent : Int) (x : ℚ) : Prop where
  low : (mantissa : ℚ) - 1 / 2 ≤ x / 2 ^ exponent
  high : x / 2 ^ exponent ≤ mantissa + 1 / 2
  tie : x / 2 ^ exponent = mantissa - 1 / 2 ∨ x / 2 ^ exponent = mantissa + 1 / 2 →
    mantissa % 2 = 0
  close : mantissa = 2 ^ 52 → leastExponent < exponent → (mantissa : ℚ) - 1 / 4 ≤ x / 2 ^ exponent

namespace Near

variable {m : Nat} {e : Int} {x : ℚ}

theorem lt (near : Near m e x) (small : m < 2 ^ 53) : x < 2 ^ (53 + e) := by
  have : (m : ℚ) + 1 ≤ 2 ^ 53 := by exact_mod_cast small
  rw [zpow_add₀ (by norm_num), ← div_lt_iff₀ (by positivity)]
  calc x / 2 ^ e ≤ m + 1 / 2 := near.high
    _ < m + 1 := by linarith
    _ ≤ 2 ^ (53 : Int) := by exact_mod_cast small

theorem ge (near : Near m e x) (pos : 0 < m) : 2 ^ (e - 1) ≤ x := by
  have one : (1 : ℚ) ≤ m := by exact_mod_cast pos
  have low := near.low
  rw [le_div_iff₀ (by positivity)] at low
  rw [zpow_sub₀ (by norm_num), zpow_one]
  have : (1 - 1 / 2 : ℚ) * 2 ^ e ≤ (m - 1 / 2) * 2 ^ e := by gcongr
  linarith

theorem pos (near : Near m e x) (pos : 0 < m) : 0 < x :=
  lt_of_lt_of_le (by positivity) (near.ge pos)

end Near

theorem nearestBits_of_near {num den m : Nat} {e : Int} (finite : IsFinite m e) (pos : 0 < m)
    (den_pos : 0 < den) (near : Near m e ((num : ℚ) / den)) :
    nearestBits num den = some (magnitude m e) := by
  obtain ⟨small, least, greatest, normal⟩ := finite
  have power : (0 : ℚ) < 2 ^ e := by positivity
  have nonzero : num ≠ 0 := by
    rintro rfl
    exact absurd (near.pos pos) (by norm_num)
  have num_pos : 0 < num := Nat.pos_of_ne_zero nonzero
  have above : binaryOrder num den < 53 + e := binaryOrder_lt num_pos den_pos (near.lt small)
  obtain ⟨low, high, tie, close⟩ := near
  by_cases unit : max (binaryOrder num den - 52) leastExponent = e
  · rcases scaled : scaleTwo num den (-e) with ⟨n, d⟩
    obtain ⟨d_pos, same⟩ := scaleTwo_value scaled den_pos
    rw [zpow_neg, ← div_eq_mul_inv] at same
    rw [← same] at low high tie
    rw [nearestBits_eq nonzero unit scaled, roundQuotient_of_near d_pos low high tie,
      if_neg (by omega), if_neg (by omega)]
  -- The value lies below the power of two that it reads back as.
  · have more : leastExponent < e := by omega
    have below : (num : ℚ) / den / 2 ^ e < 2 ^ 52 := by
      rw [div_lt_iff₀ power]
      calc (num : ℚ) / den < 2 ^ (binaryOrder num den + 1) := (binaryOrder_bounds num_pos den_pos).2
        _ ≤ 2 ^ (52 + e) := zpow_le_zpow_right₀ (by norm_num) (by omega)
        _ = 2 ^ 52 * 2 ^ e := zpow_add₀ (by norm_num) _ _
    have same : m = 2 ^ 52 := by
      have : m < 2 ^ 52 + 1 := by
        have : (m : ℚ) < 2 ^ 52 + 1 := by linarith
        exact_mod_cast this
      by_contra other
      have := normal (by omega)
      omega
    have quarter := close same more
    rw [same] at quarter high
    have order : max (binaryOrder num den - 52) leastExponent = e - 1 := by
      have : 51 + e ≤ binaryOrder num den := by
        apply le_binaryOrder num_pos den_pos
        rw [zpow_add₀ (by norm_num), ← le_div_iff₀ power]
        exact le_trans (by norm_num) quarter
      omega
    rcases scaled : scaleTwo num den (-(e - 1)) with ⟨n, d⟩
    obtain ⟨d_pos, double⟩ := scaleTwo_value scaled den_pos
    have twice : (n : ℚ) / d = 2 * (num / den / 2 ^ e) := by
      rw [double, neg_sub, sub_eq_add_neg, zpow_add₀ (by norm_num), zpow_neg]
      ring
    have rounded : roundQuotient n d = 2 ^ 53 := by
      apply roundQuotient_of_near d_pos
      · push_cast at quarter ⊢
        linarith
      · push_cast
        linarith
      · intro _
        rfl
    rw [nearestBits_eq nonzero order scaled, if_pos rounded, if_neg (by omega), same,
      Int.sub_add_cancel]

end PrgScript.Number
