import PrgScript.Number.Reading
import PrgScript.Number.Shortest
import PrgScript.Proofs.Binary64
import PrgScript.Proofs.Bytes

/-!
# Decimals read back

A number is printed with the fewest digits that read back as it. This module proves that they
do: a candidate within reach of a number lies near it, eighteen digits are always enough for a
candidate, and a decimal near a number is read as that number. The last section puts the two
together in `read_format`, for every finite number that is not negative.
-/

namespace PrgScript.Number

open Text

def Decimal.value (d : Decimal) : ℚ := d.digits * 10 ^ d.exponent

/-! ### What reads back -/

/-- What lies within reach, as a multiple of a quarter of the mantissa's unit. -/
theorem Reach.bounds_of_covers {r : Reach} {c num den : Nat} {y : ℚ} (num_pos : (0 : ℚ) < num)
    (same : (c : ℚ) * den = y * num) (covered : r.covers c num den = true) :
    (r.low : ℚ) ≤ y ∧ y ≤ r.high ∧ (y = r.low ∨ y = r.high → r.closed = true) := by
  unfold Reach.covers at covered
  dsimp only at covered
  split at covered
  next closed =>
    rw [Bool.and_eq_true, decide_eq_true_eq, decide_eq_true_eq] at covered
    obtain ⟨low, high⟩ := covered
    have low : (r.low * num : ℚ) ≤ c * den := by exact_mod_cast low
    have high : (c * den : ℚ) ≤ r.high * num := by exact_mod_cast high
    rw [same] at low high
    exact ⟨le_of_mul_le_mul_right low num_pos, le_of_mul_le_mul_right high num_pos, fun _ => closed⟩
  next =>
    rw [Bool.and_eq_true, decide_eq_true_eq, decide_eq_true_eq] at covered
    obtain ⟨low, high⟩ := covered
    have low : (r.low * num : ℚ) < c * den := by exact_mod_cast low
    have high : (c * den : ℚ) < r.high * num := by exact_mod_cast high
    rw [same] at low high
    have low := lt_of_mul_lt_mul_right low num_pos.le
    have high := lt_of_mul_lt_mul_right high num_pos.le
    refine ⟨low.le, high.le, ?_⟩
    rintro (ends | ends)
    · exact absurd ends low.ne'
    · exact absurd ends high.ne

/-- The reach of a positive number holds the values near it. -/
theorem near_of_reach {m : Nat} {e : Int} {x : ℚ} (pos : 0 < m)
    (low : ((reach m e).low : ℚ) ≤ 4 * (x / 2 ^ e)) (high : 4 * (x / 2 ^ e) ≤ (reach m e).high)
    (tie : 4 * (x / 2 ^ e) = (reach m e).low ∨ 4 * (x / 2 ^ e) = (reach m e).high →
      (reach m e).closed = true) : Near m e x := by
  generalize scaled : x / 2 ^ e = y at *
  have half : ((4 * m - 2 : Nat) : ℚ) = 4 * m - 2 := by
    push_cast [show 2 ≤ 4 * m by omega]
    rfl
  have quarter : ((4 * m - 1 : Nat) : ℚ) = 4 * m - 1 := by
    push_cast [show 1 ≤ 4 * m by omega]
    rfl
  have lowest : (4 * m - 2 : ℚ) ≤ (reach m e).low := by
    unfold reach
    dsimp only
    split
    · linarith
    · linarith
  have closest (power : m = 2 ^ 52) (more : leastExponent < e) :
      (4 * m - 1 : ℚ) = (reach m e).low := by
    rw [reach, if_pos ⟨power, more⟩, quarter]
  have highest : ((reach m e).high : ℚ) = 4 * m + 2 := by
    unfold reach
    push_cast
    rfl
  have even (closed : (reach m e).closed = true) : m % 2 = 0 := beq_iff_eq.1 closed
  constructor
  · rw [scaled]
    linarith
  · rw [scaled]
    linarith
  · rw [scaled]
    rintro (ends | ends)
    · exact even (tie (.inl (by linarith)))
    · exact even (tie (.inr (by linarith)))
  · intro power more
    have := closest power more
    rw [scaled]
    linarith

/-! ### Candidates -/

/-- A candidate is one of the two neighbours of the number, and there is none only if neither
of the two reads back. -/
theorem candidate_cases {m count num den n₀ d₀ : Nat} {e order : Int}
    (quarter : scaleTwo 1 4 e = (n₀, d₀)) (unit : scaleTen n₀ d₀ (count - order) = (num, den)) :
    (∃ c, (reach m e).covers c num den = true ∧
        candidate? m e order count = some ⟨c, -(count - order)⟩) ∨
      candidate? m e order count = none ∧
        (reach m e).covers (4 * m * num / den + 1) num den = false := by
  unfold candidate?
  simp only [quarter, unit]
  by_cases below : (reach m e).covers (4 * m * num / den) num den = true
  · by_cases above : (reach m e).covers (4 * m * num / den + 1) num den = true
    · rw [if_pos (by rw [below, above]; rfl)]
      refine .inl ?_
      split
      · exact ⟨_, below, rfl⟩
      · split
        · exact ⟨_, above, rfl⟩
        · rcases Nat.mod_two_eq_zero_or_one (4 * m * num / den) with even | odd
          · exact ⟨_, below, by rw [even, Nat.add_zero]⟩
          · exact ⟨_, above, by rw [odd]⟩
    · rw [if_neg (by simp [above]), if_pos below]
      exact .inl ⟨_, below, rfl⟩
  · by_cases above : (reach m e).covers (4 * m * num / den + 1) num den = true
    · rw [if_neg (by simp [below]), if_neg below, if_pos above]
      exact .inl ⟨_, above, rfl⟩
    · rw [if_neg (by simp [below]), if_neg below, if_neg above]
      exact .inr ⟨rfl, Bool.eq_false_iff.2 above⟩

/-- One quarter of the unit of a mantissa, in decimal units. -/
theorem exists_unit (e places : Int) :
    ∃ n₀ d₀ num den, scaleTwo 1 4 e = (n₀, d₀) ∧ scaleTen n₀ d₀ places = (num, den) ∧
      0 < num ∧ 0 < den ∧ (num : ℚ) / den = 1 / 4 * 2 ^ e * 10 ^ places := by
  rcases two : scaleTwo 1 4 e with ⟨n₀, d₀⟩
  rcases ten : scaleTen n₀ d₀ places with ⟨num, den⟩
  obtain ⟨d₀_pos, quarter⟩ := scaleTwo_value two (by decide)
  obtain ⟨den_pos, unit⟩ := scaleTen_value ten d₀_pos
  have unit : (num : ℚ) / den = 1 / 4 * 2 ^ e * 10 ^ places := by
    rw [unit, quarter]
    norm_num
  refine ⟨n₀, d₀, num, den, rfl, ten, ?_, den_pos, unit⟩
  rcases Nat.eq_zero_or_pos num with rfl | pos
  · have : (0 : ℚ) < 1 / 4 * 2 ^ e * 10 ^ places := by positivity
    rw [← unit, Nat.cast_zero, zero_div] at this
    exact absurd this (lt_irrefl 0)
  · exact pos

/-- A candidate reads back as the number. -/
theorem near_of_candidate {m count : Nat} {e order : Int} {d : Decimal} (pos : 0 < m)
    (found : candidate? m e order count = some d) : Near m e d.value := by
  obtain ⟨n₀, d₀, num, den, quarter, scaled, num_pos, den_pos, unit⟩ :=
    exists_unit e (count - order)
  have num_cast : (0 : ℚ) < num := by exact_mod_cast num_pos
  have den_cast : (0 : ℚ) < den := by exact_mod_cast den_pos
  rcases candidate_cases quarter scaled with ⟨c, covered, eq⟩ | ⟨eq, _⟩
  · rw [eq] at found
    cases found
    have same : (c : ℚ) * den = 4 * (Decimal.value ⟨c, -(count - order)⟩ / 2 ^ e) * num := by
      rw [div_eq_iff den_cast.ne'] at unit
      rw [unit, Decimal.value, zpow_neg]
      field_simp
    obtain ⟨low, high, tie⟩ := Reach.bounds_of_covers num_cast same covered
    exact near_of_reach pos low high tie
  · rw [eq] at found
    cases found

/-- Where the unit of the mantissa is more than two decimal units, there is a candidate. -/
theorem candidate_ne_none {m count : Nat} {e order : Int}
    (wide : (2 : ℚ) < 2 ^ e * 10 ^ (count - order)) : candidate? m e order count ≠ none := by
  obtain ⟨n₀, d₀, num, den, quarter, scaled, num_pos, den_pos, unit⟩ :=
    exists_unit e (count - order)
  have den_cast : (0 : ℚ) < den := by exact_mod_cast den_pos
  have half : den < 2 * num := by
    have : (den : ℚ) < 2 * num := by
      rw [div_eq_iff den_cast.ne'] at unit
      rw [unit]
      nlinarith
    exact_mod_cast this
  have below : 4 * m * num < (4 * m * num / den + 1) * den := by
    rw [Nat.mul_comm _ den]
    exact Nat.lt_mul_div_succ _ den_pos
  have above : (4 * m * num / den + 1) * den ≤ 4 * m * num + den := by
    rw [Nat.succ_mul]
    exact Nat.add_le_add_right (Nat.div_mul_le_self _ _) _
  have low : (reach m e).low ≤ 4 * m := by
    unfold reach
    dsimp only
    split
    · omega
    · omega
  have lower : (reach m e).low * num ≤ 4 * m * num := Nat.mul_le_mul_right num low
  have higher : (reach m e).high * num = 4 * m * num + 2 * num := Nat.add_mul _ _ _
  have covered : (reach m e).covers (4 * m * num / den + 1) num den = true := by
    unfold Reach.covers
    dsimp only
    split
    · rw [Bool.and_eq_true, decide_eq_true_eq, decide_eq_true_eq]
      constructor
      · omega
      · omega
    · rw [Bool.and_eq_true, decide_eq_true_eq, decide_eq_true_eq]
      constructor
      · omega
      · omega
  rcases candidate_cases quarter scaled with ⟨c, _, eq⟩ | ⟨_, missed⟩
  · rw [eq]
    exact Option.some_ne_none _
  · rw [covered] at missed
    cases missed

/-! ### Powers of two and of ten -/

theorem ten_pow_le_two_pow {k b : Nat} (less : 10 * k ≤ 3 * b) : 10 ^ k ≤ 2 ^ b := by
  apply le_of_pow_le_pow_left₀ (n := 10) (by decide) (Nat.zero_le _)
  calc (10 ^ k) ^ 10 = 10 ^ (10 * k) := by rw [← pow_mul, Nat.mul_comm]
    _ ≤ 10 ^ (3 * b) := Nat.pow_le_pow_right (by decide) less
    _ = (10 ^ 3) ^ b := pow_mul _ _ _
    _ ≤ (2 ^ 10) ^ b := Nat.pow_le_pow_left (by decide) b
    _ = (2 ^ b) ^ 10 := by rw [← pow_mul, ← pow_mul, Nat.mul_comm]

theorem two_pow_le_ten_pow {k b : Nat} (less : 28 * b ≤ 93 * k) : 2 ^ b ≤ 10 ^ k := by
  apply le_of_pow_le_pow_left₀ (n := 93) (by decide) (Nat.zero_le _)
  calc (2 ^ b) ^ 93 = (2 ^ 93) ^ b := by rw [← pow_mul, ← pow_mul, Nat.mul_comm]
    _ ≤ (10 ^ 28) ^ b := Nat.pow_le_pow_left (by decide) b
    _ = 10 ^ (28 * b) := (pow_mul _ _ _).symm
    _ ≤ 10 ^ (93 * k) := Nat.pow_le_pow_right (by decide) less
    _ = (10 ^ k) ^ 93 := by rw [← pow_mul, Nat.mul_comm]

/-- Over the exponents of finite numbers, `30103 / 100000` estimates the logarithm of two to
less than two decimal places. -/
theorem ten_zpow_le_two_zpow {k b : Int} (low : -1100 ≤ b) (high : b ≤ 1100)
    (less : (k + 2) * 100000 ≤ b * 30103) : (10 : ℚ) ^ k ≤ 2 ^ b := by
  rcases Int.le_total 0 b with nonneg | negative
  · obtain ⟨j, rfl⟩ := Int.eq_ofNat_of_zero_le nonneg
    rcases Int.le_total 0 k with large | small
    · obtain ⟨i, rfl⟩ := Int.eq_ofNat_of_zero_le large
      have := ten_pow_le_two_pow (k := i) (b := j) (by omega)
      exact_mod_cast this
    · exact (zpow_le_one_of_nonpos₀ (by norm_num) small).trans (one_le_zpow₀ (by norm_num) nonneg)
  · obtain ⟨j, rfl⟩ : ∃ j : Nat, b = -j := ⟨b.natAbs, by omega⟩
    obtain ⟨i, rfl⟩ : ∃ i : Nat, k = -i := ⟨k.natAbs, by omega⟩
    have := two_pow_le_ten_pow (k := i) (b := j) (by omega)
    rw [zpow_neg, zpow_neg]
    apply inv_anti₀ (by positivity)
    exact_mod_cast this

/-- The search for the decimal order never stops two powers of ten above the fraction. -/
theorem decimalOrder_le {num den : Nat} (pos : 0 < den) (tries : Nat) {start : Int}
    (low : (10 : ℚ) ^ (start - 1) ≤ num / den) :
    (10 : ℚ) ^ (decimalOrder num den start tries - 1) ≤ num / den := by
  induction tries generalizing start with
  | zero => exact low
  | succ tries ih =>
      unfold decimalOrder
      rcases scaled : scaleTen num den (-start) with ⟨n, d⟩
      obtain ⟨d_pos, same⟩ := scaleTen_value scaled pos
      dsimp only
      split
      · exact low
      next more =>
        apply ih
        have d_cast : (0 : ℚ) < d := by exact_mod_cast d_pos
        have : (1 : ℚ) ≤ n / d := by
          rw [le_div_iff₀ d_cast, one_mul]
          exact_mod_cast Nat.not_lt.1 more
        rw [same, zpow_neg, ← div_eq_mul_inv, le_div_iff₀ (by positivity), one_mul] at this
        rwa [Int.add_sub_cancel]

/-- The shortest decimal of a positive number reads back as it. -/
theorem shortest_near {m : Nat} {e : Int} (finite : IsFinite m e) (pos : 0 < m) :
    Near m e (shortest m e).value := by
  obtain ⟨small, least, greatest, -⟩ := finite
  have one : (1 : ℚ) ≤ m := by exact_mod_cast pos
  have most : (m : ℚ) < 2 ^ 53 := by exact_mod_cast small
  rcases scaled : scaleTwo m 1 e with ⟨num, den⟩
  obtain ⟨den_pos, same⟩ := scaleTwo_value scaled (by decide)
  rw [Nat.cast_one, div_one] at same
  have value_pos : (0 : ℚ) < num / den := by
    rw [same]
    positivity
  have num_pos : 0 < num := by
    by_contra none
    obtain rfl : num = 0 := by omega
    norm_num at value_pos
  have power : (0 : ℚ) < 2 ^ e := by positivity
  have low : e ≤ binaryOrder num den := by
    apply le_binaryOrder num_pos den_pos
    rw [same]
    exact le_mul_of_one_le_left power.le one
  have high : binaryOrder num den < 53 + e := by
    apply binaryOrder_lt num_pos den_pos
    rw [same, zpow_add₀ (by norm_num)]
    exact mul_lt_mul_of_pos_right most power
  unfold leastExponent at least
  unfold greatestExponent at greatest
  unfold shortest
  simp only [scaled]
  generalize estimate : (binaryOrder num den * 30103).fdiv 100000 - 1 = start
  have order : (10 : ℚ) ^ (decimalOrder num den start 5 - 1) ≤ num / den := by
    apply decimalOrder_le den_pos
    apply le_trans (ten_zpow_le_two_zpow (by omega) (by omega) ?_)
      (binaryOrder_bounds num_pos den_pos).1
    rw [Int.fdiv_eq_ediv_of_nonneg _ (by decide)] at estimate
    omega
  generalize decimalOrder num den start 5 = p at order
  have wide : (2 : ℚ) < 2 ^ e * 10 ^ (((17 + 1 : Nat) : Int) - p) := by
    have digits : (10 : ℚ) ^ 17 ≤ 2 ^ 53 * (2 ^ e * 10 ^ (((17 + 1 : Nat) : Int) - p)) := by
      calc (10 : ℚ) ^ 17 = 10 ^ (p - 1) * 10 ^ (((17 + 1 : Nat) : Int) - p) := by
            rw [← zpow_add₀ (by norm_num), ← zpow_natCast]
            congr 1
            omega
        _ ≤ m * 2 ^ e * 10 ^ (((17 + 1 : Nat) : Int) - p) := by
            rw [← same]
            gcongr
        _ ≤ 2 ^ 53 * 2 ^ e * 10 ^ (((17 + 1 : Nat) : Int) - p) := by gcongr
        _ = _ := mul_assoc _ _ _
    norm_num at digits ⊢
    linarith
  have found : ((List.range 18).findSome? fun n => candidate? m e p (n + 1)).isSome := by
    rw [List.findSome?_isSome_iff]
    exact ⟨17, by decide, Option.isSome_iff_ne_none.2 (candidate_ne_none wide)⟩
  obtain ⟨d, found⟩ := Option.isSome_iff_exists.1 found
  obtain ⟨n, _, candidate⟩ := List.exists_of_findSome?_eq_some found
  rw [found, Option.getD_some]
  exact near_of_candidate pos candidate

/-! ### Positional notation -/

theorem trim_value (d : Decimal) (tries : Nat) : (d.trim tries).value = d.value := by
  induction tries generalizing d with
  | zero => rfl
  | succ tries ih =>
      unfold Decimal.trim
      split
      next zeros =>
        have whole : d.digits = d.digits / 10 * 10 := by omega
        rw [ih, Decimal.value, Decimal.value, zpow_add₀ (by norm_num)]
        nth_rewrite 2 [whole]
        push_cast
        ring
      · rfl

/-- A digit put behind a whole number. -/
def shiftIn (n : Nat) (b : UInt8) : Nat := n * 10 + (b.toNat - 48)

/-- The whole number that a text of digits spells. -/
def numeral (t : Text) : Nat := t.foldl shiftIn 0

theorem numeral_append (s t : Text) : numeral (s ++ t) = t.foldl shiftIn (numeral s) :=
  List.foldl_append

theorem shiftIn_digitByte (n : Nat) {d : Nat} (small : d < 10) :
    shiftIn n (digitByte d) = n * 10 + d := by
  have : (digitByte d).toNat - 48 = d := by decide +revert
  rw [shiftIn, this]

theorem numeral_ofNat (n : Nat) : numeral (ofNat n) = n := by
  induction n using decimal_induction with
  | small n small =>
      rw [ofNat_of_lt small]
      exact (shiftIn_digitByte 0 small).trans (Nat.zero_add n)
  | large n large ih =>
      have last := shiftIn_digitByte (n / 10) (Nat.mod_lt n (by decide : 0 < 10))
      rw [ofNat_of_ge large, numeral_append, ih]
      show shiftIn (n / 10) (digitByte (n % 10)) = n
      omega

theorem foldl_shiftIn_zeros (n k : Nat) :
    (List.replicate k 48).foldl shiftIn n = n * 10 ^ k := by
  induction k generalizing n with
  | zero => simp
  | succ k ih =>
      rw [List.replicate_succ, List.foldl_cons, ih, pow_succ']
      show (n * 10 + 0) * 10 ^ k = n * (10 * 10 ^ k)
      ring

theorem isDigit_of_mem_replicate {k : Nat} {b : UInt8} (h : b ∈ List.replicate k 48) :
    IsDigit b := by
  rw [List.eq_of_mem_replicate h]
  decide

/-- The texts that spell a value in positional notation. -/
inductive Spells : Text → ℚ → Prop
  | whole {w : Text} (some : w ≠ []) (digits : ∀ b ∈ w, IsDigit b) : Spells w (numeral w)
  | fraction {w f : Text} (some : w ≠ []) (places : f ≠ []) (digits : ∀ b ∈ w ++ f, IsDigit b) :
      Spells (w ++ 46 :: f) (numeral (w ++ f) * 10 ^ (-(f.length : Int)))

/-- A decimal is written as a text that spells its value. -/
theorem positional_spells (d : Decimal) : Spells d.positional d.value := by
  have digits : ∀ b ∈ ofNat d.digits, IsDigit b := fun b h => isDigit_of_mem_ofNat _ h
  unfold Decimal.positional
  split
  next nonneg =>
    obtain ⟨k, exponent⟩ := Int.eq_ofNat_of_zero_le nonneg
    have same : (numeral (ofNat d.digits ++ List.replicate d.exponent.natAbs 48) : ℚ) =
        d.value := by
      rw [numeral_append, numeral_ofNat, foldl_shiftIn_zeros, Decimal.value, exponent,
        Int.natAbs_natCast, zpow_natCast]
      push_cast
      rfl
    rw [← same]
    apply Spells.whole
    · exact List.append_ne_nil_of_left_ne_nil (ofNat_ne_nil _) _
    · intro b mem
      rcases List.mem_append.1 mem with h | h
      · exact digits b h
      · exact isDigit_of_mem_replicate h
  next negative =>
    have exponent : -(d.exponent.natAbs : Int) = d.exponent := by omega
    dsimp only
    split
    next short =>
      have width : (padZero d.exponent.natAbs (ofNat d.digits)).length = d.exponent.natAbs := by
        rw [padZero, List.length_append, List.length_replicate]
        omega
      have same : numeral ([48] ++ padZero d.exponent.natAbs (ofNat d.digits)) = d.digits := by
        have zero : numeral [48] = 0 := rfl
        rw [numeral_append, padZero, List.foldl_append, foldl_shiftIn_zeros, zero, Nat.zero_mul]
        exact numeral_ofNat d.digits
      have spells := @Spells.fraction [48] (padZero d.exponent.natAbs (ofNat d.digits))
        (List.cons_ne_nil _ _) (List.append_ne_nil_of_right_ne_nil _ (ofNat_ne_nil _))
      rw [same, width, exponent] at spells
      apply spells
      intro b mem
      rcases List.mem_append.1 mem with h | h
      · rw [List.mem_singleton.1 h]
        decide
      · rcases List.mem_append.1 h with h | h
        · exact isDigit_of_mem_replicate h
        · exact digits b h
    next long =>
      generalize split : (ofNat d.digits).length - d.exponent.natAbs = k
      have width : ((ofNat d.digits).drop k).length = d.exponent.natAbs := by
        rw [List.length_drop]
        omega
      have spells := @Spells.fraction ((ofNat d.digits).take k) ((ofNat d.digits).drop k)
        (by rw [← List.length_pos_iff, List.length_take]; omega)
        (by rw [← List.length_pos_iff]; omega)
      rw [List.take_append_drop, numeral_ofNat, width, exponent] at spells
      rw [List.append_assoc]
      exact spells digits

/-! ### Reading -/

theorem digit?_of_isDigit {b : UInt8} (digit : IsDigit b) : digit? 10 b = some (b.toNat - 48) := by
  rw [digit?, if_pos]
  rw [Bool.and_eq_true, decide_eq_true_eq, decide_eq_true_eq]
  exact digit

/-- Digits are read as one whole number, and counted behind a point. -/
theorem readMantissa_digits {ds : Text} (digits : ∀ b ∈ ds, IsDigit b) (acc : Mantissa)
    (rest : Text) :
    readMantissa 10 acc (ds ++ rest) =
      readMantissa 10
        { acc with
          value := ds.foldl shiftIn acc.value
          places := if acc.sawPoint then acc.places + ds.length else acc.places
          sawDigit := acc.sawDigit || !ds.isEmpty } rest := by
  induction ds generalizing acc with
  | nil => simp
  | cons b ds ih =>
      have digit : IsDigit b := digits b List.mem_cons_self
      have no_underscore : b ≠ 95 := by
        rintro rfl
        exact absurd digit (by decide)
      have no_point : b ≠ 46 := by
        rintro rfl
        exact absurd digit (by decide)
      rw [List.cons_append, readMantissa, if_neg no_underscore, if_neg (by simp [no_point]),
        digit?_of_isDigit digit]
      dsimp only
      rw [ih fun b h => digits b (List.mem_cons_of_mem _ h)]
      cases acc.sawPoint
      · simp [shiftIn]
      · simp [shiftIn, Nat.add_assoc, Nat.add_comm 1]

theorem readMantissa_point {acc : Mantissa} (first : acc.sawPoint = false) (rest : Text) :
    readMantissa 10 acc (46 :: rest) = readMantissa 10 { acc with sawPoint := true } rest := by
  rw [readMantissa, if_neg (by decide), if_pos (by rw [first]; rfl)]

/-- A text of digits and points is read as a decimal. -/
theorem read_of_isNumeral {t : Text} (h : IsNumeral t) : read t = readDecimal false t := by
  obtain ⟨some, digits⟩ := h
  obtain ⟨b, r, rfl⟩ := List.exists_cons_of_ne_nil some
  have other {c : UInt8} (not : ¬(IsDigit c ∨ c = 46)) : c ∉ b :: r := fun mem => not (digits c mem)
  have unsigned : splitSign (b :: r) = (false, b :: r) := by
    unfold splitSign
    split
    next same => exact absurd (same ▸ List.mem_cons_self) (other (c := 43) (by decide))
    next same => exact absurd (same ▸ List.mem_cons_self) (other (c := 45) (by decide))
    · rfl
  have lower : lowerASCII (b :: r) = b :: lowerASCII r := by
    have : ¬(65 ≤ b ∧ b ≤ 90) := by
      rcases digits b List.mem_cons_self with digit | rfl
      · unfold IsDigit at digit
        intro letter
        exact absurd (UInt8.le_trans letter.1 digit.2) (by decide)
      · decide
    rw [lowerASCII, List.map_cons, if_neg this]
    rfl
  have unnamed {c : UInt8} {cs : Text} (not : ¬(IsDigit c ∨ c = 46)) :
      lowerASCII (b :: r) ≠ c :: cs := by
    rw [lower]
    intro same
    exact other not ((List.cons.inj same).1 ▸ List.mem_cons_self)
  have inf : lowerASCII (b :: r) ≠ "inf" := unnamed (by decide)
  have infinity : lowerASCII (b :: r) ≠ "infinity" := unnamed (by decide)
  have nan : lowerASCII (b :: r) ≠ "nan" := unnamed (by decide)
  have underscores : (b :: r).contains 95 = false := by
    rw [List.contains_eq_mem]
    exact decide_eq_false (other (by decide))
  unfold read
  simp only [unsigned]
  rw [if_neg (by simp [inf, infinity]), if_neg nan,
    if_neg (by simp only [underscores, Bool.false_and, Bool.false_eq_true, not_false_eq_true])]
  split
  next mark _ _ same =>
    have plain : ¬(mark = 120 || mark = 88) = true := by
      have mem : mark ∈ b :: r := same ▸ List.mem_cons_of_mem _ List.mem_cons_self
      rw [Bool.or_eq_true, decide_eq_true_eq, decide_eq_true_eq]
      rintro (rfl | rfl)
      · exact other (by decide) mem
      · exact other (by decide) mem
    rw [if_neg plain]
  · rfl

theorem length_repr {n : Nat} (pos : 0 < n) :
    ∃ k, (Nat.repr n).length = k + 1 ∧ 10 ^ k ≤ n ∧ n < 10 ^ (k + 1) := by
  induction n using decimal_induction with
  | small n small =>
      refine ⟨0, ?_, by omega, by omega⟩
      rw [Nat.repr_of_lt small, String.length_singleton]
  | large n large ih =>
      obtain ⟨k, length, low, high⟩ := ih (by omega)
      refine ⟨k + 1, ?_, ?_, ?_⟩
      · rw [Nat.repr_of_ge large, String.length_append, length, String.length_singleton]
      · rw [pow_succ]
        omega
      · rw [pow_succ]
        omega

/-- A decimal near a positive number is read as it. -/
theorem ofDecimal_of_near {m value : Nat} {e k : Int} (finite : IsFinite m e) (pos : 0 < m)
    (near : Near m e (value * 10 ^ k)) :
    ofDecimal false value k = .ok (ofMagnitude false (magnitude m e)) := by
  have value_pos : 0 < value := by
    by_contra none
    obtain rfl : value = 0 := by omega
    exact absurd (near.pos pos) (by norm_num)
  obtain ⟨j, length, low, high⟩ := length_repr value_pos
  have low : (10 : ℚ) ^ (j + k) ≤ value * 10 ^ k := by
    rw [zpow_add₀ (by norm_num), zpow_natCast]
    gcongr
    exact_mod_cast low
  have high : (value : ℚ) * 10 ^ k < 10 ^ (j + 1 + k) := by
    rw [zpow_add₀ (by norm_num)]
    gcongr
    exact_mod_cast high
  have greatest := finite.greatest
  have least := finite.least
  unfold greatestExponent at greatest
  unfold leastExponent at least
  have few : ¬310 < (((Nat.repr value).length : Int) + k) := by
    intro many
    have large : (2 : ℚ) ^ (1024 : Int) ≤ 10 ^ (309 : Int) := by
      exact_mod_cast two_pow_le_ten_pow (k := 309) (b := 1024) (by decide)
    have : (10 : ℚ) ^ (309 : Int) < 10 ^ (309 : Int) := by
      calc (10 : ℚ) ^ (309 : Int) ≤ 10 ^ (j + k) := zpow_le_zpow_right₀ (by norm_num) (by omega)
        _ ≤ value * 10 ^ k := low
        _ < 2 ^ (53 + e) := near.lt finite.small
        _ ≤ 2 ^ (1024 : Int) := zpow_le_zpow_right₀ (by norm_num) (by omega)
        _ ≤ 10 ^ (309 : Int) := large
    exact lt_irrefl _ this
  have enough : ¬((Nat.repr value).length : Int) + k < -330 := by
    intro less
    have : (10 : ℚ) ^ (-331 : Int) < 10 ^ (-331 : Int) := by
      calc (10 : ℚ) ^ (-331 : Int) ≤ 2 ^ (-1075 : Int) :=
            ten_zpow_le_two_zpow (by decide) (by decide) (by decide)
        _ ≤ 2 ^ (e - 1) := zpow_le_zpow_right₀ (by norm_num) (by omega)
        _ ≤ value * 10 ^ k := near.ge pos
        _ < 10 ^ (j + 1 + k) := high
        _ ≤ 10 ^ (-331 : Int) := zpow_le_zpow_right₀ (by norm_num) (by omega)
    exact lt_irrefl _ this
  rcases scaled : scaleTen value 1 k with ⟨num, den⟩
  obtain ⟨den_pos, same⟩ := scaleTen_value scaled (by decide)
  rw [Nat.cast_one, div_one] at same
  rw [← same] at near
  unfold ofDecimal
  rw [if_neg value_pos.ne']
  dsimp only
  rw [if_neg few, if_neg enough, scaled]
  dsimp only
  rw [nearestBits_of_near finite pos den_pos near]

theorem Spells.isNumeral {t : Text} {x : ℚ} (spells : Spells t x) : IsNumeral t := by
  cases spells with
  | whole some digits => exact ⟨some, fun b h => .inl (digits b h)⟩
  | fraction some places digits =>
      refine ⟨List.append_ne_nil_of_left_ne_nil some _, fun b h => ?_⟩
      rcases List.mem_append.1 h with h | h
      · exact .inl (digits b (List.mem_append_left _ h))
      · rcases List.mem_cons.1 h with rfl | h
        · exact .inr rfl
        · exact .inl (digits b (List.mem_append_right _ h))

/-- A text that spells a value is read as a decimal of that value. -/
theorem Spells.read {t : Text} {x : ℚ} (spells : Spells t x) :
    ∃ (n : Nat) (k : Int), x = n * 10 ^ k ∧ Number.read t = ofDecimal false n k := by
  have decimal := read_of_isNumeral spells.isNumeral
  cases spells with
  | whole some digits =>
      refine ⟨numeral t, 0, by simp, ?_⟩
      have mantissa := readMantissa_digits digits {} []
      rw [List.append_nil] at mantissa
      rw [decimal, readDecimal, mantissa]
      simp [readMantissa, numeral, some]
  | @fraction w f some places digits =>
      refine ⟨_, _, rfl, ?_⟩
      have whole := readMantissa_digits (fun b h => digits b (List.mem_append_left f h)) {}
        (46 :: f)
      have behind := readMantissa_digits (fun b h => digits b (List.mem_append_right w h))
        ⟨numeral w, 0, true, true⟩ []
      rw [List.append_nil] at behind
      rw [decimal, readDecimal, whole, readMantissa_point rfl]
      simp only [Bool.false_eq_true, if_false, Bool.false_or, List.isEmpty_eq_false_iff.2 some,
        Bool.not_false]
      rw [← numeral, behind]
      simp [readMantissa, numeral_append]

theorem isFinite_of_ofDecimal {negative : Bool} {n : Nat} {k : Int} {v : Float}
    (ok : ofDecimal negative n k = .ok v) :
    ∃ m e, IsFinite m e ∧ v = ofMagnitude negative (magnitude m e) := by
  have zero : IsFinite 0 leastExponent := ⟨by decide, by decide, by decide, fun _ => rfl⟩
  unfold ofDecimal at ok
  split at ok
  · cases ok
    exact ⟨0, leastExponent, zero, rfl⟩
  dsimp only at ok
  split at ok
  · cases ok
  split at ok
  · cases ok
    exact ⟨0, leastExponent, zero, rfl⟩
  rcases scaled : scaleTen n 1 k with ⟨num, den⟩
  obtain ⟨den_pos, -⟩ := scaleTen_value scaled (by decide)
  rw [scaled] at ok
  dsimp only at ok
  split at ok
  next bits found =>
    cases ok
    obtain ⟨m, e, finite, rfl⟩ := isFinite_of_nearestBits den_pos found
    exact ⟨m, e, finite, rfl⟩
  · cases ok

/-- What a text of digits and points reads as is a finite number that is not negative. -/
theorem isFinite_of_read {t : Text} {v : Float} (h : IsNumeral t) (ok : read t = .ok v) :
    ∃ m e, IsFinite m e ∧ v = ofMagnitude false (magnitude m e) := by
  rw [read_of_isNumeral h, readDecimal] at ok
  dsimp only at ok
  split at ok
  · cases ok
  split at ok
  · exact isFinite_of_ofDecimal ok
  split at ok
  · split at ok
    · exact isFinite_of_ofDecimal ok
    · cases ok
  · cases ok

/-! ### Printing and reading -/

/-- A finite number that is not negative is printed as a text that spells a value near it. -/
theorem format_spells {m : Nat} {e : Int} (finite : IsFinite m e) :
    ∃ x, Spells (format (ofMagnitude false (magnitude m e))) x ∧ (m = 0 → x = 0) ∧
      (0 < m → Near m e x) := by
  unfold format
  rw [finite.parts_magnitude]
  dsimp only
  rw [if_neg (by decide)]
  by_cases zero : m = 0
  · rw [if_pos zero]
    have spells : Spells (ofString "0") (numeral (ofString "0")) :=
      .whole (by decide) (List.forall_mem_singleton.2 (by decide : IsDigit 48))
    exact ⟨_, spells, fun _ => rfl, fun pos => absurd zero (by omega)⟩
  · rw [if_neg zero]
    refine ⟨_, positional_spells _, fun h => absurd h zero, fun pos => ?_⟩
    rw [trim_value]
    exact shortest_near finite pos

/-- A finite number that is not negative reads back as itself. -/
theorem read_format {m : Nat} {e : Int} (finite : IsFinite m e) :
    read (format (ofMagnitude false (magnitude m e))) =
      .ok (ofMagnitude false (magnitude m e)) := by
  obtain ⟨x, spells, zero, near⟩ := format_spells finite
  obtain ⟨n, k, rfl, read⟩ := spells.read
  rw [read]
  rcases Nat.eq_zero_or_pos m with rfl | pos
  · have none : n = 0 := by
      have := zero rfl
      have power : (10 : ℚ) ^ k ≠ 0 := by positivity
      exact_mod_cast (mul_eq_zero.1 this).resolve_right power
    rw [ofDecimal, if_pos none]
    rfl
  · exact ofDecimal_of_near finite pos (near pos)

end PrgScript.Number
