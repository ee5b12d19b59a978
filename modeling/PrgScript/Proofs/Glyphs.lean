import PrgScript.Proofs.Bytes
import PrgScript.Source.Cursor

/-!
# Characters, bytes and glyphs

Writing characters as bytes and reading them again gives the same characters,
whatever bytes follow. `Front` lists the four forms that a character can have at
the front of a text; both directions go through it. A text is read by glyphs, and
a glyph of a character other than the replacement has the bytes of that character,
line ends apart, where a carriage return may belong to the glyph.

`Leads` is what stands at the front of a text when it is read by glyphs. It gives
induction on a text glyph by glyph, and with it that a text may be cut between any
two of its glyphs.
-/

namespace PrgScript.Text

theorem isContinuation_iff {b : UInt8} :
    isContinuation b = true ↔ 128 ≤ b.toNat ∧ b.toNat < 192 := by
  simp only [isContinuation, Bool.and_eq_true, decide_eq_true_eq, UInt8.le_iff_toNat_le]
  show 128 ≤ b.toNat ∧ b.toNat ≤ 191 ↔ _
  omega

theorem eq_byte {b : UInt8} {n : Nat} (same : b.toNat = n) : b = UInt8.ofNat n := by
  rw [← same, UInt8.ofNat_toNat]

/-- A number outside the gap of the surrogates is the code of a character. -/
theorem toNat_char {n : Nat} (valid : n < 0xD800 ∨ 0xDFFF < n ∧ n < 0x110000) :
    (Char.ofNat n).toNat = n := by
  have isValid : n.isValidChar := valid
  rw [Char.ofNat, dif_pos isValid]
  rfl

theorem ofChar_two {c : Char} (low : 0x80 ≤ c.toNat) (high : c.toNat < 0x800) :
    ofChar c = [UInt8.ofNat (c.toNat / 64 + 0xC0), UInt8.ofNat (c.toNat % 64 + 0x80)] := by
  have large : ¬c.val.toNat ≤ 0x7f := Nat.not_le.2 low
  have small : c.val.toNat ≤ 0x7ff := Nat.le_of_lt_succ high
  have lead : c.toNat / 64 % 32 = c.toNat / 64 := by omega
  simp only [ofChar, String.utf8EncodeChar, large, small, if_false, if_true]
  rw [← lead]
  rfl

theorem ofChar_three {c : Char} (low : 0x800 ≤ c.toNat) (high : c.toNat < 0x10000) :
    ofChar c = [UInt8.ofNat (c.toNat / 4096 + 0xE0), UInt8.ofNat (c.toNat / 64 % 64 + 0x80),
      UInt8.ofNat (c.toNat % 64 + 0x80)] := by
  have large : ¬c.val.toNat ≤ 0x7f := fun h => by
    have : c.toNat ≤ 0x7f := h
    omega
  have larger : ¬c.val.toNat ≤ 0x7ff := Nat.not_le.2 low
  have small : c.val.toNat ≤ 0xffff := Nat.le_of_lt_succ high
  have lead : c.toNat / 4096 % 16 = c.toNat / 4096 := by omega
  simp only [ofChar, String.utf8EncodeChar, large, larger, small, if_false, if_true]
  rw [← lead]
  rfl

theorem ofChar_four {c : Char} (low : 0x10000 ≤ c.toNat) :
    ofChar c = [UInt8.ofNat (c.toNat / 262144 + 0xF0), UInt8.ofNat (c.toNat / 4096 % 64 + 0x80),
      UInt8.ofNat (c.toNat / 64 % 64 + 0x80), UInt8.ofNat (c.toNat % 64 + 0x80)] := by
  have valid : c.toNat < 0xD800 ∨ 0xDFFF < c.toNat ∧ c.toNat < 0x110000 := c.valid
  have large : ¬c.val.toNat ≤ 0x7f := fun h => by
    have : c.toNat ≤ 0x7f := h
    omega
  have larger : ¬c.val.toNat ≤ 0x7ff := fun h => by
    have : c.toNat ≤ 0x7ff := h
    omega
  have largest : ¬c.val.toNat ≤ 0xffff := Nat.not_le.2 low
  have lead : c.toNat / 262144 % 8 = c.toNat / 262144 := by omega
  simp only [ofChar, String.utf8EncodeChar, large, larger, largest, if_false]
  rw [← lead]
  rfl

theorem isSecondOfThree_iff {lead b : UInt8} :
    isSecondOfThree lead b = true ↔
      128 ≤ b.toNat ∧ b.toNat < 192 ∧ (lead.toNat = 0xE0 → 0xA0 ≤ b.toNat) ∧
        (lead.toNat = 0xED → b.toNat < 0xA0) := by
  have first : lead = 0xE0 ↔ lead.toNat = 0xE0 := UInt8.toNat_inj.symm
  have last : lead = 0xED ↔ lead.toNat = 0xED := UInt8.toNat_inj.symm
  unfold isSecondOfThree
  simp only [first, last]
  split
  · simp only [Bool.and_eq_true, decide_eq_true_eq, UInt8.le_iff_toNat_le]
    show 160 ≤ b.toNat ∧ b.toNat ≤ 191 ↔ _
    omega
  split
  · simp only [Bool.and_eq_true, decide_eq_true_eq, UInt8.le_iff_toNat_le]
    show 128 ≤ b.toNat ∧ b.toNat ≤ 159 ↔ _
    omega
  · rw [isContinuation_iff]
    omega

theorem isSecondOfFour_iff {lead b : UInt8} :
    isSecondOfFour lead b = true ↔
      128 ≤ b.toNat ∧ b.toNat < 192 ∧ (lead.toNat = 0xF0 → 0x90 ≤ b.toNat) ∧
        (lead.toNat = 0xF4 → b.toNat < 0x90) := by
  have first : lead = 0xF0 ↔ lead.toNat = 0xF0 := UInt8.toNat_inj.symm
  have last : lead = 0xF4 ↔ lead.toNat = 0xF4 := UInt8.toNat_inj.symm
  unfold isSecondOfFour
  simp only [first, last]
  split
  · simp only [Bool.and_eq_true, decide_eq_true_eq, UInt8.le_iff_toNat_le]
    show 144 ≤ b.toNat ∧ b.toNat ≤ 191 ↔ _
    omega
  split
  · simp only [Bool.and_eq_true, decide_eq_true_eq, UInt8.le_iff_toNat_le]
    show 128 ≤ b.toNat ∧ b.toNat ≤ 143 ↔ _
    omega
  · rw [isContinuation_iff]
    omega

/-- Whether a lead byte is in a range, in numbers. -/
theorem between_iff {low lead high : UInt8} :
    (decide (low ≤ lead) && decide (lead ≤ high)) = true ↔
      low.toNat ≤ lead.toNat ∧ lead.toNat ≤ high.toNat := by
  simp only [Bool.and_eq_true, decide_eq_true_eq, UInt8.le_iff_toNat_le]

/-- The four forms of a character at the front of a text, and its code. -/
inductive Front : UInt8 → Text → Nat → Nat → Prop
  | one {lead : UInt8} {rest : Text} (low : lead.toNat < 0x80) : Front lead rest lead.toNat 0
  | two {lead b : UInt8} {rest : Text} (range : 0xC2 ≤ lead.toNat ∧ lead.toNat ≤ 0xDF)
      (second : isContinuation b = true) :
      Front lead (b :: rest) (lead.toNat % 32 * 64 + payload b) 1
  | three {lead b c : UInt8} {rest : Text} (range : 0xE0 ≤ lead.toNat ∧ lead.toNat ≤ 0xEF)
      (second : isSecondOfThree lead b = true) (third : isContinuation c = true) :
      Front lead (b :: c :: rest) (lead.toNat % 16 * 4096 + payload b * 64 + payload c) 2
  | four {lead b c d : UInt8} {rest : Text} (range : 0xF0 ≤ lead.toNat ∧ lead.toNat ≤ 0xF4)
      (second : isSecondOfFour lead b = true) (third : isContinuation c = true)
      (fourth : isContinuation d = true) :
      Front lead (b :: c :: d :: rest)
        (lead.toNat % 8 * 262144 + payload b * 4096 + payload c * 64 + payload d) 3

section Front

variable {lead : UInt8} {t rest rest' behind : Text} {c : Char} {code more : Nat}

/-- Reading finds a character exactly where one of the forms stands. -/
theorem Front.decode (h : Front lead rest code more) :
    decode lead rest = (Char.ofNat code, more) := by
  cases h with
  | one low =>
      have small : lead < 0x80 := low
      simp [Text.decode, small]
  | two range second =>
      have high : ¬lead < 0x80 := by rw [UInt8.lt_iff_toNat_lt]; show ¬lead.toNat < 128; omega
      have isTwo := (@between_iff 0xC2 lead 0xDF).2 range
      simp only [Text.decode, high, isTwo, second, if_true, if_false]
  | three range second third =>
      have high : ¬lead < 0x80 := by rw [UInt8.lt_iff_toNat_lt]; show ¬lead.toNat < 128; omega
      have noTwo : ¬(decide (0xC2 ≤ lead) && decide (lead ≤ 0xDF)) = true := by
        rw [between_iff]; show ¬(194 ≤ lead.toNat ∧ lead.toNat ≤ 223); omega
      have isThree := (@between_iff 0xE0 lead 0xEF).2 range
      simp only [Text.decode, high, noTwo, isThree, second, third, if_true, if_false, Bool.and_self,
        Bool.false_eq_true]
  | four range second third fourth =>
      have high : ¬lead < 0x80 := by rw [UInt8.lt_iff_toNat_lt]; show ¬lead.toNat < 128; omega
      have noTwo : ¬(decide (0xC2 ≤ lead) && decide (lead ≤ 0xDF)) = true := by
        rw [between_iff]; show ¬(194 ≤ lead.toNat ∧ lead.toNat ≤ 223); omega
      have noThree : ¬(decide (0xE0 ≤ lead) && decide (lead ≤ 0xEF)) = true := by
        rw [between_iff]; show ¬(224 ≤ lead.toNat ∧ lead.toNat ≤ 239); omega
      have isFour := (@between_iff 0xF0 lead 0xF4).2 range
      simp only [Text.decode, high, noTwo, noThree, isFour, second, third, fourth, if_true,
        if_false, Bool.and_self, Bool.false_eq_true]

/-- Reading finds a character in one of its forms, or a byte that starts none. -/
theorem front_or_replacement (lead : UInt8) (rest : Text) :
    (∃ code more, Front lead rest code more) ∨ decode lead rest = (replacement, 0) := by
  unfold Text.decode
  split
  next low => exact .inl ⟨_, _, .one low⟩
  split
  next range =>
    split
    · split
      next second => exact .inl ⟨_, _, .two (between_iff.1 range) second⟩
      next => exact .inr rfl
    · exact .inr rfl
  split
  next range =>
    split
    · split
      next both =>
        have both := (Bool.and_eq_true _ _).mp both
        exact .inl ⟨_, _, .three (between_iff.1 range) both.1 both.2⟩
      next => exact .inr rfl
    · exact .inr rfl
  split
  next range =>
    split
    · split
      next all =>
        simp only [Bool.and_eq_true] at all
        exact .inl ⟨_, _, .four (between_iff.1 range) all.1.1 all.1.2 all.2⟩
      next => exact .inr rfl
    · exact .inr rfl
  · exact .inr rfl

theorem front_of_decode (h : decode lead rest = (c, more)) (found : c ≠ replacement) :
    ∃ code, c = Char.ofNat code ∧ Front lead rest code more := by
  obtain ⟨code, more', front⟩ | none := front_or_replacement lead rest
  · rw [front.decode] at h
    cases h
    exact ⟨code, rfl, front⟩
  · rw [none] at h
    cases h
    exact (found rfl).elim

/-- The bytes of a form are those of its character. -/
theorem Front.bytes (h : Front lead rest code more) :
    lead :: rest.take more = ofChar (Char.ofNat code) := by
  cases h with
  | one low =>
      have same : (Char.ofNat lead.toNat).toNat = lead.toNat := toNat_char (by omega)
      rw [ofChar_of_lt (by omega), same, UInt8.ofNat_toNat]
      rfl
  | @two b _ range second =>
      rw [isContinuation_iff] at second
      have code : (Char.ofNat (lead.toNat % 32 * 64 + payload b)).toNat = _ :=
        toNat_char (by unfold payload; omega)
      unfold payload at code ⊢
      rw [ofChar_two (by omega) (by omega), code, ← eq_byte (b := lead) (by omega),
        ← eq_byte (b := b) (by omega)]
      rfl
  | @three b c _ range second third =>
      rw [isSecondOfThree_iff] at second
      rw [isContinuation_iff] at third
      have code : (Char.ofNat (lead.toNat % 16 * 4096 + payload b * 64 + payload c)).toNat = _ :=
        toNat_char (by unfold payload; omega)
      unfold payload at code ⊢
      rw [ofChar_three (by omega) (by omega), code, ← eq_byte (b := lead) (by omega),
        ← eq_byte (b := b) (by omega), ← eq_byte (b := c) (by omega)]
      rfl
  | @four b c d _ range second third fourth =>
      rw [isSecondOfFour_iff] at second
      rw [isContinuation_iff] at third fourth
      have code : (Char.ofNat
          (lead.toNat % 8 * 262144 + payload b * 4096 + payload c * 64 + payload d)).toNat = _ :=
        toNat_char (by unfold payload; omega)
      unfold payload at code ⊢
      rw [ofChar_four (by omega), code, ← eq_byte (b := lead) (by omega),
        ← eq_byte (b := b) (by omega), ← eq_byte (b := c) (by omega),
        ← eq_byte (b := d) (by omega)]
      rfl

/-- A character stands in its form at the front of its bytes, whatever follows. -/
theorem front_ofChar (c : Char) (rest : Text) :
    ∃ lead more, ofChar c = lead :: more ∧ Front lead (more ++ rest) c.toNat more.length := by
  have valid : c.toNat < 0xD800 ∨ 0xDFFF < c.toNat ∧ c.toNat < 0x110000 := c.valid
  have byte {n : Nat} (small : n < 256) : ∃ b : UInt8, UInt8.ofNat n = b ∧ b.toNat = n :=
    ⟨_, rfl, UInt8.toNat_ofNat_of_lt' small⟩
  have last {n : Nat} : ∃ b : UInt8, UInt8.ofNat (n % 64 + 0x80) = b ∧ payload b = n % 64 ∧
      b.toNat = n % 64 + 0x80 := by
    obtain ⟨b, same, toNat⟩ := byte (n := n % 64 + 0x80) (by omega)
    exact ⟨b, same, by unfold payload; omega, toNat⟩
  by_cases one : c.toNat < 0x80
  · obtain ⟨lead, same, toNat⟩ := byte (n := c.toNat) (by omega)
    refine ⟨lead, [], by rw [ofChar_of_lt one, same], ?_⟩
    rw [← toNat]
    exact .one (by omega)
  by_cases two : c.toNat < 0x800
  · obtain ⟨lead, same, toNat⟩ := byte (n := c.toNat / 64 + 0xC0) (by omega)
    obtain ⟨b, same', value, toNat'⟩ := last (n := c.toNat)
    refine ⟨lead, [b], by rw [ofChar_two (by omega) two, same, same'], ?_⟩
    have code : c.toNat = lead.toNat % 32 * 64 + payload b := by omega
    rw [code]
    exact .two (by omega) (isContinuation_iff.2 (by omega))
  by_cases three : c.toNat < 0x10000
  · obtain ⟨lead, same, toNat⟩ := byte (n := c.toNat / 4096 + 0xE0) (by omega)
    obtain ⟨b, same', value, toNat'⟩ := last (n := c.toNat / 64)
    obtain ⟨d, same₃, value', toNat₃⟩ := last (n := c.toNat)
    refine ⟨lead, [b, d], by rw [ofChar_three (by omega) three, same, same', same₃], ?_⟩
    have code : c.toNat = lead.toNat % 16 * 4096 + payload b * 64 + payload d := by omega
    rw [code]
    exact .three (by omega) (isSecondOfThree_iff.2 (by omega)) (isContinuation_iff.2 (by omega))
  · obtain ⟨lead, same, toNat⟩ := byte (n := c.toNat / 262144 + 0xF0) (by omega)
    obtain ⟨b, same', value, toNat'⟩ := last (n := c.toNat / 4096)
    obtain ⟨d, same₃, value', toNat₃⟩ := last (n := c.toNat / 64)
    obtain ⟨e, same₄, value₃, toNat₄⟩ := last (n := c.toNat)
    refine ⟨lead, [b, d, e], by rw [ofChar_four (by omega), same, same', same₃, same₄], ?_⟩
    have code : c.toNat =
        lead.toNat % 8 * 262144 + payload b * 4096 + payload d * 64 + payload e := by omega
    rw [code]
    exact .four (by omega) (isSecondOfFour_iff.2 (by omega)) (isContinuation_iff.2 (by omega))
      (isContinuation_iff.2 (by omega))

theorem decode_ofChar (c : Char) (rest : Text) :
    ∃ lead more, ofChar c = lead :: more ∧ decode lead (more ++ rest) = (c, more.length) := by
  obtain ⟨lead, more, same, front⟩ := front_ofChar c rest
  exact ⟨lead, more, same, by rw [front.decode, Char.ofNat_toNat]⟩

theorem ofChar_of_decode (h : decode lead rest = (c, more)) (found : c ≠ replacement) :
    lead :: rest.take more = ofChar c := by
  obtain ⟨code, rfl, front⟩ := front_of_decode h found
  exact front.bytes

/-- What a character is does not depend on the bytes behind it. -/
theorem Front.append (h : Front lead rest code more) (behind : Text) :
    Front lead (rest ++ behind) code more := by
  cases h with
  | one low => exact .one low
  | two range second => exact .two range second
  | three range second third => exact .three range second third
  | four range second third fourth => exact .four range second third fourth

theorem Front.of_append (h : Front lead (rest ++ behind) code more) (inside : more ≤ rest.length) :
    Front lead rest code more := by
  generalize whole : rest ++ behind = t at h
  cases h with
  | one low => exact .one low
  | two range second =>
      match rest, inside with
      | b :: rest, _ =>
          cases whole
          exact .two range second
  | three range second third =>
      match rest, inside with
      | b :: c :: rest, _ =>
          cases whole
          exact .three range second third
  | four range second third fourth =>
      match rest, inside with
      | b :: c :: d :: rest, _ =>
          cases whole
          exact .four range second third fourth

/-- Cutting a text behind a character, or behind a byte that starts none, leaves it as it is. -/
theorem decode_of_append (h : decode lead (rest ++ behind) = (c, more))
    (inside : more ≤ rest.length) : decode lead rest = (c, more) := by
  obtain ⟨code, more', front⟩ | none := front_or_replacement lead (rest ++ behind)
  · rw [front.decode] at h
    cases h
    exact (front.of_append inside).decode
  · obtain ⟨code, more', front⟩ | none' := front_or_replacement lead rest
    · rw [front.decode, ← (front.append behind).decode, h]
    · rw [none', ← none, h]

theorem le_length_of_decode (h : decode lead rest = (c, more)) : more ≤ rest.length := by
  obtain ⟨code, more', front⟩ | none := front_or_replacement lead rest
  · rw [front.decode] at h
    cases h
    cases front <;> simp
  · rw [none] at h
    cases h
    exact Nat.zero_le _

/-- The bytes of a form behind its first one continue a character, and its first one does not. -/
theorem Front.continues (h : Front lead rest code more) :
    isContinuation lead = false ∧ ∀ b ∈ rest.take more, isContinuation b = true := by
  have first : isContinuation lead = false := by
    rw [Bool.eq_false_iff, Ne, isContinuation_iff]
    cases h <;> omega
  refine ⟨first, ?_⟩
  cases h with
  | one => simp
  | two _ second => simpa using second
  | three _ second third =>
      have second := isContinuation_iff.2 ⟨(isSecondOfThree_iff.1 second).1,
        (isSecondOfThree_iff.1 second).2.1⟩
      simp [second, third]
  | four _ second third fourth =>
      have second := isContinuation_iff.2 ⟨(isSecondOfFour_iff.1 second).1,
        (isSecondOfFour_iff.1 second).2.1⟩
      simp [second, third, fourth]

theorem Front.more_le (h : Front lead rest code more) : more ≤ 3 := by
  cases h <;> decide

/-- A text that does not start inside a character. -/
def Starts (t : Text) : Prop := ∀ b ∈ t.head?, isContinuation b = false

theorem Starts.of_lt (low : ∀ b ∈ t.head?, b.toNat < 128) : Starts t := by
  intro b first
  have := low b first
  rw [Bool.eq_false_iff, Ne, isContinuation_iff]
  omega

/-- A form that reaches beyond the end of a text goes on with a byte that continues it. -/
theorem Front.not_starts (h : Front lead (rest ++ behind) code more) (beyond : rest.length < more) :
    ¬Starts behind := by
  intro starts
  cases behind with
  | nil =>
      have inside := le_length_of_decode h.decode
      rw [List.append_nil] at inside
      omega
  | cons b behind =>
      have mem : b ∈ (rest ++ b :: behind).take more := by
        obtain ⟨k, rfl⟩ : ∃ k, more = rest.length + (k + 1) := ⟨more - rest.length - 1, by omega⟩
        rw [List.take_length_add_append, List.take_succ_cons]
        exact List.mem_append_right _ List.mem_cons_self
      have continues := h.continues.2 b mem
      rw [starts b rfl] at continues
      cases continues

/-- What stands at the front of a text stays as it is when something is added that starts anew. -/
theorem decode_append {behind : Text} (starts : Starts behind) (lead : UInt8) (rest : Text) :
    decode lead (rest ++ behind) = decode lead rest := by
  obtain ⟨code, more, front⟩ | none := front_or_replacement lead rest
  · rw [front.decode, (front.append behind).decode]
  obtain ⟨code, more, front⟩ | none' := front_or_replacement lead (rest ++ behind)
  · rcases Nat.lt_or_ge rest.length more with beyond | inside
    · exact absurd starts (front.not_starts beyond)
    · rw [front.decode, (front.of_append inside).decode]
  · rw [none, none']

/-- A byte from 128 on belongs to a character from 128 on, and so do the bytes behind it that the
character takes. -/
theorem le_of_decode (h : decode lead rest = (c, more)) (high : 128 ≤ lead.toNat) :
    128 ≤ c.toNat ∧ ∀ b ∈ rest.take more, 128 ≤ b.toNat := by
  obtain ⟨code, more', front⟩ | none := front_or_replacement lead rest
  · rw [front.decode] at h
    cases h
    have bytes := front.bytes
    generalize Char.ofNat code = c at bytes
    have large : 128 ≤ c.toNat := by
      rcases Nat.lt_or_ge c.toNat 128 with low | large
      · rw [ofChar_of_lt low] at bytes
        obtain ⟨rfl, -⟩ := List.cons.inj bytes
        rw [UInt8.toNat_ofNat_of_lt' (show _ < 256 by omega)] at high
        exact high
      · exact large
    refine ⟨large, fun b mem => ?_⟩
    exact le_of_mem_ofChar large (bytes ▸ List.mem_cons_of_mem _ mem)
  · rw [none] at h
    cases h
    exact ⟨by decide, fun b mem => by cases mem⟩

/-- What the first bytes of a text say about its first character, the rest does not change. -/
theorem Front.of_take (h : Front lead rest code more) (same : rest'.take more = rest.take more) :
    Front lead rest' code more := by
  have inside : more ≤ (rest.take more).length := by
    have := le_length_of_decode h.decode
    rw [List.length_take]
    omega
  have short : Front lead (rest.take more) code more := by
    rw [← List.take_append_drop more rest] at h
    exact h.of_append inside
  rw [← List.take_append_drop more rest', same]
  exact short.append _

/-- The bytes from 128 on at the front of a text. -/
def highFront (t : Text) : Text := t.takeWhile fun b => 128 ≤ b.toNat

theorem highFront_cons {b : UInt8} (high : 128 ≤ b.toNat) (t : Text) :
    highFront (b :: t) = b :: highFront t :=
  List.takeWhile_cons_of_pos (by simpa using high)

theorem highFront_cons_of_lt {b : UInt8} (low : b.toNat < 128) (t : Text) :
    highFront (b :: t) = [] :=
  List.takeWhile_cons_of_neg (by simpa using low)

theorem highFront_append (high : ∀ b ∈ t, 128 ≤ b.toNat) (behind : Text) :
    highFront (t ++ behind) = t ++ highFront behind :=
  List.takeWhile_append_of_pos fun b mem => by simpa using high b mem

theorem take_of_highFront {t t' : Text} {n : Nat} (same : highFront t' = highFront t)
    (inside : n ≤ t.length) (high : ∀ b ∈ t.take n, 128 ≤ b.toNat) : t'.take n = t.take n := by
  have front : t.take n <+: highFront t := by
    conv => rhs; rw [← List.take_append_drop n t, highFront_append high]
    exact List.prefix_append _ _
  have within : t.take n <+: t' := by
    rw [← same] at front
    exact front.trans (List.takeWhile_prefix _)
  rw [List.prefix_iff_eq_take, List.length_take, Nat.min_eq_left inside] at within
  exact within.symm

/-- A character of several bytes depends on bytes from 128 on only. -/
theorem decode_congr (high : 128 ≤ lead.toNat) (same : highFront rest' = highFront rest) :
    decode lead rest' = decode lead rest := by
  have kept {t t' : Text} {code more : Nat} (same : highFront t' = highFront t)
      (front : Front lead t code more) : Front lead t' code more :=
    front.of_take (take_of_highFront same (le_length_of_decode front.decode)
      (le_of_decode front.decode high).2)
  obtain ⟨code, more, front⟩ | none := front_or_replacement lead rest
  · rw [(kept same front).decode, front.decode]
  · obtain ⟨code, more, front⟩ | none' := front_or_replacement lead rest'
    · rw [(kept same.symm front).decode, front.decode]
    · rw [none, none']

end Front

/-- A change of bytes that acts on characters: it leaves bytes from 128 on as they are and makes no
others of that kind. -/
structure ActsAs (f : UInt8 → UInt8) (g : Char → Char) : Prop where
  high : ∀ {b : UInt8}, 128 ≤ b.toNat → f b = b
  low : ∀ {b : UInt8}, b.toNat < 128 → (f b).toNat < 128
  char : ∀ {b : UInt8}, b.toNat < 128 → Char.ofNat (f b).toNat = g (Char.ofNat b.toNat)
  highChar : ∀ {c : Char}, 128 ≤ c.toNat → g c = c

theorem ActsAs.highFront_map {f : UInt8 → UInt8} {g : Char → Char} (h : ActsAs f g) (t : Text) :
    highFront (t.map f) = highFront t := by
  induction t with
  | nil => rfl
  | cons b t ih =>
      rw [List.map_cons]
      rcases Nat.lt_or_ge b.toNat 128 with low | high
      · rw [highFront_cons_of_lt (h.low low), highFront_cons_of_lt low]
      · rw [h.high high, highFront_cons high, highFront_cons high, ih]

theorem ActsAs.charsAfter_map {f : UInt8 → UInt8} {g : Char → Char} (h : ActsAs f g) (skip : Nat)
    (t : Text) : charsAfter skip (t.map f) = (charsAfter skip t).map g := by
  induction t generalizing skip with
  | nil => cases skip <;> rfl
  | cons b t ih =>
      cases skip with
      | succ skip => exact ih skip
      | zero =>
          rw [List.map_cons, charsAfter, charsAfter, List.map_cons, ih]
          rcases Nat.lt_or_ge b.toNat 128 with low | high
          · rw [(Front.one low).decode, (Front.one (h.low low)).decode, h.char low]
          · have stays : g (decode b t).1 = (decode b t).1 :=
              h.highChar (le_of_decode (Prod.eta (decode b t)).symm high).1
            rw [h.high high, decode_congr high (h.highFront_map t), stays]

/-- A change of bytes that acts on characters changes the characters of a text one by one. -/
theorem ActsAs.chars_map {f : UInt8 → UInt8} {g : Char → Char} (h : ActsAs f g) (t : Text) :
    chars (t.map f) = (chars t).map g :=
  h.charsAfter_map 0 t

theorem ofChars_append (cs cs' : List Char) : ofChars (cs ++ cs') = ofChars cs ++ ofChars cs' :=
  List.flatMap_append

theorem ofChars_cons (c : Char) (cs : List Char) : ofChars (c :: cs) = ofChar c ++ ofChars cs :=
  List.flatMap_cons

theorem charsAfter_append (more rest : Text) :
    charsAfter more.length (more ++ rest) = charsAfter 0 rest := by
  induction more with
  | nil => rfl
  | cons b more ih => exact ih

/-- Characters survive being written as bytes. -/
theorem chars_ofChars (cs : List Char) : chars (ofChars cs) = cs := by
  induction cs with
  | nil => rfl
  | cons c cs ih =>
      obtain ⟨lead, more, same, read⟩ := decode_ofChar c (ofChars cs)
      rw [ofChars_cons, same, List.cons_append, chars, charsAfter, read]
      exact congrArg (c :: ·) ((charsAfter_append more _).trans ih)

end PrgScript.Text

namespace PrgScript.Glyph

open Text

/-- The glyph of a character that is written with the bytes of the character alone. -/
def plain (c : Char) : Glyph := ⟨c, ofChar c⟩

@[simp] theorem plain_char (c : Char) : (plain c).char = c := rfl

theorem text_plain (cs : List Char) : text (cs.map plain) = ofChars cs := by
  rw [text, List.flatMap_map]
  rfl

theorem glyphsAfter_append (more rest : Text) :
    glyphsAfter more.length (more ++ rest) = glyphsAfter 0 rest := by
  induction more with
  | nil => rfl
  | cons b more ih => exact ih

/-- Characters without a carriage return are read as they were written, whatever follows. -/
theorem ofText_ofChars_append {cs : List Char} (plain_ : '\r' ∉ cs) (rest : Text) :
    ofText (ofChars cs ++ rest) = cs.map plain ++ ofText rest := by
  induction cs with
  | nil => rfl
  | cons c cs ih =>
      obtain ⟨other, others⟩ : c ≠ '\r' ∧ '\r' ∉ cs := by
        simpa [eq_comm] using plain_
      obtain ⟨lead, more, same, read⟩ := decode_ofChar c (ofChars cs ++ rest)
      have noReturn : lead ≠ carriageReturn := by
        rintro rfl
        have code := toNat_of_mem_ofChar (same ▸ List.mem_cons_self) (by decide)
        exact other (Char.toNat_inj.1 code)
      rw [ofChars_cons, List.append_assoc, same, List.cons_append, ofText, glyphsAfter]
      simp only [noReturn, decide_false, Bool.false_and, Bool.false_eq_true, if_false, read,
        List.take_left, glyphsAfter_append]
      rw [show glyphsAfter 0 (ofChars cs ++ rest) = _ from ih others, ← same]
      rfl

/-- A glyph that stands for neither a line end nor an invalid byte has the bytes of its
character. -/
theorem bytes_of_mem {t : Text} {g : Glyph} (h : g ∈ ofText t) (valid : g.char ≠ replacement)
    (inLine : g.char ≠ '\n') : g.bytes = ofChar g.char := by
  suffices ∀ skip, g ∈ glyphsAfter skip t → g.bytes = ofChar g.char from this 0 h
  clear h
  intro skip mem
  fun_induction glyphsAfter skip t with
  | case1 => cases mem
  | case2 skip b t ih => exact ih mem
  | case3 b t _ ih =>
      rcases List.mem_cons.1 mem with rfl | mem
      · exact (inLine rfl).elim
      · exact ih mem
  | case4 b t _ char more read ih =>
      rcases List.mem_cons.1 mem with rfl | mem
      · exact ofChar_of_decode read valid
      · exact ih mem

/-! ### The first glyph of a text -/

/-- A glyph and a text that its bytes stand before, where reading finds it. -/
inductive Leads : Glyph → Text → Prop
  | pair (t : Text) : Leads ⟨'\n', [carriageReturn, newline]⟩ t
  | char {b : UInt8} {more t : Text} {c : Char}
      (alone : ¬(b = carriageReturn ∧ (more ++ t).head? = some newline))
      (read : decode b (more ++ t) = (c, more.length)) : Leads ⟨c, b :: more⟩ t

variable {g : Glyph} {t behind : Text} {gs rest : List Glyph}

theorem Leads.ofText (h : Leads g t) : ofText (g.bytes ++ t) = g :: ofText t := by
  cases h with
  | pair => rfl
  | @char b more t c alone read =>
      rw [Glyph.ofText, List.cons_append, glyphsAfter, if_neg (by simpa using alone), read]
      simp only [List.take_left, glyphsAfter_append]
      rfl

theorem Leads.bytes_ne_nil (h : Leads g t) : g.bytes ≠ [] := by
  cases h <;> exact List.cons_ne_nil _ _

theorem exists_leads (b : UInt8) (t : Text) :
    ∃ g rest, Leads g rest ∧ b :: t = g.bytes ++ rest := by
  by_cases isPair : b = carriageReturn ∧ t.head? = some newline
  · obtain ⟨rfl, next⟩ := isPair
    obtain ⟨rest, rfl⟩ := List.head?_eq_some_iff.1 next
    exact ⟨_, rest, .pair rest, rfl⟩
  · cases read : decode b t with
    | mk c more =>
        have whole : t.take more ++ t.drop more = t := List.take_append_drop more t
        have length : (t.take more).length = more :=
          List.length_take_of_le (le_length_of_decode read)
        refine ⟨⟨c, b :: t.take more⟩, t.drop more, .char ?_ ?_, by rw [List.cons_append, whole]⟩
        · rwa [whole]
        · rw [whole, length, read]

/-- Induction on the glyphs of a text. -/
theorem text_induction {motive : Text → Prop} (nil : motive [])
    (cons : ∀ g t, Leads g t → motive t → motive (g.bytes ++ t)) (t : Text) : motive t := by
  induction h : t.length using Nat.strongRecOn generalizing t with
  | ind n ih =>
      cases t with
      | nil => exact nil
      | cons b t =>
          obtain ⟨g, rest, leads, same⟩ := exists_leads b t
          have shorter : rest.length < n := by
            have length := congrArg List.length same
            have taken := leads.bytes_ne_nil
            rw [List.length_append, h] at length
            have := List.length_pos_iff.2 taken
            omega
          rw [same]
          exact cons g rest leads (ih _ shorter rest rfl)

@[simp] theorem text_nil : text [] = [] := rfl

@[simp] theorem text_cons (g : Glyph) (gs : List Glyph) : text (g :: gs) = g.bytes ++ text gs := rfl

@[simp] theorem text_append (gs gs' : List Glyph) : text (gs ++ gs') = text gs ++ text gs' :=
  List.flatMap_append

/-- The glyphs of a text are written with its bytes. -/
@[simp] theorem text_ofText (t : Text) : text (ofText t) = t := by
  induction t using text_induction with
  | nil => rfl
  | cons g t leads ih => rw [leads.ofText, text_cons, ih]

/-- The first glyph that is read leads. -/
theorem leads_of_ofText (h : ofText t = g :: gs) :
    ∃ rest, Leads g rest ∧ t = g.bytes ++ rest ∧ ofText rest = gs := by
  cases t with
  | nil => cases h
  | cons b t =>
      obtain ⟨g', rest, leads, same⟩ := exists_leads b t
      rw [same, leads.ofText] at h
      obtain ⟨rfl, rfl⟩ := List.cons.inj h
      exact ⟨rest, leads, same, rfl⟩

/-- A text may be cut between two of its glyphs: what follows is read as before. -/
theorem ofText_text_of_append (h : ofText t = gs ++ rest) : ofText (text rest) = rest := by
  induction gs generalizing t with
  | nil =>
      rw [List.nil_append] at h
      rw [← h, text_ofText]
  | cons g gs ih =>
      obtain ⟨behind, -, -, same⟩ := leads_of_ofText h
      exact ih same

/-- Glyphs without a line end are the characters of their bytes, whatever they stand before. -/
theorem chars_text (h : ofText t = gs ++ rest) (inLine : ∀ g ∈ gs, g.char ≠ '\n') :
    chars (text gs) = gs.map (·.char) := by
  induction gs generalizing t with
  | nil => rfl
  | cons g gs ih =>
      rw [List.cons_append] at h
      obtain ⟨behind, leads, -, same⟩ := leads_of_ofText h
      rw [List.forall_mem_cons] at inLine
      have whole : behind = text gs ++ text rest := by rw [← text_ofText behind, same, text_append]
      cases leads with
      | pair => exact absurd rfl inLine.1
      | @char b more t c alone read =>
          rw [whole, ← List.append_assoc] at read
          have kept := decode_of_append read (by simp)
          rw [text_cons, List.cons_append, chars, charsAfter, kept, charsAfter_append,
            List.map_cons]
          exact congrArg (c :: ·) (ih same inLine.2)

theorem single_of_decode {b : UInt8} {more t : Text} {c : Char} (low : b.toNat < 128)
    (read : decode b (more ++ t) = (c, more.length)) : c = Char.ofNat b.toNat ∧ more = [] := by
  obtain ⟨same, none⟩ := Prod.mk.inj (read.symm.trans (Front.one low).decode)
  exact ⟨same, List.eq_nil_of_length_eq_zero none⟩

/-- A glyph is a pair of bytes that ends a line, a single byte below 128, or has only bytes from
128 on. -/
theorem Leads.shape (h : Leads g t) :
    g = ⟨'\n', [carriageReturn, newline]⟩ ∨
      (∃ b : UInt8, b.toNat < 128 ∧ g = ⟨Char.ofNat b.toNat, [b]⟩) ∨
      128 ≤ g.char.toNat ∧ ∀ b ∈ g.bytes, 128 ≤ b.toNat := by
  cases h with
  | pair => exact .inl rfl
  | @char b more t c alone read =>
      rcases Nat.lt_or_ge b.toNat 128 with low | high
      · obtain ⟨rfl, rfl⟩ := single_of_decode low read
        exact .inr (.inl ⟨b, low, rfl⟩)
      · have large := le_of_decode read high
        rw [List.take_left] at large
        exact .inr (.inr ⟨large.1, List.forall_mem_cons.2 ⟨high, large.2⟩⟩)

/-- A glyph that ends no line has the bytes of its character, or it is one byte that starts no
character. -/
theorem Leads.bytes_cases (h : Leads g t) (inLine : g.char ≠ '\n') :
    g.bytes = ofChar g.char ∨ g.char = replacement ∧ ∃ b, g.bytes = [b] := by
  cases h with
  | pair => exact absurd rfl inLine
  | @char b more t c alone read =>
      obtain ⟨code, number, front⟩ | none := front_or_replacement b (more ++ t)
      · obtain ⟨rfl, rfl⟩ := Prod.mk.inj (front.decode.symm.trans read)
        have bytes := front.bytes
        rw [List.take_left] at bytes
        exact .inl bytes
      · obtain ⟨rfl, single⟩ := Prod.mk.inj (none.symm.trans read)
        rw [List.length_eq_zero_iff.1 single.symm]
        exact .inr ⟨rfl, b, rfl⟩

/-- A glyph that ends a line ends with a line feed, and has no other. -/
theorem Leads.bytes_of_newline (h : Leads g t) (isEnd : g.char = '\n') :
    g.bytes = [newline] ∨ g.bytes = [carriageReturn, newline] := by
  obtain rfl | ⟨b, low, rfl⟩ | ⟨high, -⟩ := h.shape
  · exact .inr rfl
  · have code : (Char.ofNat b.toNat).toNat = b.toNat := toNat_char (by omega)
    rw [show Char.ofNat b.toNat = '\n' from isEnd] at code
    exact .inl (congrArg ([·]) (UInt8.toNat_inj.1 code.symm))
  · rw [isEnd] at high
    exact absurd high (by decide)

theorem Leads.newline_not_mem (h : Leads g t) (inLine : g.char ≠ '\n') : newline ∉ g.bytes := by
  intro mem
  obtain rfl | ⟨b, low, rfl⟩ | ⟨-, high⟩ := h.shape
  · exact inLine rfl
  · cases List.mem_singleton.1 mem
    exact inLine rfl
  · exact absurd (high _ mem) (by decide)

/-- A glyph leads every text with the same bytes from 128 on at its front, unless the two make up a
line end. -/
theorem Leads.congr {t t' : Text} (h : Leads g t) (same : highFront t' = highFront t)
    (alone : g.bytes = [carriageReturn] → t'.head? ≠ some newline) : Leads g t' := by
  cases h with
  | pair => exact .pair t'
  | @char b more t c _ read =>
      rcases Nat.lt_or_ge b.toNat 128 with low | high
      · obtain ⟨rfl, rfl⟩ := single_of_decode low read
        refine .char ?_ (Front.one low).decode
        rintro ⟨rfl, feed⟩
        exact alone rfl feed
      · have bytes := (le_of_decode read high).2
        rw [List.take_left] at bytes
        refine .char ?_ ?_
        · rintro ⟨rfl, -⟩
          exact absurd high (by decide)
        · rw [← read]
          apply decode_congr high
          rw [highFront_append bytes, highFront_append bytes, same]

theorem Leads.alone {c : Char} {b : UInt8} (h : Leads ⟨c, [b]⟩ t) :
    ¬(b = carriageReturn ∧ t.head? = some newline) := by
  cases h with
  | char alone => exact alone

/-- A glyph still leads what is left of a text that is cut. -/
theorem Leads.of_append (h : Leads g (t ++ behind)) : Leads g t := by
  generalize whole : t ++ behind = u at h
  cases h with
  | pair => exact .pair t
  | @char b more u c alone read =>
      rw [← whole, ← List.append_assoc] at alone read
      refine .char ?_ (decode_of_append read (by simp))
      rintro ⟨isReturn, feed⟩
      exact alone ⟨isReturn, by rw [List.head?_append, feed, Option.some_or]⟩

/-- A text may be cut between two of its glyphs: what stands before is read as before. -/
theorem ofText_text_left (h : ofText t = gs ++ rest) : ofText (text gs) = gs := by
  induction gs generalizing t with
  | nil => rfl
  | cons g gs ih =>
      rw [List.cons_append] at h
      obtain ⟨behind, leads, -, same⟩ := leads_of_ofText h
      have whole : behind = text gs ++ text rest := by rw [← text_ofText behind, same, text_append]
      rw [whole] at leads
      rw [text_cons, leads.of_append.ofText, ih same]

/-- Two texts that do not share a pair of bytes that ends a line. -/
def Uncut (t behind : Text) : Prop :=
  ¬(t.getLast? = some carriageReturn ∧ behind.head? = some newline)

instance (t behind : Text) : Decidable (Uncut t behind) := inferInstanceAs (Decidable ¬_)

theorem Uncut.of_append {t u behind : Text} (h : Uncut (t ++ u) behind) : Uncut u behind := by
  rintro ⟨isReturn, feed⟩
  exact h ⟨by rw [List.getLast?_append, isReturn, Option.some_or], feed⟩

theorem head?_append_cases {b : UInt8} (h : (t ++ behind).head? = some b) :
    t.head? = some b ∨ t = [] ∧ behind.head? = some b := by
  cases t with
  | nil => exact .inr ⟨rfl, h⟩
  | cons => exact .inl h

/-- A glyph leads what it led, with something added that starts anew. -/
theorem Leads.append (h : Leads g t) (starts : Starts behind)
    (uncut : Uncut (g.bytes ++ t) behind) : Leads g (t ++ behind) := by
  cases h with
  | pair => exact .pair _
  | @char b more t c alone read =>
      refine .char ?_ (by rw [← List.append_assoc, decode_append starts, read])
      rintro ⟨rfl, feed⟩
      rw [← List.append_assoc] at feed
      obtain ahead | ⟨none, feed⟩ := head?_append_cases feed
      · exact alone ⟨rfl, ahead⟩
      · exact uncut ⟨by rw [List.cons_append, none]; rfl, feed⟩

/-- Texts are read one after the other if the second one does not start inside a character or a
line end. -/
theorem ofText_append_of_starts (starts : Starts behind) (uncut : Uncut t behind) :
    ofText (t ++ behind) = ofText t ++ ofText behind := by
  induction t using text_induction with
  | nil => rfl
  | cons g t leads ih =>
      rw [List.append_assoc, (leads.append starts uncut).ofText, ih uncut.of_append, leads.ofText,
        List.cons_append]

theorem ofText_append (low : ∀ b ∈ behind.head?, b.toNat < 128) (uncut : Uncut t behind) :
    ofText (t ++ behind) = ofText t ++ ofText behind :=
  ofText_append_of_starts (.of_lt low) uncut

end PrgScript.Glyph
