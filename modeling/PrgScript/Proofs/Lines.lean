import PrgScript.Proofs.Paths
import PrgScript.Proofs.Position

/-!
# Lines of a file

A file looks up in the index of its line feeds where an offset lies and what a line
holds. Both answers are those of reading its content from the left: places are counted
out, and lines are the pieces between the line feeds. The search in the index is told
round by round by `Narrows`. A round has to find the entry that it reads, so a search
that comes to a result has read nothing outside the index.
-/

namespace PrgScript

open Text

/-! ### Pieces of a text -/

namespace Text

variable {s : UInt8} {t : Text}

theorem length_splitOn (t : Text) : (splitOn s t).length = t.count s + 1 := by
  induction t with
  | nil => rfl
  | cons b t ih =>
      by_cases same : b = s
      · subst same
        rw [splitOn_cons_separator, List.length_cons, ih, List.count_cons_self]
      · obtain ⟨piece, pieces, some⟩ := List.exists_cons_of_ne_nil (@splitOn_ne_nil s t)
        rw [splitOn_cons_of_ne same some, List.count_cons_of_ne same, ← ih, some]
        rfl

/-- A text is one piece, or its first piece ends at a separator and the others follow. -/
theorem splitOn_first (s : UInt8) (t : Text) :
    splitOn s t = [t] ∨
      ∃ first rest, s ∉ first ∧ t = first ++ s :: rest ∧ splitOn s t = first :: splitOn s rest := by
  by_cases mem : s ∈ t
  · obtain ⟨first, rest, rfl, free⟩ := List.eq_append_cons_of_mem mem
    exact .inr ⟨first, rest, free, rfl, by rw [splitOn_append, splitOn_of_not_mem free]; rfl⟩
  · exact .inl (splitOn_of_not_mem mem)

/-- As many separators as its number stand before a piece. It reaches from the start or a
separator to a separator or the end. -/
theorem exists_of_getElem?_splitOn {n : Nat} {piece : Text} (h : (splitOn s t)[n]? = some piece) :
    ∃ before behind, t = before ++ (piece ++ behind) ∧ before.count s = n ∧
      (before = [] ∨ ∃ lines, before = lines ++ [s]) ∧
      (behind = [] ∨ ∃ rest, behind = s :: rest) := by
  induction n generalizing t with
  | zero =>
      obtain one | ⟨first, rest, -, rfl, pieces⟩ := splitOn_first s t
      · rw [one] at h
        cases h
        exact ⟨[], [], (List.append_nil _).symm, rfl, .inl rfl, .inl rfl⟩
      · rw [pieces] at h
        cases h
        exact ⟨[], s :: rest, rfl, rfl, .inl rfl, .inr ⟨rest, rfl⟩⟩
  | succ n ih =>
      obtain one | ⟨first, rest, free, rfl, pieces⟩ := splitOn_first s t
      · rw [one] at h
        cases h
      · rw [pieces] at h
        obtain ⟨before, behind, rfl, count, starts, stops⟩ := ih h
        refine ⟨first ++ s :: before, behind, by simp, ?_, .inr ?_, stops⟩
        · rw [List.count_append, List.count_cons_self, List.count_eq_zero_of_not_mem free, count,
            Nat.zero_add]
        · rcases starts with rfl | ⟨lines, rfl⟩
          · exact ⟨first, rfl⟩
          · exact ⟨first ++ s :: lines, by simp⟩

theorem dropEnding_singleton (b : UInt8) (t : Text) :
    dropEnding [b] t = if t.getLast? = some b then t.dropLast else t := by
  have ends : [b].isSuffixOf t ↔ t.getLast? = some b := by
    rw [List.isSuffixOf_iff_suffix]
    rcases List.eq_nil_or_concat t with rfl | ⟨init, last, rfl⟩ <;> simp [eq_comm]
  rw [dropEnding, List.dropLast_eq_take]
  simp only [ends, List.length_singleton]

theorem length_charsAfter_le (skip : Nat) (t : Text) : (charsAfter skip t).length ≤ t.length := by
  induction t generalizing skip with
  | nil => cases skip <;> exact Nat.le_refl 0
  | cons b t ih =>
      cases skip with
      | zero => exact Nat.succ_le_succ (ih _)
      | succ skip => exact Nat.le_succ_of_le (ih skip)

theorem length_lastLine_le (t : Text) : (lastLine t).length ≤ t.length := by
  obtain ⟨lines, same⟩ := exists_append_afterLast (· == newline) t
  have length := congrArg List.length same
  rw [List.length_append] at length
  exact length ▸ Nat.le_add_left _ _

end Text

namespace File

variable {file : File}

/-! ### The search in the index -/

/-- The rounds of a search for an offset between two bounds, and what is found. A round reads the
entry in the middle and goes on behind it or before it. -/
inductive Narrows (index : Array Nat) (offset : Nat) : Nat → Nat → Nat → Nat → Prop
  | found {low high : Nat} (closed : high ≤ low) : Narrows index offset low high 0 low
  | behind {low high entry rounds n : Nat} (opened : low < high)
      (read : index[(low + high) / 2]? = some entry) (less : entry < offset)
      (rest : Narrows index offset ((low + high) / 2 + 1) high rounds n) :
      Narrows index offset low high (rounds + 1) n
  | before {low high entry rounds n : Nat} (opened : low < high)
      (read : index[(low + high) / 2]? = some entry) (notLess : offset ≤ entry)
      (rest : Narrows index offset low ((low + high) / 2) rounds n) :
      Narrows index offset low high (rounds + 1) n

theorem log2_lt_of_halved {m n : Nat} (pos : n ≠ 0) (h : 2 * m ≤ n) :
    (2 * m).log2 < (2 * n).log2 := by
  rw [Nat.log2_two_mul pos, Nat.lt_succ_iff]
  by_cases none : m = 0
  · exact none ▸ Nat.zero_le _
  · exact (Nat.le_log2 pos).2 (Nat.le_trans (Nat.log2_self_le (by omega)) h)

theorem narrows_entriesBefore (index : Array Nat) (offset low high : Nat) (h : high ≤ index.size) :
    ∃ rounds ≤ (2 * (high - low)).log2,
      Narrows index offset low high rounds (entriesBefore index offset low high h) := by
  fun_induction entriesBefore index offset low high h with
  | case1 low high h hlt middle inside less ih =>
      obtain ⟨rounds, few, rest⟩ := ih
      refine ⟨rounds + 1, Nat.lt_of_le_of_lt few (log2_lt_of_halved ?_ ?_),
        .behind hlt (Array.getElem?_eq_getElem inside) less rest⟩
      all_goals omega
  | case2 low high h hlt middle inside notLess ih =>
      obtain ⟨rounds, few, rest⟩ := ih
      refine ⟨rounds + 1, Nat.lt_of_le_of_lt few (log2_lt_of_halved ?_ ?_),
        .before hlt (Array.getElem?_eq_getElem inside) (Nat.le_of_not_lt notLess) rest⟩
      all_goals omega
  | case3 low high h notLess => exact ⟨0, Nat.zero_le _, .found (Nat.le_of_not_lt notLess)⟩

/-! ### Lines by their numbers -/

theorem line_of_getElem?_splitOn {n : Nat} {piece : Text}
    (h : (splitOn newline file.content)[n]? = some piece) :
    file.line (n + 1) = dropEnding [carriageReturn] piece := by
  obtain ⟨before, behind, whole, count, starts, stops⟩ := exists_of_getElem?_splitOn h
  have free := List.count_eq_zero_of_not_mem (not_mem_of_mem_splitOn (List.mem_of_getElem? h))
  have size : file.lineFeeds.size = n + behind.count newline := by
    rw [size_lineFeeds, whole, List.count_append, List.count_append, free, count, Nat.zero_add]
  -- The entry before its number ends the line before a piece; the entry with its number ends it.
  have start : (if n + 1 = 1 then 0 else (file.lineFeeds[n - 1]?).elim 0 (· + 1)) =
      before.length := by
    rcases starts with rfl | ⟨lines, rfl⟩
    · rw [← count]
      rfl
    · have last : file.lineFeeds[lines.count newline]? = some lines.length :=
        getElem?_lineFeeds (by rw [whole, List.append_assoc]; rfl)
      have next : n = lines.count newline + 1 := by
        rw [← count, List.count_append, List.count_singleton_self]
      rw [next, if_neg (by omega), Nat.add_sub_cancel, last, List.length_append]
      rfl
  have stop : (file.lineFeeds[n]?).getD file.content.length = before.length + piece.length := by
    rw [← List.length_append]
    rcases stops with rfl | ⟨rest, rfl⟩
    · rw [Array.getElem?_eq_none (Nat.le_of_eq size : _ ≤ n), whole, List.append_nil]
      rfl
    · have next : file.lineFeeds[(before ++ piece).count newline]? =
          some (before ++ piece).length :=
        getElem?_lineFeeds (by rw [whole, List.append_assoc])
      rw [List.count_append, free, count, Nat.add_zero] at next
      rw [next]
      rfl
  rw [line, if_neg (by omega)]
  simp only [Nat.add_sub_cancel, Nat.reduceSubDiff, start, stop]
  rw [whole, Nat.add_sub_cancel_left, List.drop_left, List.take_left]

theorem line_eq_nil {n : Nat} (h : n = 0 ∨ file.content.count newline + 1 < n) :
    file.line n = [] := by
  rw [line, size_lineFeeds, if_pos h]

/-- A file of fewer than 2³² - 1 bytes answers as its content is read from the left. The line of an
offset, or of the end for one past it, is one more than the line feeds before it, and the column one
more than the characters since the last of them. The search for the line comes to an end and reads
only entries of the index, and the last entry before the offset, where the line starts, is one of
them. All numbers fit into 32 bits. A line is the piece with its number between line feeds, less a
carriage return at its end, and there are no others. -/
theorem places_and_lines_exact (file : File) (small : file.content.length < UInt32.size - 1) :
    (∀ offset,
      let before := file.content.take (min offset file.content.length)
      let feeds := before.count newline
      let col := (chars (lastLine before)).length + 1
      file.lineCol offset = ⟨feeds + 1, col⟩ ∧ feeds + 1 < UInt32.size ∧ col < UInt32.size ∧
        lineStart file.lineFeeds before.length =
          (feeds + 1, before.length - (lastLine before).length) ∧
        entriesBefore file.lineFeeds before.length 0 file.lineFeeds.size (Nat.le_refl _) = feeds ∧
        feeds ≤ file.lineFeeds.size ∧ ∃ rounds ≤ (2 * file.lineFeeds.size).log2,
          Narrows file.lineFeeds before.length 0 file.lineFeeds.size rounds feeds) ∧
      (∀ entry ∈ file.lineFeeds, entry + 1 < UInt32.size) ∧
      (splitOn newline file.content).length = file.content.count newline + 1 ∧
      (∀ n piece, (splitOn newline file.content)[n]? = some piece →
        file.line (n + 1) =
          if piece.getLast? = some carriageReturn then piece.dropLast else piece) ∧
      ∀ n, n = 0 ∨ file.content.count newline + 1 < n → file.line n = [] := by
  refine ⟨fun offset => ?_, fun entry mem => ?_, length_splitOn _, fun n piece h => ?_,
    fun n => line_eq_nil⟩
  · intro before feeds col
    have whole : file.content = before ++ file.content.drop (min offset file.content.length) :=
      (List.take_append_drop _ _).symm
    have place := file.lineCol_eq offset
    rw [List.take_eq_take_min] at place
    have entries := entriesBefore_lineFeeds whole
    obtain ⟨rounds, few, narrows⟩ :=
      narrows_entriesBefore file.lineFeeds before.length 0 _ (Nat.le_refl _)
    rw [entries] at narrows
    have inside : before.length ≤ file.content.length := List.length_take_le' _ _
    have counted : feeds ≤ before.length := List.count_le_length
    have read : (chars (lastLine before)).length ≤ before.length :=
      Nat.le_trans (length_charsAfter_le 0 _) (length_lastLine_le before)
    have known : feeds ≤ file.lineFeeds.size := by
      rw [size_lineFeeds, whole, List.count_append]
      exact Nat.le_add_right _ _
    exact ⟨place, by omega, by omega, lineStart_eq whole, entries, known, rounds, few, narrows⟩
  · have := bounds_of_mem_lineFeedsFrom (List.mem_toArray.1 mem)
    omega
  · rw [line_of_getElem?_splitOn h, dropEnding_singleton]

/-- Two line ends, the first one of two bytes, and an accented letter: inside the letter its first
byte counts as a character, and an offset past the end is taken for the end. -/
theorem places_and_lines_exact_inside_letter :
    let file : File := ⟨0, "m.prg", [97, 13, 10, 10, 0xC3, 0xA9], 0⟩
    file.content.length < UInt32.size - 1 ∧ file.lineCol 5 = ⟨3, 2⟩ ∧ file.lineCol 9 = ⟨3, 2⟩ ∧
      file.line 1 = [97] ∧ file.line 2 = [] ∧ file.line 3 = [0xC3, 0xA9] ∧ file.line 4 = [] := by
  intro file
  have small : file.content.length < UInt32.size - 1 := by decide
  obtain ⟨places, -, -, pieces, none⟩ := places_and_lines_exact file small
  exact ⟨small, (places 5).1, (places 9).1, pieces 0 _ rfl, pieces 1 _ rfl, pieces 2 _ rfl,
    none 4 (.inr (by decide))⟩

end File

end PrgScript
