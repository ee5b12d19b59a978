import PrgScript.Proofs.Glyphs

/-!
# Lines and columns

There are two ways to the line and column of a place in a script. A file looks the
place up in the index of its line feeds. A cursor counts while it reads glyphs. Both
come to the same: the line is one more than the line feeds before the place, and the
column is one more than the characters since the last of them.

The file's answer is found by halving, and holds for every offset (`lineCol_eq`).
The cursor's holds by induction on the glyphs read. They can be compared only where
a glyph ends, because there the characters of a line are the glyphs of it; that a
cursor stands at such a place is `Cursor.In`.
-/

namespace PrgScript

open Text

/-! ### Behind the last line end -/

section AfterLast

variable {α : Type} {p : α → Bool}

/-- The elements behind the last one with a property; all of them if there is none. -/
def afterLast (p : α → Bool) : List α → List α
  | [] => []
  | x :: l => if l.any p then afterLast p l else if p x then l else x :: l

theorem afterLast_of_none {l : List α} (none : l.any p = false) : afterLast p l = l := by
  cases l with
  | nil => rfl
  | cons x l =>
      obtain ⟨first, rest⟩ : p x = false ∧ l.any p = false := by simpa using none
      simp [afterLast, first, rest]

theorem afterLast_append (l m : List α) :
    afterLast p (l ++ m) = if m.any p then afterLast p m else afterLast p l ++ m := by
  induction l with
  | nil =>
      by_cases some : m.any p = true
      · simp [some]
      · simp [some, afterLast, afterLast_of_none]
  | cons x l ih =>
      rw [List.cons_append, afterLast, List.any_append, ih, afterLast]
      by_cases behind : m.any p = true
      · simp [behind]
      · by_cases inside : l.any p = true
        · simp [behind, inside]
        · by_cases first : p x = true
          · simp [behind, inside, first]
          · simp [behind, inside, first]

/-- Either no element has the property, or the last one that has it divides the list. -/
theorem afterLast_split (l : List α) :
    (afterLast p l).any p = false ∧
      (l = afterLast p l ∨ ∃ before x, p x = true ∧ l = before ++ x :: afterLast p l) := by
  induction l with
  | nil => exact ⟨rfl, .inl rfl⟩
  | cons y l ih =>
      obtain ⟨none, cut⟩ := ih
      by_cases some : l.any p = true
      · rw [afterLast, if_pos some]
        refine ⟨none, .inr ?_⟩
        rcases cut with same | ⟨before, x, holds, same⟩
        · rw [← same, some] at none
          cases none
        · exact ⟨y :: before, x, holds, by rw [List.cons_append, ← same]⟩
      · rw [afterLast, if_neg some]
        have rest : l.any p = false := by simpa using some
        by_cases first : p y = true
        · rw [if_pos first]
          exact ⟨rest, .inr ⟨[], y, first, rfl⟩⟩
        · rw [if_neg first]
          exact ⟨by simp [first, rest], .inl rfl⟩

theorem exists_append_afterLast (p : α → Bool) (l : List α) :
    ∃ before, l = before ++ afterLast p l := by
  obtain ⟨-, same | ⟨before, x, -, same⟩⟩ := afterLast_split (p := p) l
  · exact ⟨[], same⟩
  · exact ⟨before ++ [x], by simpa using same⟩

end AfterLast

/-- The part of a text behind its last line feed. -/
def Text.lastLine (t : Text) : Text := afterLast (· == newline) t

theorem Text.lastLine_split (t : Text) :
    newline ∉ t.lastLine ∧ (t = t.lastLine ∨ ∃ lines, t = lines ++ newline :: t.lastLine) := by
  obtain ⟨none, cut⟩ := afterLast_split (p := (· == newline)) t
  refine ⟨fun mem => ?_, cut.imp_right ?_⟩
  · rw [List.any_eq_false] at none
    exact none newline mem (beq_self_eq_true newline)
  · rintro ⟨lines, b, isFeed, same⟩
    obtain rfl : b = newline := by simpa using isFeed
    exact ⟨lines, same⟩

/-! ### The index of line feeds -/

namespace File

theorem lineFeedsFrom_append (offset : Nat) (t u : Text) :
    lineFeedsFrom offset (t ++ u) =
      lineFeedsFrom offset t ++ lineFeedsFrom (offset + t.length) u := by
  induction t generalizing offset with
  | nil => rfl
  | cons b t ih =>
      rw [List.cons_append, lineFeedsFrom, lineFeedsFrom, ih, List.length_cons]
      split <;> simp [Nat.add_assoc, Nat.add_comm 1]

theorem length_lineFeedsFrom (offset : Nat) (t : Text) :
    (lineFeedsFrom offset t).length = t.count newline := by
  induction t generalizing offset with
  | nil => rfl
  | cons b t ih =>
      rw [lineFeedsFrom, List.count_cons]
      split <;> simp_all

theorem bounds_of_mem_lineFeedsFrom {offset i : Nat} {t : Text} (h : i ∈ lineFeedsFrom offset t) :
    offset ≤ i ∧ i < offset + t.length := by
  induction t generalizing offset with
  | nil => cases h
  | cons b t ih =>
      rw [lineFeedsFrom] at h
      rw [List.length_cons]
      split at h
      · rcases List.mem_cons.1 h with rfl | h
        · omega
        · have := ih h
          omega
      · have := ih h
        omega

theorem size_lineFeeds (file : File) : file.lineFeeds.size = file.content.count newline := by
  rw [lineFeeds, List.size_toArray, length_lineFeedsFrom]

theorem getElem?_lineFeeds {file : File} {lines rest : Text}
    (h : file.content = lines ++ newline :: rest) :
    file.lineFeeds[lines.count newline]? = some lines.length := by
  rw [lineFeeds, h, lineFeedsFrom_append, ← length_lineFeedsFrom 0]
  simp [lineFeedsFrom]

/-- Halving finds the border between the entries before an offset and the others. -/
theorem entriesBefore_eq {index : Array Nat} {offset n low high : Nat} (h : high ≤ index.size)
    (before : ∀ i (_ : i < index.size), i < n → index[i] < offset)
    (behind : ∀ i (_ : i < index.size), n ≤ i → offset ≤ index[i])
    (reached : low ≤ n) (kept : n ≤ high) : entriesBefore index offset low high h = n := by
  fun_induction entriesBefore index offset low high h with
  | case1 low high h hlt middle inside less ih =>
      apply ih _ kept
      rcases Nat.lt_or_ge middle n with small | large
      · exact small
      · have := behind middle inside large
        omega
  | case2 low high h hlt middle inside notLess ih =>
      apply ih reached
      rcases Nat.lt_or_ge middle n with small | large
      · exact absurd (before middle inside small) notLess
      · exact large
  | case3 low high h notLess => omega

/-- The entries before an offset are the line feeds of the text before it. -/
theorem entriesBefore_lineFeeds {file : File} {before behind : Text}
    (h : file.content = before ++ behind) :
    entriesBefore file.lineFeeds before.length 0 file.lineFeeds.size (Nat.le_refl _) =
      before.count newline := by
  have index : file.lineFeeds =
      (lineFeedsFrom 0 before ++ lineFeedsFrom before.length behind).toArray := by
    rw [lineFeeds, h, lineFeedsFrom_append, Nat.zero_add]
  have counted := length_lineFeedsFrom 0 before
  apply entriesBefore_eq (Nat.le_refl _)
  · intro i inside small
    have small : i < (lineFeedsFrom 0 before).length := by omega
    simp only [index, List.getElem_toArray, List.getElem_append_left small]
    have := bounds_of_mem_lineFeedsFrom (List.getElem_mem small)
    omega
  · intro i inside large
    have large : (lineFeedsFrom 0 before).length ≤ i := by omega
    simp only [index, List.getElem_toArray, List.getElem_append_right large]
    exact (bounds_of_mem_lineFeedsFrom (List.getElem_mem _)).1
  · exact Nat.zero_le _
  · rw [index, ← counted]
    simp

/-- A line starts behind the last line feed before an offset. -/
theorem lineStart_eq {file : File} {before behind : Text} (h : file.content = before ++ behind) :
    lineStart file.lineFeeds before.length =
      (before.count newline + 1, before.length - before.lastLine.length) := by
  have entries := entriesBefore_lineFeeds h
  obtain ⟨free, same | ⟨lines, same⟩⟩ := lastLine_split before
  · have none : before.count newline = 0 := by
      rw [same]
      exact List.count_eq_zero_of_not_mem free
    rw [none] at entries ⊢
    rw [lineStart, entries, ← same, Nat.sub_self]
  · generalize lastLine before = line at same free ⊢
    have none : line.count newline = 0 := List.count_eq_zero_of_not_mem free
    have counted : before.count newline = lines.count newline + 1 := by
      rw [same, List.count_append, List.count_cons_self, none]
    have last : file.lineFeeds[lines.count newline]? = some lines.length :=
      getElem?_lineFeeds (by rw [h, same, List.append_assoc, List.cons_append])
    have size : before.length - line.length = lines.length + 1 := by
      rw [same, List.length_append, List.length_cons]
      omega
    rw [counted] at entries
    rw [lineStart, entries, counted, size]
    simp only [last, Option.elim_some]

/-- The line of an offset is one more than the line feeds before it, and its column is one more
than the characters since the last of them. -/
theorem lineCol_eq (file : File) (offset : Nat) :
    file.lineCol offset =
      ⟨(file.content.take offset).count newline + 1,
        (chars (lastLine (file.content.take offset))).length + 1⟩ := by
  have whole : file.content = file.content.take offset ++ file.content.drop offset :=
    (List.take_append_drop offset file.content).symm
  have length : (file.content.take offset).length = min offset file.content.length :=
    List.length_take
  have start := lineStart_eq whole
  rw [length] at start
  obtain ⟨lines, part⟩ := exists_append_afterLast (· == newline) (file.content.take offset)
  rw [lineCol, start]
  rw [← lastLine] at part
  generalize lastLine (file.content.take offset) = line at part ⊢
  have size : min offset file.content.length = lines.length + line.length := by
    rw [← length, part, List.length_append]
  have rest : file.content.drop lines.length = line ++ file.content.drop offset := by
    rw [part, List.append_assoc] at whole
    rw [whole, List.drop_left, ← whole]
  simp only [size, Nat.add_sub_cancel, Nat.add_sub_cancel_left, rest, List.take_left]

end File

/-! ### Counting while reading -/

namespace Glyph

/-- Whether a glyph ends a line. -/
def isEnd (g : Glyph) : Bool := g.char == '\n'

theorem exists_leads_of_mem {t : Text} {g : Glyph} (h : g ∈ ofText t) : ∃ rest, Leads g rest := by
  obtain ⟨before, behind, same⟩ := List.append_of_mem h
  have again := ofText_text_of_append same
  obtain ⟨rest, leads, -⟩ := leads_of_ofText again
  exact ⟨rest, leads⟩

/-- The bytes of glyphs have as many line feeds as the glyphs have line ends, and the last line of
the bytes is that of the glyphs. -/
theorem lastLine_text {gs : List Glyph} (read : ∀ g ∈ gs, ∃ rest, Leads g rest) :
    (text gs).any (· == newline) = gs.any isEnd ∧ (text gs).count newline = gs.countP isEnd ∧
      lastLine (text gs) = text (afterLast isEnd gs) := by
  induction gs with
  | nil => exact ⟨rfl, rfl, rfl⟩
  | cons g gs ih =>
      rw [List.forall_mem_cons] at read
      obtain ⟨⟨rest, leads⟩, read⟩ := read
      obtain ⟨any, count, last⟩ := ih read
      rw [lastLine] at last ⊢
      rw [text_cons, afterLast_append, afterLast, List.any_append, List.count_append,
        List.countP_cons, List.any_cons, any, count, last]
      by_cases ends : g.char = '\n'
      · have isEnd : g.isEnd = true := by simpa [Glyph.isEnd] using ends
        rcases leads.bytes_of_newline ends with bytes | bytes
        all_goals
          rw [bytes, isEnd]
          refine ⟨rfl, Nat.add_comm _ _, ?_⟩
          split <;> rfl
      · have isEnd : g.isEnd = false := by simpa [Glyph.isEnd] using ends
        have free := leads.newline_not_mem ends
        have none : g.bytes.any (· == newline) = false := by
          rw [List.any_eq_false]
          rintro b mem same
          exact free (by simpa [beq_iff_eq.1 same] using mem)
        rw [isEnd, none, afterLast_of_none none, List.count_eq_zero_of_not_mem free, Nat.zero_add]
        refine ⟨rfl, rfl, ?_⟩
        split <;> rfl

end Glyph

/-- The position behind glyphs, from any position on. -/
theorem Pos.foldl_advance (p : Pos) (gs : List Glyph) :
    gs.foldl Pos.advance p =
      ⟨p.offset + (Glyph.text gs).length, p.line + gs.countP Glyph.isEnd,
        if gs.any Glyph.isEnd then (afterLast Glyph.isEnd gs).length + 1
        else p.col + gs.length⟩ := by
  induction gs generalizing p with
  | nil => rfl
  | cons g gs ih =>
      rw [List.foldl_cons, ih, Glyph.text_cons, afterLast, List.countP_cons, List.any_cons]
      by_cases ends : g.char = '\n'
      · have isEnd : g.isEnd = true := by simpa [Glyph.isEnd] using ends
        by_cases more : gs.any Glyph.isEnd = true
        · simp [Pos.advance, ends, isEnd, more, Nat.add_assoc, Nat.add_comm 1]
        · simp [Pos.advance, ends, isEnd, more, Nat.add_assoc, Nat.add_comm 1]
      · have isEnd : g.isEnd = false := by simpa [Glyph.isEnd] using ends
        by_cases more : gs.any Glyph.isEnd = true
        · simp [Pos.advance, ends, isEnd, more, Nat.add_assoc]
        · simp [Pos.advance, ends, isEnd, more, Nat.add_assoc, Nat.add_comm 1]

/-- The position behind glyphs that are read from the start of a file is where the file says it
is. -/
theorem File.lineCol_foldl_advance {file : File} {gs rest : List Glyph}
    (h : Glyph.ofText file.content = gs ++ rest) :
    (gs.foldl Pos.advance {}).offset = (Glyph.text gs).length ∧
      file.lineCol (Glyph.text gs).length =
        ⟨(gs.foldl Pos.advance {}).line, (gs.foldl Pos.advance {}).col⟩ := by
  have whole : file.content = Glyph.text gs ++ Glyph.text rest := by
    rw [← Glyph.text_append, ← h, Glyph.text_ofText]
  have read : ∀ g ∈ gs, ∃ behind, Glyph.Leads g behind := by
    intro g mem
    exact Glyph.exists_leads_of_mem (h ▸ List.mem_append_left rest mem)
  obtain ⟨-, count, last⟩ := Glyph.lastLine_text read
  -- The last line ends where a glyph ends, so its glyphs are its characters.
  have chars : (chars (Glyph.text (afterLast Glyph.isEnd gs))).length =
      (afterLast Glyph.isEnd gs).length := by
    obtain ⟨lines, same⟩ := exists_append_afterLast Glyph.isEnd gs
    have inLine : ∀ g ∈ afterLast Glyph.isEnd gs, g.char ≠ '\n' := by
      intro g mem ends
      have none := (afterLast_split (p := Glyph.isEnd) gs).1
      rw [List.any_eq_false] at none
      exact none g mem (beq_iff_eq.2 ends)
    rw [same, List.append_assoc] at h
    rw [Glyph.chars_text (Glyph.ofText_text_of_append h) inLine, List.length_map]
  rw [Pos.foldl_advance, File.lineCol_eq, whole, List.take_left, count, last, chars]
  refine ⟨Nat.zero_add _, ?_⟩
  by_cases ends : gs.any Glyph.isEnd = true
  · simp [ends, Nat.add_comm]
  · simp [ends, afterLast_of_none, Nat.add_comm]

namespace Cursor

theorem skip_eq (n : Nat) (c : Cursor) :
    c.skip n = ⟨(c.rest.take n).foldl Pos.advance c.pos, c.rest.drop n⟩ := by
  induction n generalizing c with
  | zero => rfl
  | succ n ih =>
      obtain ⟨pos, rest⟩ := c
      cases rest with
      | nil => rfl
      | cons g gs => exact ih _

theorem skip_skip (m n : Nat) (c : Cursor) : (c.skip m).skip n = c.skip (m + n) := by
  simp only [skip_eq, ← List.foldl_append, List.drop_drop, List.take_add]

/-- Reading moves over the bytes of the glyphs read. -/
theorem skip_offset (n : Nat) (c : Cursor) :
    (c.skip n).pos.offset = c.pos.offset + (Glyph.text (c.rest.take n)).length := by
  rw [skip_eq, Pos.foldl_advance]

/-- The cursors that reading a file from its start comes to. -/
def In (file : File) (c : Cursor) : Prop := ∃ n, c = (ofText file.content).skip n

namespace In

variable {file : File} {c : Cursor}

theorem start (file : File) : (ofText file.content).In file := ⟨0, rfl⟩

theorem skip (h : c.In file) (n : Nat) : (c.skip n).In file := by
  obtain ⟨m, rfl⟩ := h
  exact ⟨m + n, skip_skip m n _⟩

/-- The bytes from a cursor on are those of the glyphs ahead of it. -/
theorem content (h : c.In file) :
    ∃ before, file.content = before ++ Glyph.text c.rest ∧ before.length = c.pos.offset := by
  obtain ⟨n, rfl⟩ := h
  refine ⟨Glyph.text ((Glyph.ofText file.content).take n), ?_, ?_⟩
  · rw [skip_rest, ← Glyph.text_append, ofText, List.take_append_drop, Glyph.text_ofText]
  · rw [skip_offset]
    exact (Nat.zero_add _).symm

theorem offset_le (h : c.In file) : c.pos.offset ≤ file.content.length := by
  obtain ⟨before, whole, length⟩ := h.content
  rw [whole, List.length_append, length]
  exact Nat.le_add_right _ _

theorem lineCol (h : c.In file) : file.lineCol c.pos.offset = ⟨c.pos.line, c.pos.col⟩ := by
  obtain ⟨n, rfl⟩ := h
  have cut := (List.take_append_drop n (Glyph.ofText file.content)).symm
  obtain ⟨offset, place⟩ := File.lineCol_foldl_advance cut
  rw [skip_eq]
  exact offset ▸ place

/-- What is ahead of a cursor is read as it was. -/
theorem ofText_rest (h : c.In file) : Glyph.ofText (Glyph.text c.rest) = c.rest := by
  obtain ⟨n, rfl⟩ := h
  rw [skip_rest]
  exact Glyph.ofText_text_of_append (List.take_append_drop n (Glyph.ofText file.content)).symm

end In

end Cursor

end PrgScript
