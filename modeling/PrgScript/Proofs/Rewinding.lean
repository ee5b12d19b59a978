import PrgScript.Proofs.Position

/-!
# Going back

A cursor reads forward and can go back. Forward, a glyph is found by its first byte; back,
by its last one, which may belong to a character whose first byte stands up to three bytes
before it. The two ways cut every text into the same glyphs (`exists_last_glyph`), so
going back over `n` glyphs is reading fewer of them from the start (`rewind_skip`).

The position is kept in two ways as well: it is counted on while reading, and resolved anew
after going back. It is the same position, because a cursor only ever stands where a glyph
ends, whatever has been done with it (`Reader.cursor_exact`).
-/

namespace PrgScript

open Text

/-! ### The last glyph of a text -/

namespace Text

/-- A character of several bytes that ends with the byte behind a text. -/
def EndsWith (t : Text) (last : UInt8) (mid : Text) : Prop :=
  ∃ before lead code, t = before ++ lead :: mid ∧ Front lead (mid ++ [last]) code (mid.length + 1)

variable {t mid : Text} {last : UInt8}

theorem EndsWith.continues (h : EndsWith t last mid) :
    t.reverse.takeWhile isContinuation = mid.reverse := by
  obtain ⟨before, lead, code, rfl, front⟩ := h
  obtain ⟨first, later⟩ := front.continues
  have all : ∀ b ∈ mid.reverse, isContinuation b = true := by
    intro b mem
    apply later
    rw [List.take_of_length_le (by simp)]
    exact List.mem_append_left _ (List.mem_reverse.1 mem)
  rw [List.reverse_append, List.reverse_cons, List.append_assoc,
    List.takeWhile_append_of_pos all, List.singleton_append,
    List.takeWhile_cons_of_neg (by simp [first]), List.append_nil]

theorem EndsWith.append_left (h : EndsWith t last mid) (before : Text) :
    EndsWith (before ++ t) last mid := by
  obtain ⟨front, lead, code, rfl, ends⟩ := h
  exact ⟨before ++ front, lead, code, by rw [List.append_assoc], ends⟩

/-- One more byte changes what stands at the front of a text only if it ends a character there. -/
theorem decode_concat (lead : UInt8) (rest : Text) (last : UInt8) :
    decode lead (rest ++ [last]) = decode lead rest ∨
      ∃ code, Front lead (rest ++ [last]) code (rest.length + 1) := by
  obtain ⟨code, more, front⟩ | stray := front_or_replacement lead (rest ++ [last])
  · rcases Nat.lt_or_ge rest.length more with beyond | inside
    · have short := le_length_of_decode front.decode
      rw [List.length_append, List.length_singleton] at short
      obtain rfl : more = rest.length + 1 := by omega
      exact .inr ⟨code, front⟩
    · exact .inl (by rw [front.decode, (front.of_append inside).decode])
  · exact .inl (by rw [stray, decode_of_append stray (Nat.zero_le _)])

theorem Front.le_of_more {lead : UInt8} {rest : Text} {code more : Nat}
    (h : Front lead rest code (more + 1)) : 128 ≤ lead.toNat := by
  cases h <;> omega

/-- Going back finds a character of several bytes. -/
theorem EndsWith.lastWidth (h : EndsWith t last mid) (high : 128 ≤ last.toNat) :
    lastWidth (last :: t.reverse) = mid.length + 2 := by
  have notLow : ¬last < 0x80 := by rw [UInt8.lt_iff_toNat_lt]; exact Nat.not_lt.2 high
  have taken : ((t.reverse.takeWhile isContinuation).length + 2) = mid.length + 2 := by
    rw [h.continues, List.length_reverse]
  obtain ⟨before, lead, code, rfl, front⟩ := h
  have back : last :: (before ++ lead :: mid).reverse =
      (lead :: (mid ++ [last])).reverse ++ before.reverse := by simp
  have bytes : ((last :: (before ++ lead :: mid).reverse).take (mid.length + 2)).reverse =
      lead :: (mid ++ [last]) := by
    rw [back, List.take_left' (by simp), List.reverse_reverse]
  have short := front.more_le
  rw [Text.lastWidth, if_neg notLow]
  simp only [taken, bytes, front.decode]
  rw [if_pos ⟨by omega, trivial⟩]

/-- Going back finds a byte alone where no character of several bytes ends. -/
theorem lastWidth_eq_one (high : 128 ≤ last.toNat) (none : ∀ mid, ¬EndsWith t last mid) :
    lastWidth (last :: t.reverse) = 1 := by
  have notLow : ¬last < 0x80 := by rw [UInt8.lt_iff_toNat_lt]; exact Nat.not_lt.2 high
  rw [Text.lastWidth, if_neg notLow]
  dsimp only
  generalize size : (t.reverse.takeWhile isContinuation).length = k
  split
  · rfl
  next lead rest bytes =>
    split
    next fits =>
      -- The bytes gone back over would be a character.
      have whole : t ++ [last] = (t ++ [last]).take (t.length + 1 - (k + 2)) ++ lead :: rest := by
        have back : last :: t.reverse = (t ++ [last]).reverse := by simp
        rw [back, List.take_reverse, List.reverse_reverse, List.length_append] at bytes
        rw [← bytes]
        exact (List.take_append_drop _ _).symm
      obtain ⟨code, more, front⟩ | stray := front_or_replacement lead rest
      · rw [front.decode] at fits
        have length := congrArg List.length bytes
        have inside := le_length_of_decode front.decode
        obtain ⟨mid, b, rfl⟩ : ∃ mid b, rest = mid ++ [b] :=
          ⟨_, _, (List.dropLast_concat_getLast (List.ne_nil_of_length_pos (by omega))).symm⟩
        rw [← List.cons_append, ← List.append_assoc] at whole
        obtain ⟨same, ends⟩ := List.append_inj' whole rfl
        cases ends
        have exactly : more = mid.length + 1 := by
          simp only [List.length_reverse, List.length_take, List.length_cons, List.length_append,
            List.length_nil] at length inside
          omega
        exact (none mid ⟨_, lead, code, same, exactly ▸ front⟩).elim
      · rw [stray] at fits
        omega
    · rfl

end Text

namespace Glyph

variable {g : Glyph} {t : Text} {last : UInt8}

/-- A byte from 128 on is no character by itself. -/
theorem leads_stray (high : 128 ≤ last.toNat) : Leads ⟨replacement, [last]⟩ [] := by
  refine .char (by simp) ?_
  obtain ⟨code, more, front⟩ | stray := front_or_replacement last []
  · cases front with
    | one low => omega
  · exact stray

/-- One more byte leaves the first glyph of a text as it is, or ends the character of a byte that
stood alone. -/
theorem Leads.concat (high : 128 ≤ last.toNat) (h : Leads g t) :
    Leads g (t ++ [last]) ∨ ∃ mid, EndsWith (g.bytes ++ t) last mid := by
  cases h with
  | pair => exact .inl (.pair _)
  | @char b more t c alone read =>
      obtain same | ⟨code, front⟩ := decode_concat b (more ++ t) last
      · refine .inl (.char ?_ (by rw [← List.append_assoc, same, read]))
        rintro ⟨rfl, feed⟩
        rw [← List.append_assoc] at feed
        obtain ahead | ⟨-, feed⟩ := head?_append_cases feed
        · exact alone ⟨rfl, ahead⟩
        · obtain rfl : last = newline := Option.some.inj feed
          exact absurd high (by decide)
      · exact .inr ⟨more ++ t, [], b, code, rfl, front⟩

/-- A byte from 128 on behind a text is a glyph of its own, unless a character ends with it. -/
theorem ofText_concat (high : 128 ≤ last.toNat) (t : Text) :
    ofText (t ++ [last]) = ofText t ++ [⟨replacement, [last]⟩] ∨ ∃ mid, EndsWith t last mid := by
  induction t using text_induction with
  | nil => exact .inl (leads_stray high).ofText
  | cons g t leads ih =>
      obtain goesOn | ends := leads.concat high
      · refine ih.imp (fun alone => ?_) fun ⟨mid, ends⟩ => ⟨mid, ends.append_left g.bytes⟩
        rw [List.append_assoc, goesOn.ofText, alone, leads.ofText, List.cons_append]
      · exact .inr ends

theorem lastGlyphWidth_eq (uncut : Uncut t [last]) :
    Cursor.lastGlyphWidth (last :: t.reverse) = lastWidth (last :: t.reverse) := by
  unfold Cursor.lastGlyphWidth
  split
  next before same =>
    obtain ⟨rfl, pair⟩ := List.cons.inj same
    exact absurd ⟨by rw [List.getLast?_eq_head?_reverse, pair]; rfl, rfl⟩ uncut
  next => rfl

/-- A glyph that starts anew is read behind every text. -/
theorem Leads.ofText_concat (leads : Leads g []) (starts : Starts g.bytes)
    (uncut : Uncut t g.bytes) : Glyph.ofText (t ++ g.bytes) = Glyph.ofText t ++ [g] := by
  have alone := leads.ofText
  rw [List.append_nil] at alone
  rw [ofText_append_of_starts starts uncut, alone]
  rfl

/-- The last glyph of a text, which going back finds. -/
theorem exists_last_glyph (nonempty : t ≠ []) :
    ∃ before g, t = before ++ g.bytes ∧ ofText t = ofText before ++ [g] ∧
      Cursor.lastGlyphWidth t.reverse = g.bytes.length := by
  obtain ⟨t, last, rfl⟩ : ∃ s last, t = s ++ [last] :=
    ⟨_, _, (List.dropLast_concat_getLast nonempty).symm⟩
  rw [List.reverse_concat]
  by_cases uncut : Uncut t [last]
  · rw [lastGlyphWidth_eq uncut]
    rcases Nat.lt_or_ge last.toNat 128 with low | high
    · let g : Glyph := ⟨Char.ofNat last.toNat, [last]⟩
      have leads : Leads g [] := .char (by simp) (Front.one low).decode
      have starts : Starts g.bytes := .of_lt fun b first => by cases first; exact low
      have isLow : last < 0x80 := low
      exact ⟨t, g, rfl, leads.ofText_concat starts uncut, by rw [lastWidth, if_pos isLow]; rfl⟩
    by_cases ends : ∃ mid, EndsWith t last mid
    · obtain ⟨mid, ends⟩ := ends
      rw [ends.lastWidth high]
      obtain ⟨before, lead, code, rfl, front⟩ := ends
      let g : Glyph := ⟨Char.ofNat code, lead :: (mid ++ [last])⟩
      have large : 128 ≤ lead.toNat := front.le_of_more
      have leads : Leads g [] := by
        refine .char ?_ (by rw [List.append_nil, front.decode, List.length_append]; rfl)
        rintro ⟨rfl, -⟩
        exact absurd large (by decide)
      have starts : Starts g.bytes := fun b first => by cases first; exact front.continues.1
      have uncut : Uncut before g.bytes := by
        rintro ⟨-, first⟩
        cases first
        exact absurd large (by decide)
      refine ⟨before, g, by simp [g], ?_, by simp [g]⟩
      rw [← leads.ofText_concat starts uncut]
      simp [g]
    · rw [lastWidth_eq_one high (not_exists.1 ends)]
      exact ⟨t, _, rfl, (ofText_concat high t).resolve_right ends, rfl⟩
  · -- The text ends with a pair of bytes that ends a line.
    obtain ⟨isReturn, isFeed⟩ := Decidable.not_not.1 uncut
    obtain ⟨before, rfl⟩ := List.getLast?_eq_some_iff.1 isReturn
    cases isFeed
    let g : Glyph := ⟨'\n', [carriageReturn, newline]⟩
    have leads : Leads g [] := .pair []
    refine ⟨before, g, by simp [g], ?_, by simp [g]; rfl⟩
    rw [← leads.ofText_concat (fun b first => by cases first; rfl) (fun h => by cases h.2)]
    simp [g]

end Glyph

/-- Every glyph has a byte, so lines and columns together never get ahead of the bytes. -/
theorem Pos.foldl_advance_le {gs : List Glyph} (read : ∀ g ∈ gs, g.bytes ≠ []) {p : Pos}
    (col : 1 ≤ p.col) (sum : p.line + p.col ≤ p.offset + 2) :
    (gs.foldl advance p).line + (gs.foldl advance p).col ≤ (gs.foldl advance p).offset + 2 := by
  induction gs generalizing p with
  | nil => exact sum
  | cons g gs ih =>
      rw [List.forall_mem_cons] at read
      have wide := List.length_pos_iff.2 read.1
      rw [List.foldl_cons, advance]
      split
      · apply ih read.2 <;> dsimp only <;> omega
      · apply ih read.2 <;> dsimp only <;> omega

namespace Cursor

/-- Going back passes over the last glyphs of a text. -/
theorem back_reverse (n : Nat) (t : Text) :
    back n t.reverse = (min n (Glyph.ofText t).length,
      (Glyph.text ((Glyph.ofText t).drop ((Glyph.ofText t).length - n))).length) := by
  induction n generalizing t with
  | zero => simp [back]
  | succ n ih =>
      by_cases nonempty : t = []
      · subst nonempty
        simp [back, Glyph.ofText, Glyph.glyphsAfter]
      obtain ⟨before, g, same, read, width⟩ := Glyph.exists_last_glyph nonempty
      have rest : t.reverse.drop g.bytes.length = before.reverse := by
        rw [same, List.reverse_append, List.drop_left' (by simp)]
      have some : t.reverse.isEmpty = false := by simpa using nonempty
      rw [back, some, if_neg (by simp)]
      simp only [width, rest, ih before, read]
      generalize Glyph.ofText before = gs
      have split : (gs ++ [g]).drop (gs.length - n) = gs.drop (gs.length - n) ++ [g] :=
        List.drop_append_of_le_length (by omega)
      simp [split, Nat.add_min_add_right]

/-- A cursor that reading comes to is the file's cursor at its offset. -/
theorem In.atOffset_eq {file : File} {c : Cursor} (h : c.In file) :
    atOffset file c.pos.offset = c := by
  obtain ⟨before, whole, length⟩ := h.content
  have rest : file.content.drop c.pos.offset = Glyph.text c.rest := by
    rw [whole, ← length, List.drop_left]
  rw [atOffset, h.lineCol, rest, h.ofText_rest]

theorem In.reset_eq {file : File} {c : Cursor} (h : c.In file) : reset file c.pos = c := by
  have same := h.atOffset_eq
  rw [atOffset, h.lineCol] at same
  exact same

/-- The glyphs before a cursor and those ahead of it are the glyphs of the file. -/
theorem ofText_take_skip (file : File) (k : Nat) :
    Glyph.ofText (file.content.take ((ofText file.content).skip k).pos.offset) =
      (Glyph.ofText file.content).take k := by
  have cut := (List.take_append_drop k (Glyph.ofText file.content)).symm
  have whole := Glyph.text_ofText file.content
  rw [cut, Glyph.text_append] at whole
  have offset : ((ofText file.content).skip k).pos.offset =
      (Glyph.text ((Glyph.ofText file.content).take k)).length :=
    (skip_offset k _).trans (Nat.zero_add _)
  have taken := congrArg (List.take ((ofText file.content).skip k).pos.offset) whole
  rw [List.take_left' offset.symm] at taken
  rw [← taken]
  exact Glyph.ofText_text_left cut

/-- Going back over glyphs is reading fewer of them. -/
theorem rewind_skip (file : File) (n : Nat) {k : Nat}
    (inside : k ≤ (Glyph.ofText file.content).length) :
    ((ofText file.content).skip k).rewind file n =
      (min n k, (ofText file.content).skip (k - n)) := by
  have size : ((Glyph.ofText file.content).take k).length = k := List.length_take_of_le inside
  rw [rewind, back_reverse, ofText_take_skip, size]
  by_cases still : min n k = 0
  · have same : k - n = k := by omega
    simp [still, same]
  · have back : ((ofText file.content).skip (k - n)).pos.offset =
        ((ofText file.content).skip k).pos.offset -
          (Glyph.text (((Glyph.ofText file.content).take k).drop (k - n))).length := by
      have parts : (Glyph.ofText file.content).take k =
          (Glyph.ofText file.content).take (k - n) ++
            ((Glyph.ofText file.content).take k).drop (k - n) := by
        conv => lhs; rw [← List.take_append_drop (k - n) ((Glyph.ofText file.content).take k)]
        rw [List.take_take, Nat.min_eq_left (Nat.sub_le k n)]
      have length := congrArg (fun gs => (Glyph.text gs).length) parts
      simp only [Glyph.text_append, List.length_append] at length
      simp only [skip_offset, ofText]
      omega
    simp only [still, if_false]
    rw [← back, ((In.start file).skip (k - n)).atOffset_eq]

/-- Reads `n` characters, if there are as many. -/
def reads : Nat → Cursor → Option Cursor
  | 0, c => some c
  | n + 1, c => c.next?.bind fun (_, c') => reads n c'

theorem skip_of_reads {n : Nat} {c c' : Cursor} (h : c.reads n = some c') :
    c' = c.skip n ∧ n ≤ c.rest.length := by
  induction n generalizing c with
  | zero =>
      cases h
      exact ⟨rfl, Nat.zero_le _⟩
  | succ n ih =>
      obtain ⟨pos, rest⟩ := c
      cases rest with
      | nil => cases h
      | cons g gs =>
          obtain ⟨same, inside⟩ := ih (c := ⟨pos.advance g, gs⟩) h
          exact ⟨same, Nat.succ_le_succ inside⟩

namespace In

variable {file : File} {c : Cursor}

/-- Reading comes to a cursor over the glyphs before it. -/
theorem exists_skip (h : c.In file) :
    ∃ k ≤ (Glyph.ofText file.content).length, c = (ofText file.content).skip k := by
  obtain ⟨k, rfl⟩ := h
  rcases Nat.le_total k (Glyph.ofText file.content).length with inside | beyond
  · exact ⟨k, inside, rfl⟩
  · refine ⟨_, Nat.le_refl _, ?_⟩
    simp only [skip_eq, ofText, List.take_of_length_le beyond, List.take_length,
      List.drop_eq_nil_of_le beyond, List.drop_length]

/-- A cursor divides the glyphs of the file. -/
theorem ofText_content (h : c.In file) :
    Glyph.ofText file.content = Glyph.ofText (file.content.take c.pos.offset) ++ c.rest := by
  obtain ⟨k, rfl⟩ := h
  rw [ofText_take_skip, skip_rest]
  exact (List.take_append_drop k _).symm

theorem line_add_col_le (h : c.In file) : c.pos.line + c.pos.col ≤ c.pos.offset + 2 := by
  obtain ⟨k, rfl⟩ := h
  rw [skip_eq]
  refine Pos.foldl_advance_le (fun g mem => ?_) (Nat.le_refl _) (Nat.le_refl _)
  obtain ⟨rest, leads⟩ := Glyph.exists_leads_of_mem (List.mem_of_mem_take mem)
  exact leads.bytes_ne_nil

theorem next {ch : Char} {c' : Cursor} (h : c.In file) (read : c.next? = some (ch, c')) :
    c'.In file := by
  obtain ⟨pos, rest⟩ := c
  cases rest with
  | nil => cases read
  | cons g gs =>
      cases read
      exact h.skip 1

theorem eat {code : Int} {c' : Cursor} (h : c.In file) (eaten : c.eat? code = some c') :
    c'.In file := by
  unfold eat? at eaten
  split at eaten
  next found behind read =>
    split at eaten
    · cases eaten
      exact h.next read
    · cases eaten
  next => cases eaten

theorem rewind (h : c.In file) (n : Nat) : (c.rewind file n).2.In file := by
  obtain ⟨k, inside, rfl⟩ := h.exists_skip
  rw [rewind_skip file n inside]
  exact (start file).skip _

/-- Going back over what has been read comes to where reading began. -/
theorem rewind_reads (h : c.In file) {n : Nat} {c' : Cursor} (read : c.reads n = some c') :
    c'.rewind file n = (n, c) := by
  obtain ⟨rfl, ahead⟩ := skip_of_reads read
  obtain ⟨k, inside, rfl⟩ := h.exists_skip
  rw [skip_rest, List.length_drop] at ahead
  rw [skip_skip, rewind_skip file n (by simp only [ofText] at ahead; omega),
    Nat.add_sub_cancel, Nat.min_eq_left (Nat.le_add_left n k)]

/-- Going back over more than there is comes to the start. -/
theorem rewind_all (h : c.In file) {m : Nat}
    (enough : (Glyph.ofText (file.content.take c.pos.offset)).length ≤ m) :
    c.rewind file m =
      ((Glyph.ofText (file.content.take c.pos.offset)).length, ofText file.content) := by
  obtain ⟨k, inside, rfl⟩ := h.exists_skip
  rw [ofText_take_skip, List.length_take_of_le inside] at enough ⊢
  rw [rewind_skip file m inside, Nat.min_eq_right enough, Nat.sub_eq_zero_of_le enough]
  rfl

end In

end Cursor

/-! ### Everything that can be done with a cursor -/

/-- A cursor and the positions that have been saved, in order. -/
structure Reader where
  cursor : Cursor
  marks : List Pos := []

namespace Reader

/-- What can be done with a cursor. A saved position is named by its number. -/
inductive Action where
  | next
  | peek
  | peekTwo
  | eat (code : Int)
  | rewind (n : Nat)
  | mark
  | reset (number : Nat)

/-- The state after an action; one that is not possible leaves everything as it is. -/
def act (file : File) (r : Reader) : Action → Reader
  | .next => { r with cursor := (r.cursor.next?.map (·.2)).getD r.cursor }
  | .peek | .peekTwo => r
  | .eat code => { r with cursor := (r.cursor.eat? code).getD r.cursor }
  | .rewind n => { r with cursor := (r.cursor.rewind file n).2 }
  | .mark => { r with marks := r.marks ++ [r.cursor.pos] }
  | .reset number => { r with cursor := (r.marks[number]?).elim r.cursor (Cursor.reset file) }

def run (file : File) (actions : List Action) : Reader :=
  actions.foldl (act file) { cursor := .ofText file.content }

/-- The cursor, and every one whose position has been saved, is where reading comes to. -/
structure Sound (file : File) (r : Reader) : Prop where
  cursor : r.cursor.In file
  marks : ∀ mark ∈ r.marks, ∃ c : Cursor, c.In file ∧ c.pos = mark

theorem Sound.act {file : File} {r : Reader} (h : r.Sound file) (a : Action) :
    (r.act file a).Sound file := by
  cases a with
  | next =>
      refine ⟨?_, h.marks⟩
      cases read : r.cursor.next? with
      | none => simpa [Reader.act, read] using h.cursor
      | some found => simpa [Reader.act, read] using h.cursor.next read
  | peek => exact h
  | peekTwo => exact h
  | eat code =>
      refine ⟨?_, h.marks⟩
      cases eaten : r.cursor.eat? code with
      | none => simpa [Reader.act, eaten] using h.cursor
      | some c => simpa [Reader.act, eaten] using h.cursor.eat eaten
  | rewind n => exact ⟨h.cursor.rewind n, h.marks⟩
  | mark =>
      refine ⟨h.cursor, fun mark mem => ?_⟩
      rcases List.mem_append.1 mem with old | new
      · exact h.marks mark old
      · exact ⟨r.cursor, h.cursor, (List.mem_singleton.1 new).symm⟩
  | reset number =>
      refine ⟨?_, h.marks⟩
      cases saved : r.marks[number]? with
      | none => simpa [Reader.act, saved] using h.cursor
      | some mark =>
          obtain ⟨c, inside, rfl⟩ := h.marks mark (List.mem_of_getElem? saved)
          simpa [Reader.act, saved, inside.reset_eq] using inside

theorem Sound.run {file : File} {r : Reader} (h : r.Sound file) (actions : List Action) :
    (actions.foldl (Reader.act file) r).Sound file := by
  induction actions generalizing r with
  | nil => exact h
  | cons a actions ih => exact ih (h.act a)

/-- Whatever has been done with a cursor, it stands between two glyphs, and line and column are
those of its offset in the file; none of the numbers gets ahead of the file's length. From there,
going back over what is read next comes back, and going back over at least all glyphs comes to the
start and tells their number. -/
theorem cursor_exact (file : File) (actions : List Action) :
    let c := (run file actions).cursor
    let before := Glyph.ofText (file.content.take c.pos.offset)
    Glyph.ofText file.content = before ++ c.rest ∧
      c.pos.offset ≤ file.content.length ∧ c.pos.line + c.pos.col ≤ c.pos.offset + 2 ∧
      file.lineCol c.pos.offset = ⟨c.pos.line, c.pos.col⟩ ∧
      (∀ n c', c.reads n = some c' → c'.rewind file n = (n, c)) ∧
      ∀ m, before.length ≤ m →
        c.rewind file m = (before.length, ⟨⟨0, 1, 1⟩, Glyph.ofText file.content⟩) := by
  intro c before
  have fresh : Sound file { cursor := .ofText file.content } := ⟨.start file, by simp⟩
  have inside : c.In file := (fresh.run actions).cursor
  exact ⟨inside.ofText_content, inside.offset_le, inside.line_add_col_le, inside.lineCol,
    fun n c' read => inside.rewind_reads read, fun m enough => inside.rewind_all enough⟩

/-- A line end of two bytes, an accented letter and a stray byte, read back and forth: from behind
the letter both glyphs ahead are read and gone back over, and there are three before it. -/
theorem cursor_exact_mixed :
    let file : File := ⟨0, "m.prg", [13, 13, 10, 0xC3, 0xA9, 0xE2, 0x82], 0⟩
    let c := (run file [.next, .eat 10, .mark, .next, .eat 66, .next, .rewind 4, .reset 0,
      .next]).cursor
    c.pos = ⟨5, 2, 2⟩ ∧ (∃ c', c.reads 2 = some c' ∧ c'.rewind file 2 = (2, c)) ∧
      c.rewind file 7 = (3, ⟨⟨0, 1, 1⟩, Glyph.ofText file.content⟩) := by
  intro file c
  obtain ⟨-, -, -, -, forth, start⟩ := cursor_exact file [.next, .eat 10, .mark, .next, .eat 66,
    .next, .rewind 4, .reset 0, .next]
  exact ⟨by decide, ⟨_, rfl, forth 2 _ rfl⟩, start 7 (by decide)⟩

end Reader

end PrgScript
