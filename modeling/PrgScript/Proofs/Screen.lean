import Mathlib.Data.List.TakeWhile
import PrgScript.Machine.Recorder
import PrgScript.Proofs.Glyphs
import PrgScript.Proofs.Widths

/-!
# The screen of a recorder

A wide character takes two cells of a row, itself and an empty cell behind it. As long as
the two stay together, a row is as wide as it has cells, and what was written at a column
is shown behind text of that width.

They stay together unless a text is written over one half of a wide character only: its
first cell on the empty cell behind one, or its last cell on one whose empty cell is left
behind it. Nothing repairs a row then. So the rows are in order after every call exactly if
no call cuts a wide character (`columns_kept_iff`).

`Paired` says of a row that the two cells stay together, cell by cell. `Aligned` builds such
rows from their characters, and is what writing keeps.
-/

namespace PrgScript

open Text

namespace Recorder

/-! ### Rows -/

def columns (cs : List Char) : Nat := total (cs.map charWidth)

@[simp] theorem columns_nil : columns [] = 0 := rfl

@[simp] theorem columns_cons (c : Char) (cs : List Char) :
    columns (c :: cs) = charWidth c + columns cs := total_cons _ _

@[simp] theorem columns_append (cs cs' : List Char) :
    columns (cs ++ cs') = columns cs + columns cs' := by
  induction cs with
  | nil => simp
  | cons c cs ih => simp [ih, Nat.add_assoc]

theorem length_cells (c : Char) : (cells c).length = charWidth c := by
  unfold cells
  split
  next none => rw [none]; rfl
  next width some => rw [some]; simp

theorem cells_of_none {c : Char} (none : charWidth c = 0) : cells c = [] :=
  List.eq_nil_of_length_eq_zero ((length_cells c).trans none)

theorem cells_head {c : Char} (some : 0 < charWidth c) : (cells c)[0]? = Option.some c := by
  unfold cells
  split
  next none => omega
  next => rfl

theorem length_flatMap_cells (cs : List Char) : (cs.flatMap cells).length = columns cs := by
  induction cs with
  | nil => rfl
  | cons c cs ih => rw [List.flatMap_cons, List.length_append, ih, length_cells, columns_cons]

/-- A row in which a cell is empty exactly if a wide character stands before it. -/
structure Paired (strip : List Char) : Prop where
  first : strip[0]? ≠ some emptyCell
  next : ∀ i, strip[i + 1]? = some emptyCell ↔ ∃ c, strip[i]? = some c ∧ charWidth c = 2

/-- A row built from characters with their cells. -/
inductive Aligned : List Char → Prop
  | nil : Aligned []
  | narrow {c : Char} {strip : List Char} (one : charWidth c = 1) (rest : Aligned strip) :
      Aligned (c :: strip)
  | wide {c : Char} {strip : List Char} (two : charWidth c = 2) (rest : Aligned strip) :
      Aligned (c :: emptyCell :: strip)

theorem charWidth_emptyCell : charWidth emptyCell = 0 := rfl

namespace Aligned

variable {strip strip' : List Char}

theorem paired (h : Aligned strip) : Paired strip := by
  induction h with
  | nil => exact ⟨by simp, by simp⟩
  | @narrow c strip one rest ih =>
      refine ⟨?_, fun i => ?_⟩
      · rintro ⟨⟩
        cases one
      · cases i with
        | zero => simp [ih.first, one]
        | succ i => simpa using ih.next i
  | @wide c strip two rest ih =>
      refine ⟨?_, fun i => ?_⟩
      · rintro ⟨⟩
        cases two
      · cases i with
        | zero => simp [two]
        | succ i =>
            cases i with
            | zero => simp [ih.first, charWidth_emptyCell]
            | succ i => simpa using ih.next i

theorem append (h : Aligned strip) (h' : Aligned strip') : Aligned (strip ++ strip') := by
  induction h with
  | nil => exact h'
  | narrow one rest ih => exact .narrow one ih
  | wide two rest ih => exact .wide two ih

theorem blanks (n : Nat) : Aligned (List.replicate n ' ') := by
  induction n with
  | zero => exact .nil
  | succ n ih => exact .narrow rfl ih

theorem cells (c : Char) : Aligned (Recorder.cells c) := by
  have width := charWidth_le_two c
  unfold Recorder.cells
  split
  · exact .nil
  next n some =>
    obtain rfl | rfl : n = 0 ∨ n = 1 := by omega
    · exact .narrow some .nil
    · exact .wide some .nil

theorem flatMap_cells (cs : List Char) : Aligned (cs.flatMap Recorder.cells) := by
  induction cs with
  | nil => exact .nil
  | cons c cs ih => exact (cells c).append ih

/-- A row may be cut before every cell that is not empty. -/
theorem cut (h : Aligned strip) {k : Nat} (whole : strip[k]? ≠ some emptyCell) :
    Aligned (strip.take k) ∧ Aligned (strip.drop k) := by
  induction h generalizing k with
  | nil => simp [Aligned.nil]
  | @narrow c strip one rest ih =>
      cases k with
      | zero => exact ⟨.nil, .narrow one rest⟩
      | succ k =>
          obtain ⟨left, right⟩ := ih (k := k) (by simpa using whole)
          exact ⟨.narrow one left, right⟩
  | @wide c strip two rest ih =>
      cases k with
      | zero => exact ⟨.nil, .wide two rest⟩
      | succ k =>
          cases k with
          | zero => simp at whole
          | succ k =>
              obtain ⟨left, right⟩ := ih (k := k) (by simpa using whole)
              exact ⟨.wide two left, right⟩

end Aligned

/-! ### Writing into a row -/

theorem length_overwrite_front (strip : List Char) (col : Nat) :
    ((strip ++ List.replicate (col - strip.length) ' ').take col).length = col := by
  simp only [List.length_take, List.length_append, List.length_replicate]
  omega

/-- Cells before a column are as they were, with blanks where there were none. -/
theorem getElem?_overwrite_left {strip new : List Char} {col i : Nat} (left : i < col) :
    (overwrite strip col new)[i]? = some (strip[i]?.getD ' ') := by
  have front := length_overwrite_front strip col
  rw [overwrite, List.append_assoc, List.getElem?_append_left (by omega),
    List.getElem?_take_of_lt left]
  rcases Nat.lt_or_ge i strip.length with old | gap
  · rw [List.getElem?_append_left old, List.getElem?_eq_getElem old]
    rfl
  · rw [List.getElem?_append_right gap, List.getElem?_eq_none gap,
      List.getElem?_replicate_of_lt (by omega)]
    rfl

/-- The new cells stand from the column on. -/
theorem getElem?_overwrite_inside {strip new : List Char} {col i : Nat} (inside : i < new.length) :
    (overwrite strip col new)[col + i]? = new[i]? := by
  have front := length_overwrite_front strip col
  rw [overwrite, List.append_assoc, List.getElem?_append_right (by omega), front,
    Nat.add_sub_cancel_left, List.getElem?_append_left inside]

/-- Cells behind the new ones are as they were. -/
theorem getElem?_overwrite_right {strip new : List Char} {col i : Nat}
    (right : col + new.length ≤ i) : (overwrite strip col new)[i]? = strip[i]? := by
  have front := length_overwrite_front strip col
  rw [overwrite, List.append_assoc, List.getElem?_append_right (by omega), front,
    List.getElem?_append_right (by omega), List.getElem?_drop]
  congr 1
  omega

/-- Whether cells written from a column on cut a wide character of a row: the first of them lies
on its second half, or the one behind them is its second half. -/
def splitsAt (strip : List Char) (col width : Nat) : Prop :=
  strip[col]? = some emptyCell ∨ strip[col + width]? = some emptyCell

instance (strip : List Char) (col width : Nat) : Decidable (splitsAt strip col width) :=
  inferInstanceAs (Decidable (_ ∨ _))

/-- Writing that cuts no wide character keeps a row in order. -/
theorem Aligned.overwrite {strip : List Char} (h : Aligned strip) {col : Nat} {cs : List Char}
    (whole : ¬splitsAt strip col (columns cs)) :
    Aligned (overwrite strip col (cs.flatMap Recorder.cells)) := by
  obtain ⟨left, right⟩ := not_or.1 whole
  have padded := h.append (blanks (col - strip.length))
  have front : Aligned ((strip ++ List.replicate (col - strip.length) ' ').take col) := by
    refine (padded.cut ?_).1
    rcases Nat.lt_or_ge col strip.length with inside | beyond
    · rwa [List.getElem?_append_left inside]
    · rw [List.getElem?_eq_none (by simp; omega)]
      simp
  rw [Recorder.overwrite, length_flatMap_cells]
  exact (front.append (flatMap_cells cs)).append (h.cut right).2

/-- Writing that cuts a wide character leaves a half of it without the other. -/
theorem not_paired_overwrite {strip : List Char} (h : Paired strip) {col : Nat} {cs : List Char}
    (some : 0 < columns cs) (cut : splitsAt strip col (columns cs)) :
    ¬Paired (overwrite strip col (cs.flatMap cells)) := by
  intro after
  have new := (Aligned.flatMap_cells cs).paired
  have length := length_flatMap_cells cs
  rcases cut with left | right
  · -- The wide character before the column has lost its second half.
    cases col with
    | zero => exact h.first left
    | succ k =>
        obtain ⟨c, old, two⟩ := (h.next k).1 left
        have kept : (overwrite strip (k + 1) (cs.flatMap cells))[k]? = Option.some c := by
          rw [getElem?_overwrite_left (Nat.lt_succ_self k), old]
          rfl
        have empty := (after.next k).2 ⟨c, kept, two⟩
        rw [← Nat.add_zero (k + 1), getElem?_overwrite_inside (by omega)] at empty
        exact new.first empty
  · -- The second half behind the new cells has lost its first one.
    obtain ⟨n, width⟩ : ∃ n, columns cs = n + 1 := ⟨columns cs - 1, by omega⟩
    have kept : (overwrite strip col (cs.flatMap cells))[col + n + 1]? = Option.some emptyCell := by
      rw [getElem?_overwrite_right (by omega), Nat.add_assoc, ← width, right]
    obtain ⟨c, last, two⟩ := (after.next (col + n)).1 kept
    rw [getElem?_overwrite_inside (by omega)] at last
    have beyond := (new.next n).2 ⟨c, last, two⟩
    rw [List.getElem?_eq_none (by omega)] at beyond
    cases beyond

/-! ### Writing on the screen -/

/-- A row of the screen; one that is not there yet has no cells. -/
def lineAt (r : Recorder) (i : Nat) : List Char := (r.screen[i]?).getD []

theorem grow_getD (row : Int) (screen : List (List Char)) (i : Nat) :
    ((grow row screen)[i]?).getD [] = (screen[i]?).getD [] := by
  rw [grow]
  rcases Nat.lt_or_ge i screen.length with old | new
  · rw [List.getElem?_append_left old]
  · rw [List.getElem?_append_right new, List.getElem?_eq_none new, List.getElem?_replicate]
    split <;> rfl

@[simp] theorem lineAt_lineFeed (r : Recorder) (i : Nat) : r.lineFeed.lineAt i = r.lineAt i :=
  grow_getD _ _ i

/-- Characters that take no column are not written. -/
theorem columns_filter (cs : List Char) :
    columns (cs.filter fun c => 0 < charWidth c) = columns cs := by
  induction cs with
  | nil => rfl
  | cons c cs ih =>
      rw [List.filter_cons]
      split
      · simp [ih]
      next none => simp [ih, show charWidth c = 0 by simpa using none]

theorem flatMap_cells_filter (cs : List Char) :
    (cs.filter fun c => 0 < charWidth c).flatMap cells = cs.flatMap cells := by
  induction cs with
  | nil => rfl
  | cons c cs ih =>
      rw [List.filter_cons]
      split
      · rw [List.flatMap_cons, List.flatMap_cons, ih]
      next none =>
        have empty : cells c = [] := cells_of_none (by simpa using none)
        rw [List.flatMap_cons, ih, empty, List.nil_append]

theorem putLine_eq (r : Recorder) (cs : List Char) :
    r.putLine cs =
      if columns cs = 0 then r
      else
        { r with
          screen := (grow r.row r.screen).modify r.row.toNat
            (overwrite · r.col.toNat (cs.flatMap cells))
          col := Number.wrap (r.col + columns cs) } := by
  have shown : (cs.filter fun c => 0 < charWidth c).isEmpty = true ↔ columns cs = 0 := by
    rw [← columns_filter, List.isEmpty_iff]
    refine ⟨fun none => by rw [none]; rfl, fun none => ?_⟩
    cases filtered : cs.filter fun c => 0 < charWidth c with
    | nil => rfl
    | cons c rest =>
        have taken : c ∈ cs.filter fun c => 0 < charWidth c := filtered ▸ List.mem_cons_self
        have width : 0 < charWidth c := by simpa using (List.mem_filter.1 taken).2
        rw [filtered, columns_cons] at none
        omega
  rw [putLine]
  simp only [shown, flatMap_cells_filter]
  split
  · rfl
  · rw [← columns_filter]
    rfl

theorem getElem?_grow {row : Int} {screen : List (List Char)} {i : Nat} (inside : (i : Int) ≤ row) :
    (grow row screen)[i]? = some ((screen[i]?).getD []) := by
  rw [grow]
  rcases Nat.lt_or_ge i screen.length with old | new
  · rw [List.getElem?_append_left old, List.getElem?_eq_getElem old]
    rfl
  · rw [List.getElem?_append_right new, List.getElem?_eq_none new,
      List.getElem?_replicate_of_lt (by omega)]
    rfl

section Line

variable {r : Recorder} {cs : List Char}

/-- Writing changes no other row than the one it is at. -/
theorem lineAt_putLine_of_ne {i : Nat} (other : i ≠ r.row.toNat) :
    (r.putLine cs).lineAt i = r.lineAt i := by
  rw [putLine_eq]
  split
  · rfl
  · have kept := List.getElem?_modify_ne (overwrite · r.col.toNat (cs.flatMap cells))
      (grow r.row r.screen) other.symm
    exact (congrArg (·.getD []) kept).trans (grow_getD r.row r.screen i)

/-- Writing changes the row it is at as it would by itself. -/
theorem lineAt_putLine (row : 0 ≤ r.row) (some : 0 < columns cs) :
    (r.putLine cs).lineAt r.row.toNat =
      overwrite (r.lineAt r.row.toNat) r.col.toNat (cs.flatMap cells) := by
  rw [putLine_eq, if_neg (by omega), lineAt, List.getElem?_modify_eq,
    getElem?_grow (by omega)]
  rfl

@[simp] theorem putLine_row (r : Recorder) (cs : List Char) : (r.putLine cs).row = r.row := by
  rw [putLine_eq]
  split <;> rfl

theorem lineFeed_row (row : 0 ≤ r.row) (inside : r.row + 1 < 2 ^ 63) : r.lineFeed.row = r.row + 1 :=
  Number.wrap_eq_self (by omega) inside

/-- Whether characters written at the current place cut a wide character. -/
def cutsLine (r : Recorder) (cs : List Char) : Prop :=
  0 < columns cs ∧ splitsAt (r.lineAt r.row.toNat) r.col.toNat (columns cs)

/-- Whether one of several stretches of characters cuts a wide character where it is written. -/
def cutsLines (r : Recorder) : List (List Char) → Prop
  | [] => False
  | [line] => r.cutsLine line
  | line :: lines => r.cutsLine line ∨ (r.putLine line).lineFeed.cutsLines lines

instance decidableCutsLines :
    (r : Recorder) → (lines : List (List Char)) → Decidable (r.cutsLines lines)
  | _, [] => inferInstanceAs (Decidable False)
  | _, [_] => inferInstanceAs (Decidable (_ ∧ _))
  | r, line :: next :: lines =>
      have := decidableCutsLines (r.putLine line).lineFeed (next :: lines)
      inferInstanceAs (Decidable ((_ ∧ _) ∨ _))

/-- A screen whose rows are all in order. -/
def IsAligned (r : Recorder) : Prop := ∀ i, Aligned (r.lineAt i)

theorem IsAligned.putLine (h : r.IsAligned) (row : 0 ≤ r.row) (whole : ¬r.cutsLine cs) :
    (r.putLine cs).IsAligned := by
  intro i
  by_cases other : i = r.row.toNat
  · subst other
    rcases Nat.eq_zero_or_pos (columns cs) with none | some
    · rw [putLine_eq, if_pos none]
      exact h _
    · rw [lineAt_putLine row some]
      exact (h _).overwrite fun cut => whole ⟨some, cut⟩
  · rw [lineAt_putLine_of_ne other]
    exact h i

theorem not_paired_putLine (h : r.IsAligned) (row : 0 ≤ r.row) (cut : r.cutsLine cs) :
    ¬Paired ((r.putLine cs).lineAt r.row.toNat) := by
  rw [lineAt_putLine row cut.1]
  exact not_paired_overwrite (h _).paired cut.1 cut.2

theorem IsAligned.lineFeed (h : r.IsAligned) : r.lineFeed.IsAligned := by
  intro i
  rw [lineAt_lineFeed]
  exact h i

end Line

/-- Induction on stretches that are written from a row on, as long as rows are numbers of one
word. -/
theorem lines_induction {motive : Recorder → List (List Char) → Prop} (nil : ∀ r, motive r [])
    (last : ∀ (r : Recorder) line, 0 ≤ r.row → motive r [line])
    (more : ∀ (r : Recorder) line line' lines, 0 ≤ r.row →
      (r.putLine line).lineFeed.row = r.row + 1 →
      r.row + 1 + (line' :: lines).length ≤ 2 ^ 63 →
      motive (r.putLine line).lineFeed (line' :: lines) → motive r (line :: line' :: lines))
    {r : Recorder} {lines : List (List Char)} (row : 0 ≤ r.row)
    (inside : r.row + lines.length ≤ 2 ^ 63) : motive r lines := by
  induction lines generalizing r with
  | nil => exact nil r
  | cons line lines ih =>
      cases lines with
      | nil => exact last r line row
      | cons line' lines =>
          have room : r.row + 1 + (line' :: lines).length ≤ 2 ^ 63 := by
            simp only [List.length_cons] at inside ⊢
            omega
          have next : (r.putLine line).lineFeed.row = r.row + 1 := by
            have some : 0 < (line' :: lines).length := Nat.succ_pos _
            rw [lineFeed_row (by rwa [putLine_row]) (by rw [putLine_row]; omega), putLine_row]
          exact more r line line' lines row next room (ih (by omega) (by rw [next]; exact room))

section Lines

variable {r : Recorder} {lines : List (List Char)} (row : 0 ≤ r.row)
  (inside : r.row + lines.length ≤ 2 ^ 63)

include row inside

/-- Rows above the current one stay as they are. -/
theorem lineAt_putLines {i : Nat} (above : i < r.row.toNat) :
    (r.putLines lines).lineAt i = r.lineAt i := by
  refine lines_induction
    (motive := fun r lines => i < r.row.toNat → (r.putLines lines).lineAt i = r.lineAt i)
    ?_ ?_ ?_ row inside above
  · exact fun r _ => rfl
  · exact fun r line _ above => lineAt_putLine_of_ne (Nat.ne_of_lt above)
  · intro r line line' lines row next _ ih above
    rw [putLines, ih (by omega), lineAt_lineFeed, lineAt_putLine_of_ne (Nat.ne_of_lt above)]
    simp

/-- Stretches that cut no wide character keep the screen in order. -/
theorem IsAligned.putLines (h : r.IsAligned) (whole : ¬r.cutsLines lines) :
    (r.putLines lines).IsAligned := by
  refine lines_induction
    (motive := fun r lines => r.IsAligned → ¬r.cutsLines lines → (r.putLines lines).IsAligned)
    ?_ ?_ ?_ row inside h whole
  · exact fun r h _ => h
  · exact fun r line row h whole => h.putLine row whole
  · intro r line line' lines row next _ ih h whole
    obtain ⟨first, rest⟩ := not_or.1 whole
    exact ih (h.putLine row first).lineFeed rest

/-- A stretch that cuts a wide character leaves its row out of order. -/
theorem exists_not_paired_putLines (h : r.IsAligned) (cut : r.cutsLines lines) :
    ∃ i, ¬Paired ((r.putLines lines).lineAt i) := by
  refine lines_induction
    (motive := fun r lines => r.IsAligned → r.cutsLines lines →
      ∃ i, ¬Paired ((r.putLines lines).lineAt i))
    ?_ ?_ ?_ row inside h cut
  · exact fun r _ cut => cut.elim
  · exact fun r line row h cut => ⟨_, not_paired_putLine h row cut⟩
  · intro r line line' lines row next room ih h cut
    rcases Classical.em (r.cutsLine line) with first | whole
    · refine ⟨r.row.toNat, ?_⟩
      have kept : ((r.putLine line).lineFeed.putLines (line' :: lines)).lineAt r.row.toNat =
          (r.putLine line).lineAt r.row.toNat := by
        rw [lineAt_putLines (by omega) (by rw [next]; exact room) (by omega), lineAt_lineFeed]
      show ¬Paired (((r.putLine line).lineFeed.putLines (line' :: lines)).lineAt r.row.toNat)
      rw [kept]
      exact not_paired_putLine h row first
    · exact ih (h.putLine row whole).lineFeed (cut.resolve_left whole)

theorem putLines_place (col : 0 ≤ r.col) (room : ∀ line ∈ lines, r.col + columns line < 2 ^ 63) :
    0 ≤ (r.putLines lines).row ∧ 0 ≤ (r.putLines lines).col := by
  refine lines_induction
    (motive := fun r lines => 0 ≤ r.row → 0 ≤ r.col →
      (∀ line ∈ lines, r.col + columns line < 2 ^ 63) →
      0 ≤ (r.putLines lines).row ∧ 0 ≤ (r.putLines lines).col)
    ?_ ?_ ?_ row inside row col room
  · exact fun r row col _ => ⟨row, col⟩
  · intro r line _ row col room
    rw [putLines, putLine_row, putLine_eq]
    refine ⟨row, ?_⟩
    split
    · exact col
    · have most := room line List.mem_cons_self
      show 0 ≤ Number.wrap (r.col + columns line)
      rw [Number.wrap_eq_self (by omega) most]
      omega
  · intro r line line' lines row next _ ih _ col room
    refine ih (by omega) (Int.le_refl 0) fun other mem => ?_
    have most := room other (List.mem_cons_of_mem _ mem)
    show (0 : Int) + columns other < 2 ^ 63
    omega

end Lines

/-! ### Calls -/

def textOf : ConsoleCall → Text
  | .say _ _ t => t
  | .print t => t
  | .color _ => []

/-- The recorder when the text of a call begins. -/
def begun (r : Recorder) (call : ConsoleCall) : Recorder :=
  match call with
  | .say row col _ => { r with calls := r.calls.push call, row, col }
  | _ => { r with calls := r.calls.push call }

def record (r : Recorder) : ConsoleCall → Recorder
  | .say row col t => r.say row col t
  | .print t => r.print t
  | .color colors => r.setColor colors

theorem record_eq (r : Recorder) (call : ConsoleCall) :
    r.record call = (r.begun call).put (textOf call) := by
  cases call <;> rfl

def after (r : Recorder) (calls : List ConsoleCall) : Recorder := calls.foldl record r

/-- What holds of every call of a sequence in the state that it meets. -/
def Throughout (P : Recorder → ConsoleCall → Prop) (r : Recorder) : List ConsoleCall → Prop
  | [] => True
  | call :: calls => P r call ∧ Throughout P (r.record call) calls

/-- A call that starts at no negative place and stays within the rows and columns that have a
number of one word. -/
def fits (r : Recorder) (call : ConsoleCall) : Prop :=
  (r.begun call).row + (chars (textOf call)).count '\n' < 2 ^ 63 ∧
    (r.begun call).col + columns (chars (textOf call)) < 2 ^ 63 ∧
    ∀ row col t, call = .say row col t → 0 ≤ row ∧ 0 ≤ col

def cuts (r : Recorder) (call : ConsoleCall) : Prop :=
  (r.begun call).cutsLines (stretches (chars (textOf call)))

instance (r : Recorder) (call : ConsoleCall) : Decidable (r.cuts call) :=
  inferInstanceAs (Decidable (cutsLines _ _))

theorem stretches_cons (c : Char) (cs : List Char) :
    ∃ line lines, stretches cs = line :: lines ∧
      stretches (c :: cs) = if c = '\n' then [] :: line :: lines else (c :: line) :: lines := by
  have some : stretches cs ≠ [] := by
    cases cs with
    | nil => simp [stretches]
    | cons d cs =>
        unfold stretches
        split
        · simp
        · split <;> simp
  cases found : stretches cs with
  | nil => exact absurd found some
  | cons line lines => exact ⟨line, lines, rfl, by rw [stretches, found]⟩

theorem length_stretches (cs : List Char) : (stretches cs).length = cs.count '\n' + 1 := by
  induction cs with
  | nil => rfl
  | cons c cs ih =>
      obtain ⟨line, lines, found, same⟩ := stretches_cons c cs
      rw [found] at ih
      rw [same, List.count_cons]
      by_cases feed : c = '\n'
      · simp [feed, ← ih]
      · simpa [feed] using ih

/-- No stretch is wider than all of them together. -/
theorem columns_le_of_mem_stretches {cs line : List Char} (mem : line ∈ stretches cs) :
    columns line ≤ columns cs := by
  induction cs generalizing line with
  | nil =>
      cases List.mem_singleton.1 mem
      exact Nat.le_refl _
  | cons c cs ih =>
      obtain ⟨first, lines, found, same⟩ := stretches_cons c cs
      rw [found] at ih
      rw [columns_cons]
      rw [same] at mem
      split at mem
      · rcases List.mem_cons.1 mem with rfl | later
        · exact Nat.zero_le _
        · exact Nat.le_add_left_of_le (ih later)
      · rcases List.mem_cons.1 mem with rfl | later
        · rw [columns_cons]
          exact Nat.add_le_add_left (ih List.mem_cons_self) _
        · exact Nat.le_add_left_of_le (ih (List.mem_cons_of_mem _ later))

/-- A recorder that stands at no negative place. -/
def OnGrid (r : Recorder) : Prop := 0 ≤ r.row ∧ 0 ≤ r.col

theorem begun_inside {r : Recorder} {call : ConsoleCall} (fit : r.fits call) :
    (r.begun call).row + (stretches (chars (textOf call))).length ≤ 2 ^ 63 := by
  have room := fit.1
  rw [length_stretches]
  omega

theorem begun_room {r : Recorder} {call : ConsoleCall} (fit : r.fits call) :
    ∀ line ∈ stretches (chars (textOf call)), (r.begun call).col + columns line < 2 ^ 63 := by
  intro line mem
  have most := columns_le_of_mem_stretches mem
  have room := fit.2.1
  omega

theorem begun_lineAt (r : Recorder) (call : ConsoleCall) (i : Nat) :
    (r.begun call).lineAt i = r.lineAt i := by
  cases call <;> rfl

section Call

variable {r : Recorder} {call : ConsoleCall} (place : r.OnGrid) (fit : r.fits call)

include place fit

theorem begun_onGrid : (r.begun call).OnGrid := by
  cases call with
  | say row col t => exact fit.2.2 row col t rfl
  | print | color => exact place

theorem record_onGrid : (r.record call).OnGrid := by
  obtain ⟨row, col⟩ := begun_onGrid place fit
  rw [record_eq]
  exact putLines_place row (begun_inside fit) col (begun_room fit)

/-- A call that cuts no wide character keeps the screen in order. -/
theorem IsAligned.record (h : r.IsAligned) (whole : ¬r.cuts call) : (r.record call).IsAligned := by
  have begun : (r.begun call).IsAligned := fun i => begun_lineAt r call i ▸ h i
  rw [record_eq]
  exact begun.putLines (begun_onGrid place fit).1 (begun_inside fit) whole

/-- A call that cuts a wide character leaves a row out of order. -/
theorem exists_not_paired_record (h : r.IsAligned) (cut : r.cuts call) :
    ∃ i, ¬Paired ((r.record call).lineAt i) := by
  have begun : (r.begun call).IsAligned := fun i => begun_lineAt r call i ▸ h i
  rw [record_eq]
  exact exists_not_paired_putLines (begun_onGrid place fit).1 (begun_inside fit) begun cut

end Call

section Calls

variable {r : Recorder} {calls : List ConsoleCall}

theorem IsAligned.after (h : r.IsAligned) (place : r.OnGrid) (fit : Throughout fits r calls)
    (whole : Throughout (¬cuts · ·) r calls) : (r.after calls).IsAligned := by
  induction calls generalizing r with
  | nil => exact h
  | cons call calls ih =>
      exact ih (h.record place fit.1 whole.1) (record_onGrid place fit.1) fit.2 whole.2

/-- If the screen is in order after every call, then no call has cut a wide character. -/
theorem throughout_of_paired (h : r.IsAligned) (place : r.OnGrid) (fit : Throughout fits r calls)
    (paired : ∀ k i, Paired ((r.after (calls.take k)).lineAt i)) :
    Throughout (¬cuts · ·) r calls := by
  induction calls generalizing r with
  | nil => exact trivial
  | cons call calls ih =>
      have whole : ¬r.cuts call := by
        intro cut
        obtain ⟨i, broken⟩ := exists_not_paired_record place fit.1 h cut
        exact broken (paired 1 i)
      exact ⟨whole, ih (h.record place fit.1 whole) (record_onGrid place fit.1) fit.2
        fun k i => paired (k + 1) i⟩

theorem Throughout.take {P : Recorder → ConsoleCall → Prop} (h : Throughout P r calls) (k : Nat) :
    Throughout P r (calls.take k) := by
  induction calls generalizing r k with
  | nil => simpa using h
  | cons call calls ih =>
      cases k with
      | zero => exact trivial
      | succ k => exact ⟨h.1, ih h.2 k⟩

end Calls

/-! ### What is written where -/

/-- A character and the row and column where it is written. -/
structure Place where
  row : Nat
  col : Nat
  char : Char
deriving DecidableEq

def Place.Covers (p : Place) (row col : Nat) : Prop :=
  p.row = row ∧ p.col ≤ col ∧ col < p.col + charWidth p.char

def places (row col : Nat) : List Char → List Place
  | [] => []
  | c :: cs =>
    if c = '\n' then places (row + 1) 0 cs
    else if charWidth c = 0 then places row col cs
    else ⟨row, col, c⟩ :: places row (col + charWidth c) cs

def written (r : Recorder) (call : ConsoleCall) : List Place :=
  places (r.begun call).row.toNat (r.begun call).col.toNat (chars (textOf call))

/-- The places where a sequence of calls writes, in order. -/
def log (r : Recorder) : List ConsoleCall → List Place
  | [] => []
  | call :: calls => r.written call ++ (r.record call).log calls

/-- Every character stands in the cell where it was written last. -/
def Holds (r : Recorder) (log : List Place) : Prop :=
  ∀ p later, p :: later <:+ log → (∀ q ∈ later, ¬q.Covers p.row p.col) →
    (r.lineAt p.row)[p.col]? = some p.char

section Places

variable {r : Recorder} {p : Place} {log : List Place} {row col : Nat} {strip cs : List Char}
  {c : Char}

theorem Holds.congr {r r' : Recorder} (h : r.Holds log) (same : ∀ i, r'.lineAt i = r.lineAt i) :
    r'.Holds log := by
  intro p later suffix free
  rw [same]
  exact h p later suffix free

theorem places_cons_of_width (inLine : c ≠ '\n') (some : 0 < charWidth c) :
    places row col (c :: cs) = ⟨row, col, c⟩ :: places row (col + charWidth c) cs := by
  rw [places, if_neg inLine, if_neg (by omega)]

theorem places_cons_of_none (inLine : c ≠ '\n') (none : charWidth c = 0) :
    places row col (c :: cs) = places row col cs := by
  rw [places, if_neg inLine, if_pos none]

/-- The characters of a line stand where their cells come to. -/
theorem getElem?_of_mem_places (inLine : '\n' ∉ cs) (mem : p ∈ places row col cs) :
    p.row = row ∧ ∃ i, p.col = col + i ∧ (cs.flatMap cells)[i]? = some p.char := by
  induction cs generalizing col with
  | nil => cases mem
  | cons c cs ih =>
      obtain ⟨notFeed, rest⟩ : c ≠ '\n' ∧ '\n' ∉ cs := by simpa [eq_comm] using inLine
      rw [List.flatMap_cons]
      rcases Nat.eq_zero_or_pos (charWidth c) with none | some
      · rw [places_cons_of_none notFeed none] at mem
        rw [cells_of_none none]
        exact ih rest mem
      rw [places_cons_of_width notFeed some] at mem
      have length := length_cells c
      rcases List.mem_cons.1 mem with rfl | later
      · refine ⟨rfl, 0, rfl, ?_⟩
        rw [List.getElem?_append_left (by omega), cells_head some]
      · obtain ⟨same, i, place, found⟩ := ih rest later
        refine ⟨same, charWidth c + i, by omega, ?_⟩
        rw [List.getElem?_append_right (by omega), length, Nat.add_sub_cancel_left, found]

/-- The places of a line take all of its columns. -/
theorem exists_covers (inLine : '\n' ∉ cs) {k : Nat} (left : col ≤ k)
    (right : k < col + columns cs) : ∃ p ∈ places row col cs, p.Covers row k := by
  induction cs generalizing col with
  | nil => exact absurd right (by simpa using left)
  | cons c cs ih =>
      obtain ⟨notFeed, rest⟩ : c ≠ '\n' ∧ '\n' ∉ cs := by simpa [eq_comm] using inLine
      rw [columns_cons] at right
      rcases Nat.eq_zero_or_pos (charWidth c) with none | some
      · rw [places_cons_of_none notFeed none]
        exact ih rest left (by omega)
      rw [places_cons_of_width notFeed some]
      rcases Nat.lt_or_ge k (col + charWidth c) with own | later
      · exact ⟨_, List.mem_cons_self, rfl, left, own⟩
      · obtain ⟨p, mem, covers⟩ := ih rest later (by omega)
        exact ⟨p, List.mem_cons_of_mem _ mem, covers⟩

/-- What follows a place in a longer log. -/
theorem suffix_append_cases {later log new : List Place} (h : p :: later <:+ log ++ new) :
    p ∈ new ∨ ∃ later', p :: later' <:+ log ∧ later = later' ++ new := by
  obtain ⟨front, same⟩ := h
  rcases List.append_eq_append_iff.1 same with ⟨as, rfl, rest⟩ | ⟨bs, rfl, rest⟩
  · cases as with
    | nil => exact .inl (by rw [List.nil_append] at rest; rw [← rest]; exact List.mem_cons_self)
    | cons q as =>
        obtain ⟨rfl, rfl⟩ := List.cons.inj rest
        exact .inr ⟨as, ⟨front, rfl⟩, rfl⟩
  · exact .inl (by rw [rest]; exact List.mem_append_right bs List.mem_cons_self)

/-- Cells that no character of a line takes stay as they are. -/
theorem getElem?_putLine (row : 0 ≤ r.row) (inLine : '\n' ∉ cs) {i k : Nat}
    (old : (r.lineAt i)[k]? = some c)
    (free : ∀ q ∈ places r.row.toNat r.col.toNat cs, ¬q.Covers i k) :
    ((r.putLine cs).lineAt i)[k]? = some c := by
  by_cases other : i = r.row.toNat
  · subst other
    rcases Nat.eq_zero_or_pos (columns cs) with none | some
    · rw [putLine_eq, if_pos none, old]
    have length := length_flatMap_cells cs
    rw [lineAt_putLine row some]
    rcases Nat.lt_or_ge k r.col.toNat with left | inside
    · rw [getElem?_overwrite_left left, old]
      rfl
    rcases Nat.lt_or_ge k (r.col.toNat + columns cs) with covered | right
    · obtain ⟨q, mem, covers⟩ := exists_covers inLine inside covered
      exact absurd covers (free q mem)
    · rw [getElem?_overwrite_right (by omega), old]
  · rw [lineAt_putLine_of_ne other, old]

/-- Writing a line puts its characters in their places and leaves the cells beside them. -/
theorem Holds.putLine (h : r.Holds log) (row : 0 ≤ r.row) (inLine : '\n' ∉ cs) :
    (r.putLine cs).Holds (log ++ places r.row.toNat r.col.toNat cs) := by
  intro p later suffix free
  obtain new | ⟨later', old, rfl⟩ := suffix_append_cases suffix
  · obtain ⟨same, i, place, found⟩ := getElem?_of_mem_places inLine new
    obtain ⟨inside, -⟩ := List.getElem?_eq_some_iff.1 found
    have length := length_flatMap_cells cs
    rw [same, place, lineAt_putLine row (by omega), getElem?_overwrite_inside inside, found]
  · refine getElem?_putLine row inLine ?_ fun q mem => free q (List.mem_append_right _ mem)
    exact h p later' old fun q mem => free q (List.mem_append_left _ mem)

/-- The places of stretches, each in a row of its own. -/
def placesOfLines (row col : Nat) : List (List Char) → List Place
  | [] => []
  | line :: lines => places row col line ++ placesOfLines (row + 1) 0 lines

theorem places_eq_placesOfLines (row col : Nat) (cs : List Char) :
    places row col cs = placesOfLines row col (stretches cs) := by
  induction cs generalizing row col with
  | nil => rfl
  | cons c cs ih =>
      obtain ⟨line, lines, found, same⟩ := stretches_cons c cs
      rw [same]
      split
      next feed =>
        rw [places, if_pos feed, ih, found]
        rfl
      next notFeed =>
        rw [placesOfLines]
        rcases Nat.eq_zero_or_pos (charWidth c) with none | some
        · rw [places_cons_of_none notFeed none, places_cons_of_none notFeed none, ih, found,
            placesOfLines]
        · rw [places_cons_of_width notFeed some, places_cons_of_width notFeed some, ih, found,
            placesOfLines, List.cons_append]

theorem newline_not_mem_stretches {cs line : List Char} (mem : line ∈ stretches cs) :
    '\n' ∉ line := by
  induction cs generalizing line with
  | nil =>
      cases List.mem_singleton.1 mem
      exact List.not_mem_nil
  | cons c cs ih =>
      obtain ⟨first, lines, found, same⟩ := stretches_cons c cs
      rw [found] at ih
      rw [same] at mem
      split at mem
      · rcases List.mem_cons.1 mem with rfl | later
        · exact List.not_mem_nil
        · exact ih later
      next notFeed =>
        rcases List.mem_cons.1 mem with rfl | later
        · simpa [eq_comm, notFeed] using ih List.mem_cons_self
        · exact ih (List.mem_cons_of_mem _ later)

theorem Holds.putLines (h : r.Holds log) (row : 0 ≤ r.row) {lines : List (List Char)}
    (inside : r.row + lines.length ≤ 2 ^ 63) (inLine : ∀ line ∈ lines, '\n' ∉ line) :
    (r.putLines lines).Holds (log ++ placesOfLines r.row.toNat r.col.toNat lines) := by
  refine lines_induction
    (motive := fun r lines => ∀ log, r.Holds log → (∀ line ∈ lines, '\n' ∉ line) →
      (r.putLines lines).Holds (log ++ placesOfLines r.row.toNat r.col.toNat lines))
    ?_ ?_ ?_ row inside log h inLine
  · intro r log h _
    simpa [placesOfLines, Recorder.putLines] using h
  · intro r line row log h inLine
    simpa [placesOfLines, Recorder.putLines] using h.putLine row (inLine line List.mem_cons_self)
  · intro r line line' lines row next _ ih log h inLine
    rw [List.forall_mem_cons] at inLine
    have rest := ih _ ((h.putLine row inLine.1).congr (lineAt_lineFeed _)) inLine.2
    have below : (r.row + 1).toNat = r.row.toNat + 1 := by omega
    rw [next, below, List.append_assoc] at rest
    exact rest

/-- A call puts the characters of its text in their places. -/
theorem Holds.record (h : r.Holds log) (place : r.OnGrid) {call : ConsoleCall} (fit : r.fits call) :
    (r.record call).Holds (log ++ r.written call) := by
  have begun : (r.begun call).Holds log := h.congr (begun_lineAt r call)
  rw [record_eq, written, places_eq_placesOfLines]
  exact begun.putLines (begun_onGrid place fit).1 (begun_inside fit)
    fun line => newline_not_mem_stretches

theorem Holds.after (h : r.Holds log) (place : r.OnGrid) {calls : List ConsoleCall}
    (fit : Throughout fits r calls) : (r.after calls).Holds (log ++ r.log calls) := by
  induction calls generalizing r log with
  | nil => simpa [Recorder.log, Recorder.after] using h
  | cons call calls ih =>
      rw [Recorder.log, ← List.append_assoc]
      exact ih (h.record place fit.1) (record_onGrid place fit.1) fit.2

/-! ### The text of a row -/

def shown (strip : List Char) : List Char := strip.filter (· != emptyCell)

/-- A row in order is as wide as it has cells. -/
theorem Aligned.columns_shown (h : Aligned strip) : columns (shown strip) = strip.length := by
  induction h with
  | nil => rfl
  | @narrow c strip one rest ih =>
      have some : c ≠ emptyCell := by
        rintro rfl
        cases one
      simp only [shown] at ih
      simp [shown, some, one, ih, Nat.add_comm]
  | @wide c strip two rest ih =>
      have some : c ≠ emptyCell := by
        rintro rfl
        cases two
      simp only [shown] at ih
      simp [shown, some, two, ih]
      omega

/-- A character in a cell stands behind as many columns as there are cells before it. -/
theorem Aligned.shown_split (h : Aligned strip) {k : Nat} (cell : strip[k]? = some c)
    (some : c ≠ emptyCell) :
    ∃ before behind, shown strip = before ++ c :: behind ∧ columns before = k := by
  obtain ⟨inside, same⟩ := List.getElem?_eq_some_iff.1 cell
  have left := (h.cut (k := k) (by simpa [cell] using some)).1
  refine ⟨shown (strip.take k), shown (strip.drop (k + 1)), ?_, ?_⟩
  · conv => lhs; rw [← List.take_append_drop k strip, List.drop_eq_getElem_cons inside, same]
    simp [shown, some]
  · rw [left.columns_shown, List.length_take_of_le (Nat.le_of_lt inside)]

/-- The blanks at the end of a row are not part of its text. -/
theorem chars_rowText {before behind : List Char} (split : shown strip = before ++ c :: behind) :
    (∃ behind', chars (rowText strip) = before ++ c :: behind') ∨
      c = ' ' ∧ chars (rowText strip) <+: before := by
  have text : chars (rowText strip) = ((shown strip).reverse.dropWhile (· == ' ')).reverse :=
    chars_ofChars _
  rw [text, split, List.reverse_append, List.dropWhile_append]
  cases trimmed : (c :: behind).reverse.dropWhile (· == ' ') with
  | nil =>
      have blank : ∀ d ∈ (c :: behind).reverse, (d == ' ') = true :=
        List.dropWhile_eq_nil_iff.1 trimmed
      refine .inr ⟨by simpa using blank c (by simp), ?_⟩
      rw [if_pos List.isEmpty_nil, ← List.reverse_suffix, List.reverse_reverse]
      exact List.dropWhile_suffix _
  | cons d rest =>
      have part : (d :: rest).reverse <+: c :: behind := by
        rw [← List.reverse_suffix, List.reverse_reverse, ← trimmed]
        exact List.dropWhile_suffix _
      rw [if_neg (by simp), List.reverse_append, List.reverse_reverse]
      obtain none | ⟨behind', same, -⟩ := List.prefix_cons_iff.1 part
      · simp at none
      · exact .inl ⟨behind', by rw [same]⟩

theorem charWidth_of_mem_places (mem : p ∈ places row col cs) : 0 < charWidth p.char := by
  induction cs generalizing row col with
  | nil => cases mem
  | cons c cs ih =>
      rw [places] at mem
      split at mem
      · exact ih mem
      split at mem
      · exact ih mem
      next some =>
        rcases List.mem_cons.1 mem with rfl | later
        · exact Nat.pos_of_ne_zero some
        · exact ih later

theorem charWidth_of_mem_log {calls : List ConsoleCall} (mem : p ∈ r.log calls) :
    0 < charWidth p.char := by
  induction calls generalizing r with
  | nil => cases mem
  | cons call calls ih =>
      rcases List.mem_append.1 mem with own | later
      · exact charWidth_of_mem_places own
      · exact ih later

theorem forall_lineAt (r : Recorder) :
    (∀ line ∈ r.screen, Paired line) ↔ ∀ i, Paired (r.lineAt i) := by
  constructor
  · intro all i
    unfold lineAt
    cases row : r.screen[i]? with
    | none => exact Aligned.nil.paired
    | some line => exact all line (List.mem_of_getElem? row)
  · intro all line mem
    obtain ⟨i, row⟩ := List.mem_iff_getElem?.1 mem
    simpa [lineAt, row] using all i

/-- A character in a cell of a screen in order is shown behind as many columns as there are cells
before it, unless it is one of the blanks at the end of its row, which are not shown. -/
theorem IsAligned.shows (h : r.IsAligned) {i k : Nat} (cell : (r.lineAt i)[k]? = some c)
    (some : c ≠ emptyCell) :
    ∃ t, r.rows[i]? = Option.some t ∧
      ((∃ before behind, chars t = before ++ c :: behind ∧ columns before = k) ∨
        c = ' ' ∧ columns (chars t) ≤ k) := by
  have row : r.rows[i]? = Option.some (rowText (r.lineAt i)) := by
    rw [rows, List.getElem?_map]
    cases found : r.screen[i]? with
    | none => simp [lineAt, found] at cell
    | some line => simp [lineAt, found]
  refine ⟨_, row, ?_⟩
  obtain ⟨before, behind, split, width⟩ := (h i).shown_split cell some
  obtain ⟨behind', text⟩ | ⟨blank, rest, text⟩ := chars_rowText split
  · exact .inl ⟨before, behind', text, width⟩
  · refine .inr ⟨blank, ?_⟩
    rw [← width, ← text, columns_append]
    exact Nat.le_add_right _ _

end Places

/-- The rows of the screen are in order after every call exactly if no call writes over one half of
a wide character only. Then every character that is still where it was written is shown behind as
many columns as its own says; only blanks at the end of a row are not shown. -/
theorem columns_kept_iff (calls : List ConsoleCall) (fit : Throughout fits {} calls) :
    ((∀ k, ∀ line ∈ (({} : Recorder).after (calls.take k)).screen, Paired line) ↔
        Throughout (¬cuts · ·) {} calls) ∧
      (Throughout (¬cuts · ·) {} calls → ∀ p later, p :: later <:+ ({} : Recorder).log calls →
        (∀ q ∈ later, ¬q.Covers p.row p.col) →
          ∃ t, (({} : Recorder).after calls).rows[p.row]? = some t ∧
            ((∃ before behind, chars t = before ++ p.char :: behind ∧ columns before = p.col) ∨
              p.char = ' ' ∧ columns (chars t) ≤ p.col)) := by
  have place : ({} : Recorder).OnGrid := ⟨Int.le_refl 0, Int.le_refl 0⟩
  have fresh : ({} : Recorder).IsAligned := fun _ => .nil
  refine ⟨⟨fun paired => ?_, fun whole k => ?_⟩, fun whole p later suffix free => ?_⟩
  · exact throughout_of_paired fresh place fit fun k => (forall_lineAt _).1 (paired k)
  · exact (forall_lineAt _).2 fun i => (fresh.after place (fit.take k) (whole.take k) i).paired
  · have nothing : ({} : Recorder).Holds [] := fun p later suffix _ => by simp at suffix
    have cell := nothing.after place fit p later suffix free
    refine (fresh.after place fit whole).shows cell ?_
    intro empty
    have width := charWidth_of_mem_log (suffix.subset List.mem_cons_self)
    rw [empty] at width
    cases width

/-- A wide character that is written over as a whole leaves the one before it where it is. -/
theorem columns_kept_iff_replaced :
    ∃ calls : List ConsoleCall,
      calls = [.say 0 2 (ofString "日本"), .print (ofString "!\n語"), .say 0 4 (ofString "zz")] ∧
        Throughout fits {} calls ∧ Throughout (¬cuts · ·) {} calls ∧
          (({} : Recorder).after calls).rows = [ofString "  日zz!", ofString "語"] ∧
            (∀ k, ∀ line ∈ (({} : Recorder).after (calls.take k)).screen, Paired line) ∧
              ∃ t, (({} : Recorder).after calls).rows[0]? = some t ∧
                ((∃ before behind, chars t = before ++ '日' :: behind ∧ columns before = 2) ∨
                  '日' = ' ' ∧ columns (chars t) ≤ 2) := by
  have fit : Throughout fits {}
      [.say 0 2 (ofString "日本"), .print (ofString "!\n語"), .say 0 4 (ofString "zz")] := by
    refine ⟨⟨by decide, by decide +kernel, ?_⟩, ⟨by decide +kernel, by decide +kernel, ?_⟩,
      ⟨by decide, by decide +kernel, ?_⟩, trivial⟩
    all_goals rintro _ _ _ ⟨⟩ <;> decide
  have whole : Throughout (¬cuts · ·) {}
      [.say 0 2 (ofString "日本"), .print (ofString "!\n語"), .say 0 4 (ofString "zz")] :=
    ⟨by decide +kernel, by decide +kernel, by decide +kernel, trivial⟩
  obtain ⟨inOrder, kept⟩ := columns_kept_iff _ fit
  refine ⟨_, rfl, fit, whole, by decide +kernel, inOrder.2 whole, ?_⟩
  refine kept whole ⟨0, 2, '日'⟩
    [⟨0, 4, '本'⟩, ⟨0, 6, '!'⟩, ⟨1, 0, '語'⟩, ⟨0, 4, 'z'⟩, ⟨0, 5, 'z'⟩] ?_ ?_
  · exact ⟨[], by decide +kernel⟩
  · simp only [Place.Covers]
    decide

/-- A character written on the second half of a wide one is shown a column too far. -/
theorem half_written_over :
    let calls : List ConsoleCall := [.say 0 0 (ofString "日"), .say 0 1 (ofString "x")]
    Throughout fits {} calls ∧
      ({} : Recorder).log calls = [⟨0, 0, '日'⟩, ⟨0, 1, 'x'⟩] ∧
        (¬∀ line ∈ (({} : Recorder).after calls).screen, Paired line) ∧
          (({} : Recorder).after calls).rows = [ofString "日x"] ∧ columns ['日'] = 2 := by
  refine ⟨?_, by decide +kernel, ?_, by decide +kernel, by decide +kernel⟩
  · refine ⟨⟨by decide, by decide +kernel, ?_⟩, ⟨by decide, by decide +kernel, ?_⟩, trivial⟩
    all_goals (rintro _ _ _ ⟨⟩; decide)
  · intro paired
    have row : Paired ['日', 'x'] := paired _ (by decide +kernel)
    have empty := (row.next 0).2 ⟨'日', rfl, by decide +kernel⟩
    cases empty

end Recorder

end PrgScript
