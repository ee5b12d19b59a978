import PrgScript.Proofs.Gaps
import PrgScript.Proofs.GlyphSteps
import PrgScript.Proofs.TwinCompile
import PrgScript.Proofs.TwinScan

/-!
# Line ends on disk and in memory

A script read from disk has its pairs of carriage return and line feed replaced by line
feeds before it is read. In a script that is not on disk they stay, and a pair is read as
one line feed. Both ways come to the same: `compile` gives the same program or
an error of the same code on the same line.

Glyph by glyph there is one difference besides the bytes of line ends. Of a run of
carriage returns before a line feed, the folded script loses the last one, so
the one before it makes a pair with the line feed. `Glyph.Folded` says this, and the rest follows
from it: the lost carriage return is a blank outside of strings and comments, and in a
string the line end behind it is an error anyway.
-/

namespace PrgScript

open Text Scanner

/-! ### Folded texts -/

namespace File

theorem foldLineEnds_cons {b : UInt8} {t : Text}
    (alone : ¬(b = carriageReturn ∧ t.head? = some newline)) :
    foldLineEnds (b :: t) = b :: foldLineEnds t := by
  rw [foldLineEnds]
  rintro t' rfl rfl
  exact alone ⟨rfl, rfl⟩

theorem foldLineEnds_append {s : Text} (high : ∀ b ∈ s, 128 ≤ b.toNat) (t : Text) :
    foldLineEnds (s ++ t) = s ++ foldLineEnds t := by
  induction s with
  | nil => rfl
  | cons b s ih =>
      rw [List.forall_mem_cons] at high
      have alone : ¬(b = carriageReturn ∧ (s ++ t).head? = some newline) := by
        rintro ⟨rfl, -⟩
        exact absurd high.1 (by decide)
      rw [List.cons_append, foldLineEnds_cons alone, ih high.2, List.cons_append]

theorem highFront_foldLineEnds (t : Text) : highFront (foldLineEnds t) = highFront t := by
  fun_induction foldLineEnds t with
  | case1 => rfl
  | case2 t ih => rfl
  | case3 b t other ih =>
      rcases Nat.lt_or_ge b.toNat 128 with low | high
      · rw [highFront_cons_of_lt low, highFront_cons_of_lt low]
      · rw [highFront_cons high, highFront_cons high, ih]

/-- A folded text starts with a line feed only if the text starts with a line end. -/
theorem startsLineEnd_of_foldLineEnds {t : Text} (starts : (foldLineEnds t).head? = some newline) :
    t.head? = some newline ∨ ∃ rest, t = carriageReturn :: newline :: rest := by
  fun_cases foldLineEnds t with
  | case1 => cases starts
  | case2 rest => exact .inr ⟨rest, rfl⟩
  | case3 b rest other =>
      rw [foldLineEnds.eq_3 b rest other] at starts
      exact .inl starts

end File

namespace Glyph

/-- Glyphs of a text, and those of the text with its line ends folded. -/
inductive Folded : List Glyph → List Glyph → Prop
  | nil : Folded [] []
  | keep {g : Glyph} {gs gs' : List Glyph} (inLine : g.char ≠ '\n') (rest : Folded gs gs') :
      Folded (g :: gs) (g :: gs')
  | lineEnd {g g' : Glyph} {gs gs' : List Glyph} (isEnd : g.char = '\n') (isEnd' : g'.char = '\n')
      (rest : Folded gs gs') : Folded (g :: gs) (g' :: gs')
  | lost {r g g' : Glyph} {gs gs' : List Glyph} (isReturn : r.char = '\r') (isEnd : g.char = '\n')
      (isEnd' : g'.char = '\n') (rest : Folded gs gs') : Folded (r :: g :: gs) (g' :: gs')

theorem Folded.of_lineEnd {g g' : Glyph} {gs gs' : List Glyph} (isEnd : g.char = '\n')
    (folded : Folded (g :: gs) (g' :: gs')) : Folded gs gs' := by
  cases folded with
  | keep _ rest | lineEnd _ _ rest => exact rest
  | lost isReturn =>
      rw [isReturn] at isEnd
      cases isEnd

/-- The bytes of a glyph behind its first one, a pair apart, belong to one character. -/
theorem Leads.high_tail {b : UInt8} {more t : Text} {c : Char} (leads : Leads ⟨c, b :: more⟩ t)
    (alone : ¬(b = carriageReturn ∧ (more ++ t).head? = some newline)) :
    ∀ x ∈ more, 128 ≤ x.toNat := by
  obtain pair | ⟨y, -, single⟩ | ⟨-, high⟩ := leads.shape
  · cases pair
    exact absurd ⟨rfl, rfl⟩ alone
  · cases single
    intro x mem
    cases mem
  · exact (List.forall_mem_cons.1 high).2

/-- Folding a text acts on its glyphs one by one. -/
theorem folded_ofText (t : Text) : Folded (ofText t) (ofText (File.foldLineEnds t)) := by
  induction t using text_induction with
  | nil => exact .nil
  | cons g t leads ih =>
      rw [leads.ofText]
      cases leads with
      | pair =>
          have isEnd : (⟨'\n', [newline]⟩ : Glyph).char = '\n' := rfl
          exact .lineEnd rfl isEnd ih
      | @char b more t c alone read =>
          have leads : Leads ⟨c, b :: more⟩ t := .char alone read
          have folds : File.foldLineEnds (b :: more ++ t) = b :: more ++ File.foldLineEnds t := by
            rw [List.cons_append, File.foldLineEnds_cons alone,
              File.foldLineEnds_append (leads.high_tail alone), List.cons_append]
          rw [folds]
          by_cases lost : b :: more = [carriageReturn] ∧
            (File.foldLineEnds t).head? = some newline
          · -- The carriage return makes a pair with the line feed that is left of a pair.
            obtain ⟨bytes, starts⟩ := lost
            cases bytes
            obtain feed | ⟨rest, rfl⟩ := File.startsLineEnd_of_foldLineEnds starts
            · exact absurd ⟨rfl, feed⟩ alone
            · obtain rfl : c = '\r' :=
                congrArg Prod.fst (read.symm.trans (Front.one (by decide)).decode)
              exact .lost rfl rfl rfl (ih.of_lineEnd rfl)
          · have leads' := leads.congr (File.highFront_foldLineEnds t)
              fun bytes starts => lost ⟨bytes, starts⟩
            rw [leads'.ofText]
            by_cases isEnd : c = '\n'
            · exact .lineEnd isEnd isEnd ih
            · exact .keep isEnd ih

/-- A question about the next character that takes a carriage return and a line feed alike has the
same answer on both sides. -/
theorem Folded.next {gs gs' : List Glyph} (folded : Folded gs gs') {α : Type}
    {f : Option Char → α} (alike : f (some '\r') = f (some '\n')) :
    f (gs.head?.map (·.char)) = f (gs'.head?.map (·.char)) := by
  cases folded with
  | nil | keep => rfl
  | lineEnd isEnd isEnd' => simp only [List.head?_cons, Option.map_some, isEnd, isEnd']
  | lost isReturn _ isEnd' =>
      simp only [List.head?_cons, Option.map_some, isReturn, isEnd', alike]

theorem Folded.next_any {gs gs' : List Glyph} (folded : Folded gs gs') {p : Char → Bool}
    (noReturn : p '\r' = false) (noEnd : p '\n' = false) :
    (gs.head?.any fun g => p g.char) = gs'.head?.any fun g => p g.char := by
  have next := folded.next (f := fun next => next.any p) (by simp [noReturn, noEnd])
  simpa only [Option.any_map] using next

/-- Some glyphs of one line, the same on both sides, and folded glyphs behind them. -/
inductive SameFront : Nat → List Glyph → List Glyph → Prop
  | zero {gs gs' : List Glyph} (folded : Folded gs gs') : SameFront 0 gs gs'
  | succ {n : Nat} {g : Glyph} {gs gs' : List Glyph} (inLine : g.char ≠ '\n')
      (rest : SameFront n gs gs') : SameFront (n + 1) (g :: gs) (g :: gs')

namespace SameFront

variable {m n : Nat} {gs gs' : List Glyph}

theorem take (h : SameFront n gs gs') : gs.take n = gs'.take n := by
  induction h with
  | zero => rfl
  | succ _ _ ih => rw [List.take_succ_cons, List.take_succ_cons, ih]

theorem drop (h : SameFront n gs gs') : Folded (gs.drop n) (gs'.drop n) := by
  induction h with
  | zero folded => exact folded
  | succ _ _ ih => exact ih

theorem inLine (h : SameFront n gs gs') : ∀ g ∈ gs.take n, g.char ≠ '\n' := by
  induction h with
  | zero => simp
  | succ inLine _ ih => simpa [inLine] using ih

theorem add (h : SameFront n gs gs') (more : SameFront m (gs.drop n) (gs'.drop n)) :
    SameFront (n + m) gs gs' := by
  induction h with
  | zero => simpa using more
  | succ inLine _ ih =>
      rw [Nat.add_right_comm]
      exact .succ inLine (ih more)

theorem append {us : List Glyph} (inLine : ∀ g ∈ us, g.char ≠ '\n') (h : SameFront n gs gs') :
    SameFront (us.length + n) (us ++ gs) (us ++ gs') := by
  induction us with
  | nil => simpa using h
  | cons g us ih =>
      rw [List.forall_mem_cons] at inLine
      rw [List.length_cons, Nat.add_right_comm]
      exact .succ inLine.1 (ih inLine.2)

/-- Glyphs of a class that neither part of a line end is in. -/
theorem run {p : Char → Bool} (noReturn : p '\r' = false) (noEnd : p '\n' = false)
    (folded : Folded gs gs') :
    Scanner.run p gs' = Scanner.run p gs ∧ SameFront (Scanner.run p gs) gs gs' := by
  induction folded with
  | nil => exact ⟨rfl, .zero .nil⟩
  | @keep g gs gs' inLine rest ih =>
      by_cases holds : p g.char = true
      · simp only [Scanner.run, List.takeWhile_cons, holds, if_true, List.length_cons] at ih ⊢
        exact ⟨by rw [ih.1], .succ inLine ih.2⟩
      · simp only [Scanner.run, List.takeWhile_cons, holds]
        exact ⟨rfl, .zero (.keep inLine rest)⟩
  | lineEnd isEnd isEnd' rest =>
      simp only [Scanner.run, List.takeWhile_cons, isEnd, isEnd', noEnd]
      exact ⟨rfl, .zero (.lineEnd isEnd isEnd' rest)⟩
  | lost isReturn isEnd isEnd' rest =>
      simp only [Scanner.run, List.takeWhile_cons, isReturn, isEnd', noReturn, noEnd]
      exact ⟨rfl, .zero (.lost isReturn isEnd isEnd' rest)⟩

/-- A mark that stands on one side stands on the other side too. -/
theorem mark {cs : List Char} (marks : ∀ c ∈ cs, IsMark c) (folded : Folded gs gs')
    (starts : cs <+: gs.map (·.char) ∨ cs <+: gs'.map (·.char)) : SameFront cs.length gs gs' := by
  induction cs generalizing gs gs' with
  | nil => exact .zero folded
  | cons c cs ih =>
      rw [List.forall_mem_cons] at marks
      obtain ⟨⟨-, noReturn, noEnd⟩, marks⟩ := marks
      cases folded with
      | nil => simp at starts
      | keep inLine rest =>
          simp only [List.map_cons, List.cons_prefix_cons] at starts
          exact .succ inLine (ih marks rest (starts.imp And.right And.right))
      | lineEnd isEnd isEnd' =>
          simp only [List.map_cons, List.cons_prefix_cons, isEnd, isEnd', noEnd, false_and,
            or_self] at starts
      | lost isReturn _ isEnd' =>
          simp only [List.map_cons, List.cons_prefix_cons, isReturn, isEnd', noReturn, noEnd,
            false_and, or_self] at starts

theorem starts_iff {cs : List Char} (marks : ∀ c ∈ cs, IsMark c) (folded : Folded gs gs') :
    cs <+: gs.map (·.char) ↔ cs <+: gs'.map (·.char) := by
  have same (front : SameFront cs.length gs gs') :
      cs <+: gs.map (·.char) ↔ cs <+: gs'.map (·.char) := by
    rw [List.prefix_iff_eq_take, List.prefix_iff_eq_take, ← List.map_take, ← List.map_take,
      front.take]
  constructor
  · intro starts
    exact (same (mark marks folded (.inl starts))).1 starts
  · intro starts
    exact (same (mark marks folded (.inr starts))).2 starts

end SameFront

end Glyph

/-! ### Cursors -/

namespace Cursor

theorem line_skip (c : Cursor) (n : Nat) :
    (c.skip n).pos.line = c.pos.line + (c.rest.take n).countP Glyph.isEnd := by
  rw [skip_eq, Pos.foldl_advance]

theorem rest_skip_add (c : Cursor) (m n : Nat) :
    (c.skip (m + n)).rest = (c.skip m).rest.drop n := by
  rw [← skip_skip, skip_rest n]

/-- Cursors on the same line, with folded glyphs ahead. -/
def Folded (c c' : Cursor) : Prop := c.pos.line = c'.pos.line ∧ Glyph.Folded c.rest c'.rest

/-- Reading some glyphs of one line does not change the line. -/
theorem line_skip_of_inLine {c : Cursor} {n : Nat} (inLine : ∀ g ∈ c.rest.take n, g.char ≠ '\n') :
    (c.skip n).pos.line = c.pos.line := by
  have none : (c.rest.take n).countP Glyph.isEnd = 0 := by
    rw [List.countP_eq_zero]
    intro g mem isEnd
    exact inLine g mem (beq_iff_eq.1 isEnd)
  rw [line_skip, none, Nat.add_zero]

namespace Folded

variable {c c' : Cursor} {n : Nat}

theorem skip (h : c.Folded c') (front : Glyph.SameFront n c.rest c'.rest) :
    (c.skip n).Folded (c'.skip n) := by
  have inLine := front.inLine
  refine ⟨?_, by simpa only [skip_rest] using front.drop⟩
  rw [line_skip_of_inLine inLine, line_skip_of_inLine (front.take ▸ inLine), h.1]

theorem lineEnd (h : c.Folded c') {g g' : Glyph} {gs gs' : List Glyph} (ahead : c.rest = g :: gs)
    (ahead' : c'.rest = g' :: gs') (isEnd : g.char = '\n') (isEnd' : g'.char = '\n')
    (rest : Glyph.Folded gs gs') : (c.skip 1).Folded (c'.skip 1) := by
  refine ⟨?_, by simpa only [skip_rest, ahead, ahead', List.drop_one, List.tail_cons] using rest⟩
  rw [line_skip, line_skip, ahead, ahead', h.1]
  simp [Glyph.isEnd, isEnd, isEnd']

/-- The lost carriage return is read on one side only. -/
theorem lost (h : c.Folded c') {r : Glyph} {gs : List Glyph} (ahead : c.rest = r :: gs)
    (isReturn : r.char = '\r') (rest : Glyph.Folded gs c'.rest) : (c.skip 1).Folded c' := by
  refine ⟨?_, by simpa only [skip_rest, ahead, List.drop_one, List.tail_cons] using rest⟩
  rw [line_skip, ahead, ← h.1]
  simp [Glyph.isEnd, isReturn]

end Folded

end Cursor

/-! ### Blanks and comments -/

namespace Scanner

/-- States of skipping on both sides. A block comment started on the same line. -/
inductive SkipMode.Folded (c c' : Cursor) : SkipMode → SkipMode → Prop
  | between : Folded c c' .between .between
  | inLine : Folded c c' .inLine .inLine
  | inBlock {form : CommentForm} {start start' : Nat} (isBlock : form.isBlock = true)
      (line : (c.skip start).pos.line = (c'.skip start').pos.line) :
      Folded c c' (.inBlock form start) (.inBlock form start')

/-- Outcomes of skipping on both sides. -/
inductive Skipped.Folded (c c' : Cursor) : Skipped → Skipped → Prop
  | clear {n n' : Nat} (behind : (c.skip n).Folded (c'.skip n'))
      (solid : ∀ g ∈ (c.skip n).rest.head?, isBlank g.char = false) :
      Folded c c' (.clear n) (.clear n')
  | fault {n n' more more' : Nat} {cause : Cause}
      (line : (c.skip n).pos.line = (c'.skip n').pos.line) :
      Folded c c' (.fault n more cause) (.fault n' more' cause)

theorem Skipped.Folded.at_glyph {c c' : Cursor} {n n' : Nat} {g : Glyph} {gs : List Glyph}
    (behind : (c.skip n).Folded (c'.skip n')) (ahead : (c.skip n).rest = g :: gs)
    (solid : isBlank g.char = false) : Folded c c' (.clear n) (.clear n') := by
  refine .clear behind fun x mem => ?_
  rw [ahead] at mem
  cases mem
  exact solid

theorem SkipMode.Folded.opened {c c' : Cursor} {n n' : Nat} (form : CommentForm)
    (line : (c.skip n).pos.line = (c'.skip n').pos.line) :
    Folded c c' (.opened form n) (.opened form n') := by
  unfold SkipMode.opened
  split
  next isBlock => exact .inBlock isBlock line
  next => exact .inLine

theorem commentAt?_folded {gs gs' : List Glyph} (folded : Glyph.Folded gs gs') (d : Dialect)
    (c : Char) :
    commentAt? d c (gs.head?.map (·.char)) = commentAt? d c (gs'.head?.map (·.char)) := by
  apply folded.next (f := commentAt? d c)
  have alike : (opensWith · c (some '\r')) = (opensWith · c (some '\n')) := by
    funext form
    cases form <;> rfl
  rw [commentAt?, commentAt?, alike]

/-- A block comment is closed by nothing but its mark. -/
theorem not_closes {form : CommentForm} (isBlock : form.isBlock = true) {c : Char}
    (noMark : ¬Glyph.IsMark c) (cs : List Char) : ¬form.closer <+: c :: cs := by
  intro closes
  have marks := form.isMark.2
  cases closer : form.closer with
  | nil => simp [CommentForm.isBlock, closer] at isBlock
  | cons x xs =>
      rw [closer, List.forall_mem_cons] at marks
      rw [closer, List.cons_prefix_cons] at closes
      exact noMark (closes.1 ▸ marks.1)

/-- From two places on, skipping comes to the same in every state. -/
def SkipsAlike (d : Dialect) (c c' : Cursor) (n n' : Nat) : Prop :=
  ∀ mode mode', SkipMode.Folded c c' mode mode' →
    (skipTrivia d mode n (c.skip n).rest).Folded c c' (skipTrivia d mode' n' (c'.skip n').rest)

namespace SkipsAlike

variable {d : Dialect} {c c' : Cursor} {n n' : Nat} {g g' : Glyph} {gs gs' : List Glyph}

theorem nil (meets : (c.skip n).Folded (c'.skip n')) (ahead : (c.skip n).rest = [])
    (ahead' : (c'.skip n').rest = []) : SkipsAlike d c c' n n' := by
  intro mode mode' modes
  have clear : (Skipped.clear n).Folded c c' (.clear n') := by
    refine .clear meets fun x mem => ?_
    rw [ahead] at mem
    cases mem
  rw [ahead, ahead']
  cases modes with
  | between | inLine => exact clear
  | inBlock _ line => exact .fault line

/-- A carriage return is passed in every state. -/
theorem lost (ahead : (c.skip n).rest = g :: gs) (isReturn : g.char = '\r')
    (more : SkipsAlike d c c' (n + 1) n') : SkipsAlike d c c' n n' := by
  intro mode mode' modes
  have behind := more mode mode' modes
  rw [Cursor.rest_skip_add, ahead, List.drop_one, List.tail_cons] at behind
  have passed : skipTrivia d mode n (g :: gs) = skipTrivia d mode (n + 1) gs := by
    cases modes with
    | between => exact skipTrivia_blank (by rw [isReturn]; rfl)
    | inLine => exact skipTrivia_inLine (by rw [isReturn]; decide)
    | inBlock isBlock =>
        have noMark : ¬Glyph.IsMark g.char := fun mark => mark.2.1 isReturn
        exact skipTrivia_inBlock (not_closes isBlock noMark _)
  rw [ahead, passed]
  exact behind

theorem lineEnd (meets : (c.skip n).Folded (c'.skip n')) (ahead : (c.skip n).rest = g :: gs)
    (ahead' : (c'.skip n').rest = g' :: gs') (isEnd : g.char = '\n') (isEnd' : g'.char = '\n')
    (more : SkipsAlike d c c' (n + 1) (n' + 1)) : SkipsAlike d c c' n n' := by
  intro mode mode' modes
  have behind {mode mode' : SkipMode} (modes : SkipMode.Folded c c' mode mode') :=
    more mode mode' modes
  simp only [Cursor.rest_skip_add, ahead, ahead', List.drop_one, List.tail_cons] at behind
  have between : (skipTrivia d .between n (g :: gs)).Folded c c'
      (skipTrivia d .between n' (g' :: gs')) := by
    cases token : d.newlineSignificant with
    | true =>
        rw [skipTrivia_token isEnd token, skipTrivia_token isEnd' token]
        exact .at_glyph meets ahead (by rw [isEnd]; rfl)
    | false =>
        rw [skipTrivia_lineEnd isEnd token, skipTrivia_lineEnd isEnd' token]
        exact behind .between
  rw [ahead, ahead']
  cases modes with
  | between => exact between
  | inLine =>
      rw [skipTrivia_endOfLine isEnd, skipTrivia_endOfLine isEnd']
      exact between
  | inBlock isBlock started =>
      have noMark {x : Glyph} (isEnd : x.char = '\n') : ¬Glyph.IsMark x.char :=
        fun mark => mark.2.2 isEnd
      rw [skipTrivia_inBlock (not_closes isBlock (noMark isEnd) _),
        skipTrivia_inBlock (not_closes isBlock (noMark isEnd') _)]
      exact behind (.inBlock isBlock started)

/-- A glyph of a line, or the mark that starts with it, is passed in the same way. -/
theorem keep (meets : (c.skip n).Folded (c'.skip n')) (ahead : (c.skip n).rest = g :: gs)
    (ahead' : (c'.skip n').rest = g :: gs') (inLine : g.char ≠ '\n')
    (rest : Glyph.Folded gs gs')
    (more : ∀ m, 0 < m → Glyph.SameFront m (g :: gs) (g :: gs') →
      SkipsAlike d c c' (n + m) (n' + m)) : SkipsAlike d c c' n n' := by
  intro mode mode' modes
  have folded : Glyph.Folded (g :: gs) (g :: gs') := .keep inLine rest
  have behind {m : Nat} (some : 0 < m) (front : Glyph.SameFront m (g :: gs) (g :: gs'))
      {mode mode' : SkipMode} (modes : SkipMode.Folded c c' mode mode') :=
    more m some front mode mode' modes
  simp only [Cursor.rest_skip_add, ahead, ahead'] at behind
  have next {mode mode' : SkipMode} := @behind 1 Nat.one_pos (.succ inLine (.zero rest)) mode mode'
  rw [ahead, ahead']
  cases modes with
  | inLine =>
      rw [skipTrivia_inLine inLine, skipTrivia_inLine inLine]
      exact next .inLine
  | @inBlock form start start' isBlock started =>
      have marks := form.isMark.2
      have closers := Glyph.SameFront.starts_iff marks folded
      by_cases closes : form.closer <+: (g :: gs).map (·.char)
      · rw [skipTrivia_close isBlock closes, skipTrivia_close isBlock (closers.1 closes)]
        have some : 0 < form.closer.length := by
          obtain ⟨_, _, closer⟩ | ⟨_, closer⟩ := closer_cases isBlock <;> simp [closer]
        exact behind some (.mark marks folded (.inl closes)) .between
      · rw [skipTrivia_inBlock closes, skipTrivia_inBlock (mt closers.2 closes)]
        exact next (.inBlock isBlock started)
  | between =>
      have comments := commentAt?_folded rest d g.char
      cases blank : isBlank g.char with
      | true =>
          rw [skipTrivia_blank blank, skipTrivia_blank blank]
          exact next .between
      | false =>
          cases found : commentAt? d g.char (gs.head?.map (·.char)) with
          | none =>
              rw [skipTrivia_solid inLine blank found,
                skipTrivia_solid inLine blank (comments ▸ found)]
              exact .at_glyph meets ahead blank
          | some form =>
              have found' := comments ▸ found
              by_cases foreign : d.usage form = .foreign
              · rw [skipTrivia_foreign inLine blank found foreign,
                  skipTrivia_foreign inLine blank found' foreign]
                exact .fault meets.1
              · rw [skipTrivia_comment inLine blank found foreign,
                  skipTrivia_comment inLine blank found' foreign]
                exact behind (Nat.succ_pos _)
                  (.mark form.isMark.1 folded (.inl (opener_starts found)))
                  (.opened form meets.1)

/-- The induction is on the number of glyphs ahead. -/
theorem of_folded (d : Dialect) (meets : (c.skip n).Folded (c'.skip n')) :
    SkipsAlike d c c' n n' := by
  induction size : (c.skip n).rest.length using Nat.strongRecOn generalizing n n' with
  | ind k ih =>
  have go (m m' : Nat) (some : 0 < m) (inside : (c.skip n).rest ≠ [])
      (meets : ((c.skip n).skip m).Folded ((c'.skip n').skip m')) :
      SkipsAlike d c c' (n + m) (n' + m') := by
    rw [Cursor.skip_skip, Cursor.skip_skip] at meets
    refine ih _ ?_ meets rfl
    have := List.length_pos_iff.2 inside
    rw [Cursor.rest_skip_add, List.length_drop]
    omega
  have folded := meets.2
  generalize ahead : (c.skip n).rest = gs at folded go
  generalize ahead' : (c'.skip n').rest = gs' at folded
  cases folded with
  | nil => exact nil meets ahead ahead'
  | keep inLine rest =>
      refine keep meets ahead ahead' inLine rest fun m some front => ?_
      exact go m m some (List.cons_ne_nil _ _) (meets.skip (by rwa [ahead, ahead']))
  | lineEnd isEnd isEnd' rest =>
      refine lineEnd meets ahead ahead' isEnd isEnd' ?_
      exact go 1 1 Nat.one_pos (List.cons_ne_nil _ _)
        (meets.lineEnd ahead ahead' isEnd isEnd' rest)
  | lost isReturn isEnd isEnd' rest =>
      refine lost ahead isReturn ?_
      have behind := meets.lost ahead isReturn (ahead' ▸ Glyph.Folded.lineEnd isEnd isEnd' rest)
      exact go 1 0 Nat.one_pos (List.cons_ne_nil _ _) behind

end SkipsAlike

/-! ### Lexemes -/

theorem isLetter_lineEnd : isLetter '\r' = false ∧ isLetter '\n' = false := by decide +kernel

/-- Lexemes on both sides that start with the same glyph: the same token, or errors of the same
code on the line of that glyph. -/
inductive Lexeme.Folded (g : Glyph) (gs gs' : List Glyph) : Lexeme → Lexeme → Prop
  | token {kind : Kind} {value : Text} {more : Nat} (front : Glyph.SameFront more gs gs') :
      Folded g gs gs' (.token kind value more) (.token kind value more)
  | fault {cause cause' : Cause} {start start' more more' : Nat} (codes : cause.code = cause'.code)
      (inLine : ∀ x ∈ (g :: gs).take start, x.char ≠ '\n')
      (inLine' : ∀ x ∈ (g :: gs').take start', x.char ≠ '\n') :
      Folded g gs gs' (.fault cause start more) (.fault cause' start' more')

namespace Lexeme.Folded

variable {g : Glyph} {gs gs' : List Glyph}

theorem identifier (d : Dialect) (folded : Glyph.Folded gs gs') :
    Folded g gs gs' (identifier d g gs) (identifier d g gs') := by
  obtain ⟨same, front⟩ := Glyph.SameFront.run (p := isIdentContinue) rfl rfl folded
  unfold Scanner.identifier
  dsimp only
  rw [same, ← front.take]
  exact .token front

theorem numberMore (folded : Glyph.Folded gs gs') :
    numberMore g gs' = numberMore g gs ∧ Glyph.SameFront (numberMore g gs) gs gs' := by
  obtain ⟨same, front⟩ := Glyph.SameFront.run (p := isDigit) rfl rfl folded
  unfold Scanner.numberMore
  dsimp only
  rw [same]
  have behind := front.drop
  by_cases point : g.char = '.'
  · rw [if_pos point, if_pos point]
    exact ⟨rfl, front⟩
  rw [if_neg point, if_neg point]
  generalize ahead : gs.drop (run isDigit gs) = after at behind ⊢
  generalize ahead' : gs'.drop (run isDigit gs) = after' at behind ⊢
  cases behind with
  | nil => exact ⟨rfl, front⟩
  | lineEnd isEnd isEnd' => simpa [isEnd, isEnd'] using front
  | lost isReturn isEnd isEnd' => simpa [isReturn, isEnd'] using front
  | keep inLine rest =>
      have letters := rest.next_any (p := isLetter) isLetter_lineEnd.1 isLetter_lineEnd.2
      obtain ⟨fraction, digits⟩ := Glyph.SameFront.run (p := isDigit) rfl rfl rest
      dsimp only
      rw [letters, fraction]
      split
      · have more : Glyph.SameFront (1 + run isDigit _) _ _ :=
          Nat.add_comm 1 _ ▸ Glyph.SameFront.succ inLine digits
        rw [← ahead, ← ahead'] at more
        exact ⟨rfl, Nat.add_assoc .. ▸ front.add more⟩
      · exact ⟨rfl, front⟩

theorem number (folded : Glyph.Folded gs gs') :
    Folded g gs gs' (number g gs) (number g gs') := by
  obtain ⟨same, front⟩ := numberMore (g := g) folded
  rw [number_eq, number_eq]
  dsimp only
  rw [same, front.drop.next_any (p := isIdentStart) rfl rfl]
  split
  · exact .fault rfl (by simp) (by simp)
  · exact .token front

theorem dotWord (folded : Glyph.Folded gs gs') :
    Folded g gs gs' (dotWord gs) (dotWord gs') := by
  obtain ⟨same, front⟩ :=
    Glyph.SameFront.run (p := isLetter) isLetter_lineEnd.1 isLetter_lineEnd.2 folded
  have closed := front.drop.next_any (p := (· == '.')) rfl rfl
  unfold Scanner.dotWord
  dsimp only
  rw [same, ← front.take, closed]
  split
  next kind value _ =>
    split
    next both =>
      have point : ['.'] <+: (gs'.drop (run isLetter gs)).map (·.char) := by
        obtain ⟨-, closed⟩ := both
        cases ahead : gs'.drop (run isLetter gs) with
        | nil =>
            rw [ahead] at closed
            cases closed
        | cons x xs =>
            rw [ahead] at closed
            have char : x.char = '.' := by simpa using closed
            simp [char]
      exact .token (front.add (.mark (by simp [Glyph.IsMark]) front.drop (.inr point)))
    next => exact .token (.zero folded)
  next => exact .token (.zero folded)

theorem operator (c : Char) (folded : Glyph.Folded gs gs') :
    operator c (gs'.head?.map (·.char)) = operator c (gs.head?.map (·.char)) ∧
      Glyph.SameFront (Scanner.operator c (gs.head?.map (·.char))).2 gs gs' := by
  have alike : Scanner.operator c (some '\r') = Scanner.operator c (some '\n') := by
    obtain ⟨same, -⟩ | ⟨impossible, -⟩ := operator_cases c (some '\r')
    · obtain ⟨same', -⟩ | ⟨impossible, -⟩ := operator_cases c (some '\n')
      · rw [same, same']
      · simp at impossible
    · simp at impossible
  refine ⟨(folded.next alike).symm, ?_⟩
  obtain ⟨same, single⟩ | ⟨next, two⟩ := operator_cases c (gs.head?.map (·.char))
  · rw [same, single]
    exact .zero folded
  · rw [two]
    have starts {x : Char} (next : gs.head?.map (·.char) = some x) : [x] <+: gs.map (·.char) := by
      cases gs with
      | nil => cases next
      | cons g gs => simpa using next.symm
    obtain next | next | next := next
    all_goals exact .mark (by simp [Glyph.IsMark]) folded (.inl (starts next))

section StringRest

variable (d : Dialect) {quote : Char} (proper : quote ≠ '\r') (first : g.char ≠ '\n')

include first in
/-- What stands behind a backslash in a string literal, where the glyphs `us` and a backslash have
been read. A line end that has lost its carriage return makes for another message. -/
theorem escapeRest {us : List Glyph} {slash : Glyph}
    (inLine : ∀ x ∈ us ++ [slash], x.char ≠ '\n') (value : List Char)
    (folded : Glyph.Folded gs gs')
    (more : ∀ e c rest rest', gs = e :: rest → gs' = e :: rest' → e.char ≠ '\n' →
      Glyph.Folded rest rest' →
      Folded g (us ++ slash :: gs) (us ++ slash :: gs')
        (stringRest d quote (us.length + 2) (c :: value) rest)
        (stringRest d quote (us.length + 2) (c :: value) rest')) :
    Folded g (us ++ slash :: gs) (us ++ slash :: gs') (escapeRest d quote us.length value gs)
      (escapeRest d quote us.length value gs') := by
  have read (t : List Glyph) :
      ∀ x ∈ (g :: (us ++ slash :: t)).take (us.length + 2), x.char ≠ '\n' := by
    have taken : (g :: (us ++ slash :: t)).take (us.length + 2) = g :: (us ++ [slash]) := by
      simp [List.take_append, List.take_of_length_le]
    rw [taken, List.forall_mem_cons]
    exact ⟨first, inLine⟩
  cases folded with
  | nil => exact .fault rfl (by simp) (by simp)
  | lineEnd isEnd isEnd' =>
      simp only [Scanner.escapeRest, isEnd, isEnd', if_true]
      exact .fault rfl (by simp) (by simp)
  | lost isReturn isEnd isEnd' =>
      simp only [Scanner.escapeRest, isReturn, isEnd', if_true]
      exact .fault rfl (read _) (by simp)
  | @keep e rest rest' inLineE folded =>
      simp only [Scanner.escapeRest, if_neg inLineE]
      split
      · exact .fault rfl (by simp) (by simp)
      split
      next c _ => exact more e c rest rest' rfl rfl inLineE folded
      next => exact .fault rfl (read _) (read _)

include proper first in
/-- The rest of a string literal of which the glyphs `us` have been read. -/
theorem stringRest {us : List Glyph} (inLine : ∀ x ∈ us, x.char ≠ '\n') (value : List Char)
    (folded : Glyph.Folded gs gs') :
    Folded g (us ++ gs) (us ++ gs') (stringRest d quote us.length value gs)
      (stringRest d quote us.length value gs') := by
  induction size : gs.length using Nat.strongRecOn generalizing us value gs gs' with
  | ind k ih =>
  cases folded with
  | nil => exact .fault rfl (by simp) (by simp)
  | lineEnd isEnd isEnd' =>
      rw [stringRest_lineEnd isEnd, stringRest_lineEnd isEnd']
      exact .fault rfl (by simp) (by simp)
  | @lost r _ _ _ _ isReturn isEnd isEnd' =>
      have inLine : r.char ≠ '\n' := by simp [isReturn]
      have noQuote : r.char ≠ quote := isReturn ▸ proper.symm
      rw [stringRest_keep inLine noQuote (.inl (by simp [isReturn])), stringRest_lineEnd isEnd,
        stringRest_lineEnd isEnd']
      exact .fault rfl (by simp) (by simp)
  | @keep x rest rest' inLineX folded =>
      have inLine' : ∀ y ∈ us ++ [x], y.char ≠ '\n' := by
        rw [List.forall_mem_append]
        exact ⟨inLine, by simpa using inLineX⟩
      by_cases closes : x.char = quote
      · rw [stringRest_close inLineX closes, stringRest_close inLineX closes]
        exact .token (.append inLine (.succ inLineX (.zero folded)))
      by_cases plain : x.char ≠ '\\' ∨ d.escapes = false
      · rw [stringRest_keep inLineX closes plain, stringRest_keep inLineX closes plain]
        have more := ih rest.length (by simp at size; omega) inLine' (x.char :: value) folded rfl
        simpa using more
      · simp only [ne_eq, not_or, Decidable.not_not, Bool.not_eq_false] at plain
        rw [stringRest_slash plain.1 closes plain.2, stringRest_slash plain.1 closes plain.2]
        refine escapeRest d first inLine' value folded ?_
        rintro e c after after' rfl rfl inLineE folded
        have inLine'' : ∀ y ∈ us ++ [x, e], y.char ≠ '\n' := by
          rw [List.forall_mem_append]
          exact ⟨inLine, by simp [inLineX, inLineE]⟩
        have more := ih after.length (by simp at size; omega) inLine'' (c :: value) folded rfl
        simpa using more

end StringRest

end Lexeme.Folded

theorem lexeme_folded (d : Dialect) {g : Glyph} {gs gs' : List Glyph} (inLine : g.char ≠ '\n')
    (folded : Glyph.Folded gs gs') : (lexeme d g gs).Folded g gs gs' (lexeme d g gs') := by
  have digits := folded.next (f := fun next => next.any isDigit) rfl
  obtain ⟨operators, front⟩ := Lexeme.Folded.operator g.char folded
  unfold lexeme
  dsimp only at digits ⊢
  rw [if_neg inLine, if_neg inLine, digits, operators]
  split
  · exact .identifier d folded
  split
  · exact .number folded
  split
  · exact .dotWord folded
  split
  next isQuote =>
    have proper : g.char ≠ '\r' := by
      rintro isReturn
      rw [isReturn] at isQuote
      cases d <;> cases isQuote
    have nothing : ∀ x ∈ ([] : List Glyph), x.char ≠ '\n' := by simp
    exact .stringRest d proper inLine nothing [] folded
  split
  · exact .fault rfl (by simp) (by simp)
  · exact .token front

/-! ### Tokens -/

end Scanner

namespace Scanner

theorem seen_tokenBetween {file file' : File} {kind : Kind} {value : Text} {n : Nat}
    {start start' : Cursor} (line : start.pos.line = start'.pos.line)
    (text : start.rest.take n = start'.rest.take n) (stop stop' : Cursor) :
    (tokenBetween file kind value n start stop).seen .lines =
      (tokenBetween file' kind value n start' stop').seen .lines := by
  simp only [Token.seen, tokenBetween, text, line]
  rfl

/-- Errors of the same code on the same line look the same. -/
theorem alike_failed {file file' : File} {Q : Cursor → Cursor → Prop} {cause cause' : Cause}
    {start start' : Cursor} (codes : cause.code = cause'.code)
    (line : start.pos.line = start'.pos.line) (stop stop' : Cursor) :
    Alike .lines Q (failed file cause start stop, stop)
      (failed file' cause' start' stop', stop') := by
  refine .error ?_
  simp only [ScriptError.seen, ScriptError.code, codes, line]
  rfl

/-- One step of scanning on both sides. -/
theorem scan_folded (file file' : File) (d : Dialect) {c c' : Cursor} (folded : c.Folded c') :
    Alike .lines Cursor.Folded (scan file d c) (scan file' d c') := by
  have meets : (c.skip 0).Folded (c'.skip 0) := folded
  have alike := SkipsAlike.of_folded d meets .between .between .between
  rw [show (c.skip 0).rest = c.rest from rfl, show (c'.skip 0).rest = c'.rest from rfl] at alike
  generalize skipped : skipTrivia d .between 0 c.rest = first at alike
  generalize skipped' : skipTrivia d .between 0 c'.rest = second at alike
  cases alike with
  | @fault n n' more more' cause line =>
      rw [scan_badComment file skipped, scan_badComment file' skipped']
      exact alike_failed rfl line _ _
  | @clear n n' behind solid =>
      have folded := behind.2
      generalize ahead : (c.skip n).rest = gs at folded solid
      generalize ahead' : (c'.skip n').rest = gs' at folded
      cases folded with
      | nil =>
          rw [scan_end file skipped ahead, scan_end file' skipped' ahead']
          exact .token (seen_tokenBetween behind.1 rfl _ _) behind
      | lost isReturn =>
          have blank := solid _ rfl
          rw [isReturn] at blank
          cases blank
      | @lineEnd g g' gs gs' isEnd isEnd' rest =>
          have lexed {g : Glyph} (isEnd : g.char = '\n') (gs : List Glyph) :
              lexeme d g gs = .token .newline [] 0 := if_pos isEnd
          rw [scan_token file skipped ahead (lexed isEnd gs),
            scan_token file' skipped' ahead' (lexed isEnd' gs')]
          refine .token ?_ (behind.lineEnd ahead ahead' isEnd isEnd' rest)
          simp only [Token.seen, tokenBetween, behind.1]
          rfl
      | keep inLine rest =>
          have lexemes := lexeme_folded d inLine rest
          generalize lexed : lexeme d _ _ = first at lexemes
          generalize lexed' : lexeme d _ _ = second at lexemes
          cases lexemes with
          | token front =>
              have front' := Glyph.SameFront.succ inLine front
              rw [← ahead, ← ahead'] at front'
              rw [scan_token file skipped ahead lexed, scan_token file' skipped' ahead' lexed']
              exact .token (seen_tokenBetween behind.1 front'.take _ _) (behind.skip front')
          | fault codes inLine inLine' =>
              rw [scan_badLexeme file skipped ahead lexed,
                scan_badLexeme file' skipped' ahead' lexed']
              rw [← ahead] at inLine
              rw [← ahead'] at inLine'
              apply alike_failed codes
              rw [Cursor.line_skip_of_inLine inLine, Cursor.line_skip_of_inLine inLine', behind.1]

end Scanner

/-! ### Scripts -/

theorem File.content_ofDisk {bytes : Text} (noMark : ¬byteOrderMark <+: bytes)
    (normal : isNormal (foldLineEnds bytes) = true) (path : Text) :
    (ofDisk path bytes).content = foldLineEnds bytes := by
  have unmarked : dropMark bytes = bytes := by
    rw [dropMark, if_neg]
    simpa using noMark
  simp only [ofDisk, tidy, unmarked, normal, if_true]

/-- The tokens of a script and of the script with its line ends folded differ in their columns and
spans only. -/
theorem TokenStream.seen_of_folded {file file' : File} (d : Dialect)
    (folds : file'.content = File.foldLineEnds file.content) :
    (ofFile file d).seen .lines = (ofFile file' d).seen .lines := by
  apply seen_ofFile (Q := Cursor.Folded)
  · intro c c' folded
    exact Scanner.scan_folded file file' d folded
  · refine ⟨rfl, ?_⟩
    rw [folds]
    exact Glyph.folded_ofText file.content

/-- A script without a byte order mark that is in normal form once its line ends are folded is
compiled from disk as it is from memory: to the same program and listing, or to an error of the same
code on the same line. -/
theorem compile_ofDisk (path bytes : Text) (noMark : ¬File.byteOrderMark <+: bytes)
    (normal : isNormal (File.foldLineEnds bytes) = true) (dialect : Option Dialect) (limit : Int)
    (name : Text) :
    let onDisk := (compile (File.ofDisk path bytes) dialect limit name).result
    let inMemory := (compile (File.ofSource path bytes) dialect limit name).result
    (∃ compiled, onDisk = .ok compiled ∧ inMemory = .ok compiled) ∨
      (∃ e e', onDisk = .error (.script e) ∧ inMemory = .error (.script e') ∧
        e.code = e'.code ∧ e.line = e'.line) ∨
      dialect = none ∧ onDisk = .error .unknownDialect ∧ inMemory = .error .unknownDialect := by
  intro onDisk inMemory
  cases dialect with
  | none => exact .inr (.inr ⟨rfl, rfl, rfl⟩)
  | some d =>
      have same : (TokenStream.ofFile (File.ofSource path bytes) d).seen .lines =
          (TokenStream.ofFile (File.ofDisk path bytes) d).seen .lines :=
        TokenStream.seen_of_folded d (File.content_ofDisk noMark normal path)
      have ids : (File.ofSource path bytes).id = (File.ofDisk path bytes).id := rfl
      have paths : (File.ofSource path bytes).path = (File.ofDisk path bytes).path := rfl
      obtain ⟨ends, -⟩ := compileIn_alike d name ids paths same
      have fromDisk : onDisk = _ := compile_result (File.ofDisk path bytes) d limit name
      have fromMemory : inMemory = _ := compile_result (File.ofSource path bytes) d limit name
      generalize (compileIn (File.ofDisk path bytes) d name {}).result = first at ends fromDisk
      generalize (compileIn (File.ofSource path bytes) d name {}).result = second at ends fromMemory
      cases ends with
      | ok looksSame =>
          rw [InvImage, Compiled.seen_of_exact (fun _ => rfl) (fun _ => rfl),
            Compiled.seen_of_exact (fun _ => rfl) (fun _ => rfl)] at looksSame
          subst looksSame
          exact .inl ⟨_, fromDisk, fromMemory⟩
      | error looksSame =>
          have code := congrArg Complaint.code looksSame
          have line := congrArg Complaint.line looksSame
          exact .inr (.inl ⟨_, _, fromDisk, fromMemory, code.symm, line.symm⟩)

/-- Carriage returns in a comment, before a line end, and alone. -/
theorem compile_ofDisk_returns :
    let bytes : Text := "IF .T.\r\r\n? 1 /* \r\n\r */\r\nENDIF \r"
    ¬File.byteOrderMark <+: bytes ∧ isNormal (File.foldLineEnds bytes) = true ∧
      let onDisk := (compile (File.ofDisk "a.prg" bytes) (some .dbase) 10 []).result
      let inMemory := (compile (File.ofSource "a.prg" bytes) (some .dbase) 10 []).result
      (∃ compiled, onDisk = .ok compiled ∧ inMemory = .ok compiled) ∨
        (∃ e e', onDisk = .error (.script e) ∧ inMemory = .error (.script e') ∧
          e.code = e'.code ∧ e.line = e'.line) ∨
        some Dialect.dbase = none ∧ onDisk = .error .unknownDialect ∧
          inMemory = .error .unknownDialect := by
  intro bytes
  have noMark : ¬File.byteOrderMark <+: bytes := by decide
  have normal : isNormal (File.foldLineEnds bytes) = true := by decide
  exact ⟨noMark, normal, compile_ofDisk "a.prg" bytes noMark normal (some .dbase) 10 []⟩

end PrgScript
