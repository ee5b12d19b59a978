import PrgScript.Proofs.Position
import PrgScript.Proofs.Scan

/-!
# Where tokens stand

Scanning may go on behind an error, so a lexer can be asked for tokens for ever.
A step of scanning (`Scanner.Gives`) reads some glyphs that are left out, if any, and
then those of its token, which is empty at an error and at the end of the script. The
token therefore lies where its span says, and the next one starts where it stops or
later.

Unless a step comes to the end, it reads a glyph at least. So every script of `n`
bytes is at its end after `n` calls, and from there on all calls give the same.
-/

namespace PrgScript

open Text

/-! ### Tokens in their place -/

namespace Token

/-- A token that lies in a file where its span says, at an offset or behind it. -/
structure Fits (file : File) (offset : Nat) (tok : Token) : Prop where
  sameFile : tok.span.file = file.id
  behind : offset ≤ tok.span.start
  ordered : tok.span.start ≤ tok.span.stop
  inside : tok.span.stop ≤ file.content.length
  text : (file.content.drop tok.span.start).take (tok.span.stop - tok.span.start) = tok.text
  place : file.lineCol tok.span.start = ⟨tok.line, tok.col⟩

theorem spanFaultFrom_cons {file : File} {offset : Nat} {tok : Token} (h : tok.Fits file offset)
    (index : Nat) (toks : List Token) :
    spanFaultFrom file index offset (tok :: toks) =
      spanFaultFrom file (index + 1) tok.span.stop toks := by
  have ordered : ¬(tok.span.stop < tok.span.start ∨ file.content.length < tok.span.stop) := by
    have := h.ordered
    have := h.inside
    omega
  rw [spanFaultFrom]
  simp only [h.sameFile, ordered, Nat.not_lt.2 h.behind, h.text, h.place, ne_eq, not_true_eq_false,
    if_false]

end Token

namespace Scanner

variable {file : File} {d : Dialect} {c : Cursor}

/-- The token of the glyphs ahead of a cursor fits. -/
theorem fits_tokenBetween (h : c.In file) (kind : Kind) (value : Text) (n : Nat) {offset : Nat}
    (behind : offset ≤ c.pos.offset) :
    (tokenBetween file kind value n c (c.skip n)).Fits file offset := by
  obtain ⟨before, whole, length⟩ := h.content
  have size : c.pos.offset + (Glyph.text c.rest).length = file.content.length := by
    rw [whole, List.length_append, length]
  have cut : Glyph.text c.rest = Glyph.text (c.rest.take n) ++ Glyph.text (c.rest.drop n) := by
    rw [← Glyph.text_append, List.take_append_drop]
  have stop := Cursor.skip_offset n c
  refine ⟨rfl, behind, ?_, ?_, ?_, h.lineCol⟩
  · show c.pos.offset ≤ (c.skip n).pos.offset
    omega
  · show (c.skip n).pos.offset ≤ file.content.length
    rw [cut, List.length_append] at size
    omega
  · show (file.content.drop c.pos.offset).take ((c.skip n).pos.offset - c.pos.offset) = _
    rw [stop, Nat.add_sub_cancel_left, whole, ← length, List.drop_left, cut, List.take_left]
    rfl

variable {result : Scanned} {c' : Cursor}

/-- A step reads glyphs that are left out and then those of its token. -/
theorem Gives.token_eq (h : Gives file d c result c') :
    ∃ kind value m n, result.token =
        tokenBetween file kind value n (c.skip m) ((c.skip m).skip n) ∧
      c' = (c.skip m).skip n := by
  cases h with
  | @eof count => exact ⟨.eof, [], count, 0, rfl, rfl⟩
  | @token count more g rest kind value => exact ⟨kind, value, count, more + 1, rfl, rfl⟩
  | @badComment before more => exact ⟨.invalid, [], before + more + 1, 0, rfl, rfl⟩
  | @badLexeme count start more =>
      refine ⟨.invalid, [], count + (more + 1), 0, ?_, Cursor.skip_skip count (more + 1) c⟩
      rw [← Cursor.skip_skip count (more + 1)]
      rfl

theorem Gives.fits (h : Gives file d c result c') (inside : c.In file) :
    c'.In file ∧ result.token.Fits file c.pos.offset ∧
      result.token.span.stop = c'.pos.offset := by
  obtain ⟨kind, value, m, n, token, rfl⟩ := h.token_eq
  rw [token]
  refine ⟨(inside.skip m).skip n, fits_tokenBetween (inside.skip m) kind value n ?_, rfl⟩
  rw [Cursor.skip_offset]
  exact Nat.le_add_right _ _

/-! ### Progress -/

/-- At the end of a script there is only the end token. -/
theorem scan_at_end (ends : c.rest = []) :
    scan file d c = (⟨tokenBetween file .eof [] 0 c c, none⟩, c) := by
  simp only [scan, ends, skipTrivia, Cursor.skip]

/-- A step comes to the end of the script, or reads a glyph at least. -/
theorem Gives.end_or_reads (h : Gives file d c result c') :
    c'.rest = [] ∧ result = ⟨tokenBetween file .eof [] 0 c' c', none⟩ ∨
      result.token.kind ≠ .eof ∧ c.rest ≠ [] ∧ ∃ n, c' = c.skip (n + 1) := by
  have some {count : Nat} {g : Glyph} {rest : List Glyph}
      (ahead : (c.skip count).rest = g :: rest) : c.rest ≠ [] := by
    intro none
    rw [Cursor.skip_rest, none, List.drop_nil] at ahead
    cases ahead
  cases h with
  | eof skipped ends => exact .inl ⟨ends, rfl⟩
  | @token count more g rest kind value skipped ahead lexed =>
      refine .inr ⟨kind_ne_eof_of_lexeme lexed, some ahead, count + more, ?_⟩
      exact Cursor.skip_skip count (more + 1) c
  | @badComment before more cause found =>
      refine .inr ⟨nofun, ?_, before + more, rfl⟩
      intro none
      rw [none] at found
      cases found
  | @badLexeme count start more g rest cause skipped ahead lexed =>
      exact .inr ⟨nofun, some ahead, count + more, Cursor.skip_skip count (more + 1) c⟩

end Scanner

/-- Reading a glyph moves a cursor. -/
theorem Cursor.In.offset_lt {file : File} {c : Cursor} (h : c.In file) (some : c.rest ≠ [])
    (n : Nat) : c.pos.offset < (c.skip (n + 1)).pos.offset := by
  obtain ⟨g, gs, ahead⟩ := List.exists_cons_of_ne_nil some
  have read := h.ofText_rest
  rw [ahead] at read
  obtain ⟨rest, leads, -⟩ := Glyph.leads_of_ofText read
  have bytes := List.length_pos_iff.2 leads.bytes_ne_nil
  rw [Cursor.skip_offset, ahead, List.take_succ_cons, Glyph.text_cons, List.length_append]
  omega

theorem Cursor.In.offset_of_end {file : File} {c : Cursor} (h : c.In file) (ends : c.rest = []) :
    c.pos.offset = file.content.length := by
  obtain ⟨before, whole, length⟩ := h.content
  rw [whole, ends, ← length, Glyph.text_nil, List.append_nil]

/-! ### Any number of calls -/

namespace Lexer

def after (lx : Lexer) : Nat → Lexer
  | 0 => lx
  | n + 1 => (lx.after n).next.2

def results (lx : Lexer) (n : Nat) : List Scanned := (List.range n).map fun k => (lx.after k).next.1

theorem after_succ (lx : Lexer) (n : Nat) : lx.after (n + 1) = lx.next.2.after n := by
  induction n with
  | zero => rfl
  | succ n ih => rw [after, ih, after]

theorem results_succ (lx : Lexer) (n : Nat) :
    lx.results (n + 1) = lx.next.1 :: lx.next.2.results n := by
  simp only [results, List.range_succ_eq_map, List.map_cons, List.map_map, after]
  refine congrArg (lx.next.1 :: ·) (List.map_congr_left fun k _ => ?_)
  exact congrArg (fun lx => lx.next.1) (after_succ lx k)

/-- A lexer of a file, with nothing ahead. -/
def Of (file : File) (d : Dialect) (lx : Lexer) : Prop :=
  ∃ c, lx = ⟨file, d, c, none⟩ ∧ c.In file

variable {file : File} {d : Dialect} {lx : Lexer}

theorem Of.start (file : File) (d : Dialect) : (Lexer.start file d).Of file d :=
  ⟨_, rfl, .start file⟩

theorem next_eq (file : File) (d : Dialect) (c : Cursor) :
    (⟨file, d, c, none⟩ : Lexer).next =
      ((Scanner.scan file d c).1, ⟨file, d, (Scanner.scan file d c).2, none⟩) := rfl

/-- What one call gives fits, and the next call goes on where it stops. -/
theorem Of.next (h : lx.Of file d) :
    lx.next.2.Of file d ∧ lx.next.1.token.Fits file lx.cursor.pos.offset ∧
      lx.next.1.token.span.stop = lx.next.2.cursor.pos.offset := by
  obtain ⟨c, rfl, inside⟩ := h
  rw [next_eq]
  obtain ⟨inside', fits, stop⟩ := (Scanner.gives_scan file d c).fits inside
  exact ⟨⟨_, rfl, inside'⟩, fits, stop⟩

theorem Of.after (h : lx.Of file d) (n : Nat) : (lx.after n).Of file d := by
  induction n with
  | zero => exact h
  | succ n ih => exact ih.next.1

theorem Of.offset_le (h : lx.Of file d) : lx.cursor.pos.offset ≤ file.content.length := by
  obtain ⟨c, rfl, inside⟩ := h
  exact inside.offset_le

/-- A call comes to the end of the script, where it always gives the same, or it reads a byte at
least. -/
theorem Of.end_or_reads (h : lx.Of file d) :
    lx.next.1.token.kind = .eof ∧ lx.next.1.error = none ∧
        lx.next.2.cursor.pos.offset = file.content.length ∧ lx.next.2.next = lx.next ∨
      lx.next.1.token.kind ≠ .eof ∧ lx.cursor.pos.offset < lx.next.2.cursor.pos.offset := by
  obtain ⟨c, rfl, inside⟩ := h
  have gives := Scanner.gives_scan file d c
  have inside' := (gives.fits inside).1
  simp only [next_eq]
  obtain ⟨ends, eof⟩ | ⟨other, some, n, read⟩ := gives.end_or_reads
  · rw [Scanner.scan_at_end ends, ← eof]
    refine .inl ⟨?_, ?_, inside'.offset_of_end ends, rfl⟩
    · rw [eof]
      rfl
    · rw [eof]
  · rw [read]
    exact .inr ⟨other, inside.offset_lt some n⟩

/-- The tokens of any number of calls pass the check of their spans. -/
theorem Of.spanFaultFrom (h : lx.Of file d) (n index : Nat) {offset : Nat}
    (reached : offset ≤ lx.cursor.pos.offset) :
    Token.spanFaultFrom file index offset ((lx.results n).map (·.token)) = none := by
  induction n generalizing lx index offset with
  | zero => rfl
  | succ n ih =>
      obtain ⟨next, fits, stop⟩ := h.next
      have fits : lx.next.1.token.Fits file offset :=
        { fits with behind := Nat.le_trans reached fits.behind }
      rw [results_succ, List.map_cons, Token.spanFaultFrom_cons fits]
      exact ih next (index + 1) (Nat.le_of_eq stop)

/-- As long as the end is not reached, every call has read a byte at least. -/
theorem Of.le_offset (h : lx.Of file d) (n : Nat)
    (inside : ∀ k < n, (lx.after k).next.1.token.kind ≠ .eof) :
    n ≤ (lx.after n).cursor.pos.offset := by
  induction n with
  | zero => exact Nat.zero_le _
  | succ n ih =>
      have before := ih fun k less => inside k (Nat.lt_succ_of_lt less)
      obtain ⟨eof, -⟩ | ⟨-, read⟩ := (h.after n).end_or_reads
      · exact absurd eof (inside n (Nat.lt_succ_self n))
      · exact Nat.lt_of_le_of_lt before read

theorem Of.next_of_eof (h : lx.Of file d) {n : Nat} (eof : (lx.after n).next.1.token.kind = .eof)
    (k : Nat) : (lx.after (n + k)).next = (lx.after n).next := by
  induction k with
  | zero => rfl
  | succ k ih =>
      obtain ⟨-, -, -, same⟩ | ⟨other, -⟩ := (h.after (n + k)).end_or_reads
      · exact same.trans ih
      · rw [ih] at other
        exact absurd eof other

/-- Asked for ever, also behind errors, a lexer reads a byte with every call until it is at the end
of its script. So it comes there within as many calls as the script has bytes and one more, and
gives the same end token from then on. All tokens it gives, also those that come with an error, lie
in the script where they say, in order and apart from each other. -/
theorem results_fit (file : File) (d : Dialect) :
    let lx := Lexer.start file d
    (∀ n, (lx.after n).next.1.token.kind = .eof ∧ (lx.after n).next.1.error = none ∧
          (lx.after (n + 1)).cursor.pos.offset = file.content.length ∨
        (lx.after n).cursor.pos.offset < (lx.after (n + 1)).cursor.pos.offset) ∧
    (∃ n ≤ file.content.length, (lx.after n).next.1.token.kind = .eof) ∧
    (∀ n m, (lx.after n).next.1.token.kind = .eof → n ≤ m →
      (lx.after m).next.1 = (lx.after n).next.1) ∧
    ∀ n, Token.spanFault? ((lx.results n).map (·.token)) (some file) = none := by
  intro lx
  have start : lx.Of file d := .start file d
  refine ⟨fun n => ?_, ?_, fun n m eof le => ?_, fun n => start.spanFaultFrom n 0 (Nat.zero_le _)⟩
  · obtain ⟨eof, clean, ends, -⟩ | ⟨-, read⟩ := (start.after n).end_or_reads
    · exact .inl ⟨eof, clean, ends⟩
    · exact .inr read
  · apply Classical.byContradiction
    intro never
    have inside : ∀ k < file.content.length + 1, (lx.after k).next.1.token.kind ≠ .eof :=
      fun k less eof => never ⟨k, Nat.le_of_lt_succ less, eof⟩
    have read := start.le_offset (file.content.length + 1) inside
    have bound := (start.after (file.content.length + 1)).offset_le
    omega
  · obtain ⟨k, rfl⟩ := Nat.exists_eq_add_of_le le
    rw [start.next_of_eof eof k]

end Lexer

end PrgScript
