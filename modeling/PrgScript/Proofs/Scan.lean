import PrgScript.Scanner.Basic

/-!
# Scanning a whole script

`Scanner.Gives` lists what one step of scanning can do.

A lexer hands out tokens one at a time; `Yields` is what it hands out up to the
end of its script, if nothing is wrong before. Each token takes a glyph at least,
so the bound that the token stream of a file works under is never reached, and
the stream ends well exactly if the lexer yields its tokens: `ofFile_eq_iff`.
-/

namespace PrgScript

namespace Scanner

/-! ### One token -/

/-- The kinds that tell nothing about how a token is written. -/
def isSign (kind : Kind) : Bool :=
  kind != .eof && kind != .ident && kind != .number && kind != .string

theorem keyword?_cases (d : Dialect) (word : Text) :
    d.keyword? word = none ∨ ∃ kind, d.keyword? word = some kind ∧ kind.isKeyword = true := by
  cases d with
  | dbase =>
      simp only [Dialect.keyword?]
      cases Keyword.spellings.find? _ with
      | none => exact .inl rfl
      | some entry => exact .inr ⟨_, rfl, rfl⟩
  | pascal | lisp =>
      simp only [Dialect.keyword?]
      split
      · exact .inr ⟨_, rfl, rfl⟩
      · exact .inl rfl

section Token

variable {d : Dialect} {g : Glyph} {rest : List Glyph} {kind : Kind} {value : Text} {more : Nat}

/-- A word is a name unless it is reserved. -/
theorem identifier_inv (h : identifier d g rest = .token kind value more) :
    more = run isIdentContinue rest ∧
      (kind = .ident ∧ d.keyword? (Glyph.text (g :: rest.take more)) = none ∨
        kind.isKeyword = true) := by
  unfold identifier at h
  dsimp only at h
  obtain ⟨same, -, rfl⟩ := Lexeme.token.inj h
  refine ⟨rfl, ?_⟩
  obtain free | ⟨found, taken, isKeyword⟩ :=
    keyword?_cases d (Glyph.text (g :: rest.take (run isIdentContinue rest)))
  · rw [free] at same
    exact .inl ⟨same.symm, free⟩
  · rw [taken] at same
    exact .inr (same ▸ isKeyword)

theorem kind_of_number (h : number g rest = .token kind value more) : kind = .number := by
  unfold number at h
  extract_lets digits taken after total at h
  split at h
  · cases h
  · exact (Lexeme.token.inj h).1.symm

theorem stringRest_inv {quote : Char} {count more : Nat} {chars : List Char} {gs : List Glyph}
    (h : stringRest d quote count chars gs = .token kind value more) :
    kind = .string ∧ ∃ cs, value = Text.ofChars cs := by
  fun_induction stringRest d quote count chars gs
  all_goals first
    | cases h; done
    | cases h; exact ⟨rfl, _, rfl⟩
    | rename_i ih; exact ih h

theorem isSign_operator (c : Char) (next : Option Char) :
    isSign (operator c next).1 = true ∧ (operator c next).1 ≠ .newline := by
  unfold operator
  split <;> decide

theorem isSign_of_dotWord (h : dotWord rest = .token kind value more) :
    isSign kind = true ∧ kind ≠ .newline := by
  have known : ∀ entry ∈ dotWords, isSign entry.2.1 = true ∧ entry.2.1 ≠ .newline := by decide
  unfold dotWord at h
  dsimp only at h
  split at h
  next found =>
    have entry := known _ (List.mem_of_find?_eq_some found)
    split at h <;> cases h
    · exact entry
    · decide
  next =>
    cases h
    decide

/-- What a token is: a word, a number, a string, or a sign, of which the line feed is one. -/
theorem lexeme_inv (h : lexeme d g rest = .token kind value more) :
    isIdentStart g.char = true ∧ identifier d g rest = .token kind value more ∨
      (isDigit g.char = true ∨ g.char = '.') ∧ number g rest = .token kind value more ∨
      stringRest d g.char 0 [] rest = .token kind value more ∨
      isSign kind = true ∧ (kind = .newline → g.char = '\n') := by
  unfold lexeme at h
  dsimp only at h
  split at h
  next lineFeed =>
    cases h
    exact .inr (.inr (.inr ⟨rfl, fun _ => lineFeed⟩))
  split at h
  next starts => exact .inl ⟨starts, h⟩
  split at h
  next numeral =>
    refine .inr (.inl ⟨?_, h⟩)
    simp only [Bool.or_eq_true, Bool.and_eq_true, beq_iff_eq] at numeral
    exact numeral.imp_right And.left
  split at h
  · obtain ⟨sign, other⟩ := isSign_of_dotWord h
    exact .inr (.inr (.inr ⟨sign, fun newline => absurd newline other⟩))
  split at h
  · exact .inr (.inr (.inl h))
  split at h
  · cases h
  · obtain ⟨sign, other⟩ := isSign_operator g.char (rest.head?.map (·.char))
    obtain ⟨rfl, -⟩ := Lexeme.token.inj h
    exact .inr (.inr (.inr ⟨sign, fun newline => absurd newline other⟩))

/-- No lexeme is an end token. -/
theorem kind_ne_eof_of_lexeme (h : lexeme d g rest = .token kind value more) : kind ≠ .eof := by
  rcases lexeme_inv h with ⟨-, word⟩ | ⟨-, numeral⟩ | literal | ⟨sign, -⟩
  · rintro rfl
    obtain ⟨-, ⟨name, -⟩ | reserved⟩ := identifier_inv word
    · cases name
    · cases reserved
  · rw [kind_of_number numeral]
    decide
  · rw [(stringRest_inv literal).1]
    decide
  · rintro rfl
    cases sign

/-- Skipping fails at a comment that is not closed, or at one of another dialect. -/
theorem cause_of_skipTrivia {mode : SkipMode} {count before more : Nat} {gs : List Glyph}
    {cause : Cause} (h : skipTrivia d mode count gs = .fault before more cause) :
    cause = .unterminatedComment ∨
      ∃ form, d.usage form = .foreign ∧ cause = .foreignComment form d := by
  fun_induction skipTrivia d mode count gs with
  | case1 | case2 | case4 | case7 | case11 => cases h
  | case3 =>
      cases h
      exact .inl rfl
  | case8 count g rest inLine solid form found foreign =>
      cases h
      exact .inr ⟨form, foreign, rfl⟩
  | _ =>
      rename_i ih
      exact ih h

end Token

/-! ### One step -/

/-- What one step of scanning can do: come to the end, give a token, or fail at a comment or a
lexeme. -/
inductive Gives (file : File) (d : Dialect) (c : Cursor) : Scanned → Cursor → Prop
  | eof {count : Nat} (skipped : skipTrivia d .between 0 c.rest = .clear count)
      (ends : (c.skip count).rest = []) :
      Gives file d c ⟨tokenBetween file .eof [] 0 (c.skip count) (c.skip count), none⟩
        (c.skip count)
  | token {count more : Nat} {g : Glyph} {rest : List Glyph} {kind : Kind} {value : Text}
      (skipped : skipTrivia d .between 0 c.rest = .clear count)
      (ahead : (c.skip count).rest = g :: rest)
      (lexed : lexeme d g rest = .token kind value more) :
      Gives file d c
        ⟨tokenBetween file kind value (more + 1) (c.skip count) ((c.skip count).skip (more + 1)),
          none⟩
        ((c.skip count).skip (more + 1))
  | badComment {before more : Nat} {cause : Cause}
      (found : skipTrivia d .between 0 c.rest = .fault before more cause) :
      Gives file d c (failed file cause (c.skip before) (c.skip (before + more + 1)))
        (c.skip (before + more + 1))
  | badLexeme {count start more : Nat} {g : Glyph} {rest : List Glyph} {cause : Cause}
      (skipped : skipTrivia d .between 0 c.rest = .clear count)
      (ahead : (c.skip count).rest = g :: rest)
      (lexed : lexeme d g rest = .fault cause start more) :
      Gives file d c
        (failed file cause ((c.skip count).skip start) ((c.skip count).skip (more + 1)))
        ((c.skip count).skip (more + 1))

theorem gives_scan (file : File) (d : Dialect) (c : Cursor) :
    Gives file d c (scan file d c).1 (scan file d c).2 := by
  unfold scan
  split
  next found => exact .badComment found
  next skipped =>
    dsimp only
    split
    next ends => exact .eof skipped ends
    next ahead =>
      split
      next lexed => exact .token skipped ahead lexed
      next lexed => exact .badLexeme skipped ahead lexed

/-- A token that is not the end takes a glyph at least. -/
theorem scan_advances {file : File} {d : Dialect} {c c' : Cursor} {tok : Token}
    (h : scan file d c = (⟨tok, none⟩, c')) (inside : tok.kind ≠ .eof) :
    c'.rest.length < c.rest.length := by
  have gives := gives_scan file d c
  rw [h] at gives
  cases gives with
  | eof => exact (inside rfl).elim
  | @token count more g rest kind value skipped ahead =>
      rw [Cursor.skip_rest] at ahead
      have shorter : (c.rest.drop count).length ≤ c.rest.length := by simp
      simp only [Cursor.skip_rest, ahead, List.length_drop, List.length_cons] at shorter ⊢
      omega

/-- An end token stands at the end of the script. -/
theorem atEnd_of_scan {file : File} {d : Dialect} {c c' : Cursor} {eof : Token}
    (h : scan file d c = (⟨eof, none⟩, c')) (last : eof.kind = .eof) : c'.atEnd = true := by
  have gives := gives_scan file d c
  rw [h] at gives
  cases gives with
  | eof skipped ends =>
      rw [Cursor.atEnd, ends]
      rfl
  | token skipped ahead lexed => exact (kind_ne_eof_of_lexeme lexed last).elim

end Scanner

/-! ### All tokens -/

/-- What a lexer hands out, one token after the other, up to the end of its script. -/
inductive Lexer.Yields : Lexer → List Token → Token → Prop
  | done {lx lx' : Lexer} {eof : Token} (ends : lx.next = (⟨eof, none⟩, lx'))
      (last : eof.kind = .eof) (atEnd : lx'.cursor.atEnd = true) : Yields lx [] eof
  | more {lx lx' : Lexer} {tok eof : Token} {toks : List Token}
      (first : lx.next = (⟨tok, none⟩, lx')) (inside : tok.kind ≠ .eof)
      (rest : Yields lx' toks eof) : Yields lx (tok :: toks) eof

theorem Lexer.next_of_scan {file : File} {d : Dialect} {c c' : Cursor} {result : Scanned}
    (h : Scanner.scan file d c = (result, c')) :
    (⟨file, d, c, none⟩ : Lexer).next = (result, ⟨file, d, c', none⟩) := by
  show ((Scanner.scan file d c).1, (⟨file, d, (Scanner.scan file d c).2, none⟩ : Lexer)) = _
  rw [h]

namespace TokenStream

theorem scanFrom_eq_iff {file : File} {d : Dialect} {fuel : Nat} {c : Cursor}
    (enough : c.rest.length < fuel) {toks : List Token} {eof : Token} :
    scanFrom file d fuel c = ⟨toks, .eof eof⟩ ↔
      (⟨file, d, c, none⟩ : Lexer).Yields toks eof := by
  induction fuel generalizing c toks with
  | zero => exact absurd enough (Nat.not_lt_zero _)
  | succ fuel ih =>
      cases scanned : Scanner.scan file d c with
      | mk result c' =>
      obtain ⟨tok, _ | e⟩ := result
      · have next := Lexer.next_of_scan scanned
        rw [scanFrom, scanned]
        by_cases last : tok.kind = .eof
        · simp only [last, if_true, TokenStream.mk.injEq, Ending.eof.injEq]
          constructor
          · rintro ⟨rfl, rfl⟩
            exact .done next last (Scanner.atEnd_of_scan scanned last)
          · intro yields
            cases yields with
            | done ends =>
                rw [next] at ends
                cases ends
                exact ⟨rfl, rfl⟩
            | more first inside =>
                rw [next] at first
                cases first
                exact (inside last).elim
        · have shorter := Scanner.scan_advances scanned last
          simp only [last, if_false, TokenStream.mk.injEq]
          constructor
          · rintro ⟨rfl, ending⟩
            exact .more next last ((ih (by omega)).1 (by rw [← ending]))
          · intro yields
            cases yields with
            | done ends last' =>
                rw [next] at ends
                cases ends
                exact (last last').elim
            | more first _ rest =>
                rw [next] at first
                cases first
                rw [(ih (by omega)).2 rest]
                exact ⟨rfl, rfl⟩
      · rw [scanFrom, scanned]
        constructor
        · intro ended
          cases ended
        · intro yields
          have next := Lexer.next_of_scan scanned
          cases yields with
          | done ends | more ends =>
              rw [next] at ends
              cases ends

/-- A script is scanned to its end exactly if its lexer yields the tokens. -/
theorem ofFile_eq_iff {file : File} {d : Dialect} {toks : List Token} {eof : Token} :
    ofFile file d = ⟨toks, .eof eof⟩ ↔ (Lexer.start file d).Yields toks eof :=
  scanFrom_eq_iff (Nat.lt_succ_self _)

theorem scanFrom_tokens {file : File} {d : Dialect} (fuel : Nat) (c : Cursor) :
    (∀ tok ∈ (scanFrom file d fuel c).tokens, tok.kind ≠ .eof) ∧
      (scanFrom file d fuel c).tokens.length ≤ c.rest.length ∧
      ∀ eof, (scanFrom file d fuel c).ending = .eof eof → eof.kind = .eof := by
  induction fuel generalizing c with
  | zero =>
      refine ⟨by simp [scanFrom], by simp [scanFrom], fun eof ended => ?_⟩
      cases ended
      rfl
  | succ fuel ih =>
      rw [scanFrom]
      split
      next => exact ⟨by simp, by simp, fun eof ended => by cases ended⟩
      next tok c' scanned =>
        split
        next last =>
          refine ⟨by simp, by simp, fun eof ended => ?_⟩
          cases ended
          exact last
        next inside =>
          obtain ⟨kinds, few, ends⟩ := ih c'
          have shorter := Scanner.scan_advances scanned inside
          refine ⟨?_, ?_, ends⟩
          · simpa [inside] using kinds
          · simp only [List.length_cons]
            omega

end TokenStream

namespace Glyph

/-- A text has at most as many glyphs as bytes. -/
theorem length_glyphsAfter_le (skip : Nat) (t : Text) : (glyphsAfter skip t).length ≤ t.length := by
  fun_induction glyphsAfter skip t with
  | case1 => exact Nat.le_refl 0
  | case2 skip b t ih => exact Nat.le_succ_of_le ih
  | case3 b t _ ih => exact Nat.succ_le_succ ih
  | case4 b t _ char more _ ih => exact Nat.succ_le_succ ih

end Glyph

namespace TokenStream

section File

variable {file : File} {d : Dialect} {tok : Token}

theorem kind_ne_eof_of_mem (h : tok ∈ (ofFile file d).tokens) : tok.kind ≠ .eof :=
  (scanFrom_tokens _ _).1 tok h

theorem kind_of_ending (h : (ofFile file d).ending = .eof tok) : tok.kind = .eof :=
  (scanFrom_tokens _ _).2.2 tok h

end File

/-- The tokens of a script, its end token apart, are not more than its bytes. -/
theorem length_tokens_ofFile_le (file : File) (d : Dialect) :
    (ofFile file d).tokens.length ≤ file.content.length :=
  Nat.le_trans (scanFrom_tokens _ _).2.1 (Glyph.length_glyphsAfter_le 0 file.content)

end TokenStream

end PrgScript
