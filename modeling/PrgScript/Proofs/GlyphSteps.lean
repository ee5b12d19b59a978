import PrgScript.Proofs.Scan

/-!
# The scanner glyph by glyph

What the scanner does at the glyphs ahead, one equation for each case.

Skipping stands between comments, in a line comment, or in a block comment. A mark that
opens or closes a comment is passed as a whole, however long it is. The rest of a string
literal is read one glyph at a time, or two where an escape stands. Of numbers and
operators it is said how far they reach.
-/

namespace PrgScript.Scanner

/-! ### Blanks and comments -/

variable {d : Dialect} {g : Glyph} {gs : List Glyph} {n start : Nat} {form : CommentForm}

/-- The state behind a mark that opens a comment. -/
def SkipMode.opened (form : CommentForm) (start : Nat) : SkipMode :=
  if form.isBlock then .inBlock form start else .inLine

/-- Where a comment is found, the mark that opens it stands. -/
theorem opener_starts (found : commentAt? d g.char (gs.head?.map (·.char)) = some form) :
    form.opener <+: (g :: gs).map (·.char) := by
  have opens := List.find?_some found
  unfold opensWith at opens
  rw [Bool.and_eq_true, beq_iff_eq] at opens
  obtain ⟨first, second⟩ := opens
  rw [CommentForm.opener, first, List.map_cons, List.cons_prefix_cons]
  refine ⟨rfl, ?_⟩
  cases known : form.second? with
  | none => exact List.nil_prefix
  | some c =>
      rw [known] at second
      cases gs with
      | nil => cases second
      | cons g' gs =>
          have char : g'.char = c := by simpa using second
          simp [char]

/-- Between comments, a glyph ends the line, is blank, or starts a comment or a token. -/
theorem skipTrivia_between (d : Dialect) (n : Nat) (g : Glyph) (gs : List Glyph) :
    skipTrivia d .between n (g :: gs) =
      if g.char = '\n' then
        if d.newlineSignificant then .clear n else skipTrivia d .between (n + 1) gs
      else if isBlank g.char then skipTrivia d .between (n + 1) gs
      else
        (commentAt? d g.char (gs.head?.map (·.char))).elim (.clear n) fun form =>
          if d.usage form = .foreign then
            .fault n (form.opener.length - 1) (.foreignComment form d)
          else
            skipTrivia d (.opened form n) (n + form.opener.length)
              ((g :: gs).drop form.opener.length) := by
  rw [skipTrivia]
  cases found : commentAt? d g.char (gs.head?.map (·.char)) with
  | none => rfl
  | some form =>
      have opens := List.find?_some found
      simp only [Option.elim, CommentForm.opener]
      cases second : form.second? with
      | none => rfl
      | some c =>
          cases gs with
          | nil => simp [opensWith, second] at opens
          | cons g' gs => rfl

section Between

variable (inLine : g.char ≠ '\n') (solid : isBlank g.char = false)

theorem skipTrivia_token (isEnd : g.char = '\n') (token : d.newlineSignificant = true) :
    skipTrivia d .between n (g :: gs) = .clear n := by
  rw [skipTrivia_between, if_pos isEnd, if_pos token]

theorem skipTrivia_lineEnd (isEnd : g.char = '\n') (noToken : d.newlineSignificant = false) :
    skipTrivia d .between n (g :: gs) = skipTrivia d .between (n + 1) gs := by
  rw [skipTrivia_between, if_pos isEnd, if_neg (by simp [noToken])]

theorem skipTrivia_blank (blank : isBlank g.char = true) :
    skipTrivia d .between n (g :: gs) = skipTrivia d .between (n + 1) gs := by
  have inLine : g.char ≠ '\n' := by
    intro isEnd
    rw [isEnd] at blank
    cases blank
  rw [skipTrivia_between, if_neg inLine, if_pos blank]

include inLine solid

theorem skipTrivia_solid (none : commentAt? d g.char (gs.head?.map (·.char)) = none) :
    skipTrivia d .between n (g :: gs) = .clear n := by
  rw [skipTrivia_between, if_neg inLine, if_neg (by simp [solid]), none]
  rfl

theorem skipTrivia_foreign (found : commentAt? d g.char (gs.head?.map (·.char)) = some form)
    (foreign : d.usage form = .foreign) :
    skipTrivia d .between n (g :: gs) =
      .fault n (form.opener.length - 1) (.foreignComment form d) := by
  rw [skipTrivia_between, if_neg inLine, if_neg (by simp [solid]), found]
  exact if_pos foreign

theorem skipTrivia_comment (found : commentAt? d g.char (gs.head?.map (·.char)) = some form)
    (notForeign : d.usage form ≠ .foreign) :
    skipTrivia d .between n (g :: gs) =
      skipTrivia d (.opened form n) (n + form.opener.length)
        ((g :: gs).drop form.opener.length) := by
  rw [skipTrivia_between, if_neg inLine, if_neg (by simp [solid]), found]
  exact if_neg notForeign

end Between

theorem skipTrivia_inLine (inLine : g.char ≠ '\n') :
    skipTrivia d .inLine n (g :: gs) = skipTrivia d .inLine (n + 1) gs :=
  if_neg inLine

/-- A line comment is over where its line is. -/
theorem skipTrivia_endOfLine (isEnd : g.char = '\n') :
    skipTrivia d .inLine n (g :: gs) = skipTrivia d .between n (g :: gs) := by
  rw [skipTrivia_between, if_pos isEnd]
  exact if_pos isEnd

theorem skipTrivia_close (isBlock : form.isBlock = true)
    (closes : form.closer <+: gs.map (·.char)) :
    skipTrivia d (.inBlock form start) n gs =
      skipTrivia d .between (n + form.closer.length) (gs.drop form.closer.length) := by
  cases form with
  | slashStar | parenStar =>
      rcases gs with _ | ⟨g, _ | ⟨g', gs⟩⟩
      · simp [CommentForm.closer] at closes
      · simp [CommentForm.closer] at closes
      · simp only [CommentForm.closer, List.map_cons, List.cons_prefix_cons] at closes
        exact if_pos ⟨closes.1.symm, closes.2.1.symm⟩
  | brace =>
      cases gs with
      | nil => simp [CommentForm.closer] at closes
      | cons g gs =>
          simp only [CommentForm.closer, List.map_cons, List.cons_prefix_cons] at closes
          exact if_pos closes.1.symm
  | _ => cases isBlock

theorem skipTrivia_inBlock (inside : ¬form.closer <+: (g :: gs).map (·.char)) :
    skipTrivia d (.inBlock form start) n (g :: gs) =
      skipTrivia d (.inBlock form start) (n + 1) gs := by
  cases form with
  | slashStar | parenStar =>
      cases gs with
      | nil => rfl
      | cons g' gs =>
          simp only [CommentForm.closer, List.map_cons, List.cons_prefix_cons] at inside
          exact if_neg fun closes => inside ⟨closes.1.symm, closes.2.symm, List.nil_prefix⟩
  | brace =>
      simp only [CommentForm.closer, List.map_cons, List.cons_prefix_cons] at inside
      exact if_neg fun closes => inside ⟨closes.symm, List.nil_prefix⟩
  | _ => exact absurd List.nil_prefix inside

/-! ### Numbers and operators -/

/-- The number of glyphs that a number takes behind its first one. -/
def numberMore (g : Glyph) (rest : List Glyph) : Nat :=
  let digits := run isDigit rest
  if g.char = '.' then digits
  else
    match rest.drop digits with
    | [] => digits
    | point :: after =>
      if point.char = '.' ∧ !(after.head?.any fun g => Text.isLetter g.char) then
        digits + 1 + run isDigit after
      else digits

/-- A number is wrong if a letter stands right behind it. -/
theorem number_eq (g : Glyph) (rest : List Glyph) :
    number g rest =
      let more := numberMore g rest
      let after := rest.drop more
      if after.head?.any fun g => isIdentStart g.char then
        let total := more + run isIdentContinue after
        .fault (.malformedNumber (Glyph.text (g :: rest.take total))) 0 total
      else .token .number [] more := rfl

/-- An operator of two characters is known by the second one. Every other operator is the same
whatever follows. -/
theorem operator_cases (c : Char) (next : Option Char) :
    operator c next = operator c none ∧ (operator c none).2 = 0 ∨
      (next = some '=' ∨ next = some '>' ∨ next = some '?') ∧ (operator c next).2 = 1 := by
  unfold operator
  split
  iterate 7 · exact .inr ⟨by simp, rfl⟩
  all_goals left
  iterate 18 · exact ⟨rfl, rfl⟩
  split <;> simp_all

/-! ### String literals -/

section StringRest

variable {quote : Char} {value : List Char}

def escapeRest (d : Dialect) (quote : Char) (count : Nat) (value : List Char) :
    List Glyph → Lexeme
  | [] => .fault .escapeAtLineEnd 0 (count + 1)
  | e :: rest =>
    if e.char = '\n' then .fault .escapeAtLineEnd 0 (count + 1)
    else if e.char = ' ' then .fault .escapeBeforeSpace 0 (count + 1)
    else
      match escape? e.char with
      | some c => stringRest d quote (count + 2) (c :: value) rest
      | none => .fault (.unknownEscape e.char) (count + 2) (count + 2)

/-- In a string literal, a glyph ends the line, closes the literal, stands for itself, or starts an
escape. -/
theorem stringRest_cons (d : Dialect) (quote : Char) (n : Nat) (value : List Char) (g : Glyph)
    (gs : List Glyph) :
    stringRest d quote n value (g :: gs) =
      if g.char = '\n' then .fault .unterminatedString 0 n
      else if g.char = quote then .token .string (Text.ofChars value.reverse) (n + 1)
      else if g.char ≠ '\\' ∨ !d.escapes then stringRest d quote (n + 1) (g.char :: value) gs
      else escapeRest d quote n value gs := by
  rw [stringRest.eq_def]
  cases gs <;> rfl

theorem stringRest_lineEnd (isEnd : g.char = '\n') :
    stringRest d quote n value (g :: gs) = .fault .unterminatedString 0 n := by
  rw [stringRest_cons, if_pos isEnd]

theorem stringRest_close (inLine : g.char ≠ '\n') (closes : g.char = quote) :
    stringRest d quote n value (g :: gs) =
      .token .string (Text.ofChars value.reverse) (n + 1) := by
  rw [stringRest_cons, if_neg inLine, if_pos closes]

theorem stringRest_keep (inLine : g.char ≠ '\n') (inside : g.char ≠ quote)
    (plain : g.char ≠ '\\' ∨ d.escapes = false) :
    stringRest d quote n value (g :: gs) = stringRest d quote (n + 1) (g.char :: value) gs := by
  rw [stringRest_cons, if_neg inLine, if_neg inside, if_pos (by simpa using plain)]

theorem stringRest_slash (slash : g.char = '\\') (inside : g.char ≠ quote)
    (escapes : d.escapes = true) :
    stringRest d quote n value (g :: gs) = escapeRest d quote n value gs := by
  have inLine : g.char ≠ '\n' := by
    rw [slash]
    decide
  have special : ¬(g.char ≠ '\\' ∨ (!d.escapes) = true) := by simp [slash, escapes]
  rw [stringRest_cons, if_neg inLine, if_neg inside, if_neg special]

end StringRest

/-! ### One step -/

section Scan

variable {c : Cursor} {rest : List Glyph} {kind : Kind} {value : Text} {cause : Cause}
  {before more : Nat} (file : File)

theorem scan_badComment (found : skipTrivia d .between 0 c.rest = .fault before more cause) :
    scan file d c =
      (failed file cause (c.skip before) (c.skip (before + more + 1)),
        c.skip (before + more + 1)) := by
  rw [scan, found]

theorem scan_end (skipped : skipTrivia d .between 0 c.rest = .clear n)
    (ends : (c.skip n).rest = []) :
    scan file d c =
      (⟨tokenBetween file .eof [] 0 (c.skip n) (c.skip n), none⟩, c.skip n) := by
  simp only [scan, skipped, ends]

theorem scan_token (skipped : skipTrivia d .between 0 c.rest = .clear n)
    (ahead : (c.skip n).rest = g :: rest) (lexed : lexeme d g rest = .token kind value more) :
    scan file d c =
      (⟨tokenBetween file kind value (more + 1) (c.skip n) ((c.skip n).skip (more + 1)), none⟩,
        (c.skip n).skip (more + 1)) := by
  simp only [scan, skipped, ahead, lexed]

theorem scan_badLexeme (skipped : skipTrivia d .between 0 c.rest = .clear n)
    (ahead : (c.skip n).rest = g :: rest) (lexed : lexeme d g rest = .fault cause start more) :
    scan file d c =
      (failed file cause ((c.skip n).skip start) ((c.skip n).skip (more + 1)),
        (c.skip n).skip (more + 1)) := by
  simp only [scan, skipped, ahead, lexed]

end Scan

end PrgScript.Scanner
