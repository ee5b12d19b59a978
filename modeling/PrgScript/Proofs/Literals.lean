import PrgScript.Proofs.Glyphs
import PrgScript.Proofs.GlyphSteps

/-!
# String literals

Between its quotes a string literal is a sequence of items. A character stands for itself and, in a
dialect with escapes, a backslash and a letter or sign behind it stand for one character. `Items`
relates what is written to what it stands for. Reading a literal follows that relation: the scanner
finds a string exactly where items and the closing quote stand, and the value is what the items
stand for.

Conversely every string has a literal, which `literal` writes.
-/

namespace PrgScript.Scanner

open Text

variable {d : Dialect} {quote : Char}

/-! ### Items -/

/-- What may stand behind a backslash, and the character that the two stand for. -/
def escapePairs : List (Char × Char) :=
  [('\\', '\\'), ('t', '\t'), ('n', '\n'), ('r', '\r'), ('a', '\x07'), ('"', '"'), ('\'', '\'')]

theorem escape?_eq_some_iff {x c : Char} : escape? x = some c ↔ (x, c) ∈ escapePairs := by
  unfold escape?
  constructor
  · intro stands
    split at stands <;> cases stands <;> decide
  · intro mem
    simp only [escapePairs, List.mem_cons, Prod.mk.injEq, List.not_mem_nil, or_false] at mem
    obtain ⟨rfl, rfl⟩ | ⟨rfl, rfl⟩ | ⟨rfl, rfl⟩ | ⟨rfl, rfl⟩ | ⟨rfl, rfl⟩ | ⟨rfl, rfl⟩ |
      ⟨rfl, rfl⟩ := mem
    all_goals rfl

theorem escape?_inLine {x c : Char} (stands : escape? x = some c) : x ≠ '\n' ∧ x ≠ ' ' := by
  constructor <;> rintro rfl <;> cases stands

/-- The glyphs between the quotes of a literal, and the characters that they stand for. -/
inductive Items (d : Dialect) (quote : Char) : List Glyph → List Char → Prop
  | nil : Items d quote [] []
  | char {g : Glyph} {body : List Glyph} {cs : List Char} (inLine : g.char ≠ '\n')
      (inside : g.char ≠ quote) (plain : g.char ≠ '\\' ∨ d.escapes = false)
      (rest : Items d quote body cs) : Items d quote (g :: body) (g.char :: cs)
  | escape {g e : Glyph} {c : Char} {body : List Glyph} {cs : List Char} (slash : g.char = '\\')
      (escapes : d.escapes = true) (known : (e.char, c) ∈ escapePairs)
      (rest : Items d quote body cs) : Items d quote (g :: e :: body) (c :: cs)

theorem quote_cases (isQuote : d.isQuote quote = true) : quote = '"' ∨ quote = '\'' := by
  cases d
  all_goals
    simp only [Dialect.isQuote, Dialect.quotes, List.contains_iff_mem, List.mem_cons,
      List.not_mem_nil, or_false] at isQuote
    simp [isQuote]

/-- Items and a closing quote are read as a string. -/
theorem Items.stringRest {body : List Glyph} {cs : List Char} (h : Items d quote body cs)
    (isQuote : d.isQuote quote = true) {close : Glyph} (closes : close.char = quote)
    (behind : List Glyph) (n : Nat) (value : List Char) :
    stringRest d quote n value (body ++ close :: behind) =
      .token .string (ofChars (value.reverse ++ cs)) (n + body.length + 1) := by
  have special : quote ≠ '\n' ∧ quote ≠ '\\' := by
    rcases quote_cases isQuote with rfl | rfl <;> decide
  induction h generalizing n value with
  | nil =>
    rw [List.nil_append, stringRest_close (closes ▸ special.1) closes, List.append_nil]
    rfl
  | char inLine inside plain _ ih =>
    rw [List.cons_append, stringRest_keep inLine inside plain, ih]
    simp only [List.reverse_cons, List.append_assoc, List.singleton_append, List.length_cons]
    congr 1
    omega
  | escape slash escapes known _ ih =>
    have stands := escape?_eq_some_iff.2 known
    obtain ⟨inLine, noBlank⟩ := escape?_inLine stands
    rw [List.cons_append, List.cons_append, stringRest_slash slash (slash ▸ special.2.symm) escapes,
      escapeRest, if_neg inLine, if_neg noBlank, stands]
    simp only [ih, List.reverse_cons, List.append_assoc, List.singleton_append, List.length_cons]
    congr 1
    omega

/-- Where a string is read, items and a closing quote stand. -/
theorem items_of_stringRest {n more : Nat} {value : List Char} {kind : Kind} {v : Text}
    {gs : List Glyph} (h : stringRest d quote n value gs = .token kind v more) :
    ∃ body cs close behind, gs = body ++ close :: behind ∧ Items d quote body cs ∧
      close.char = quote := by
  fun_induction stringRest d quote n value gs with
  | case3 n value g rest inLine closes => exact ⟨[], [], g, rest, rfl, .nil, closes⟩
  | case4 n value g rest inLine inside plain ih =>
    obtain ⟨body, cs, close, behind, rfl, items, closes⟩ := ih h
    exact ⟨g :: body, _, close, behind, rfl, .char inLine inside (by simpa using plain) items,
      closes⟩
  | case8 n value g inLine inside special e rest _ _ c stands ih =>
    obtain ⟨body, cs, close, behind, rfl, items, closes⟩ := ih h
    have slash : g.char = '\\' ∧ d.escapes = true := by simpa using special
    exact ⟨g :: e :: body, _, close, behind, rfl,
      .escape slash.1 slash.2 (escape?_eq_some_iff.1 stands) items, closes⟩
  | _ => cases h

/-- Without escapes every character but a quote and a line end stands for itself. -/
theorem items_iff_of_not_escapes (plain : d.escapes = false) {body : List Glyph} {cs : List Char} :
    Items d quote body cs ↔
      cs = body.map (·.char) ∧ ∀ g ∈ body, g.char ≠ quote ∧ g.char ≠ '\n' := by
  constructor
  · intro items
    induction items with
    | nil => simp
    | char inLine inside _ _ ih =>
      obtain ⟨rfl, others⟩ := ih
      exact ⟨rfl, List.forall_mem_cons.2 ⟨⟨inside, inLine⟩, others⟩⟩
    | escape _ escapes => rw [plain] at escapes; cases escapes
  · rintro ⟨rfl, others⟩
    induction body with
    | nil => exact .nil
    | cons g body ih =>
      rw [List.forall_mem_cons] at others
      exact .char others.1.2 others.1.1 (.inr plain) (ih others.2)

theorem Items.inLine {body : List Glyph} {cs : List Char} (h : Items d quote body cs) :
    ∀ g ∈ body, g.char ≠ '\n' := by
  induction h with
  | nil => simp
  | char inLine _ _ _ ih => exact List.forall_mem_cons.2 ⟨inLine, ih⟩
  | escape slash _ known _ ih =>
    have inLine := (escape?_inLine (escape?_eq_some_iff.2 known)).1
    refine List.forall_mem_cons.2 ⟨?_, List.forall_mem_cons.2 ⟨inLine, ih⟩⟩
    rw [slash]
    decide

/-! ### The literal of a string -/

/-- A character in a literal: a backslash, the quote and the line ends are written as escapes. -/
def escaped (quote c : Char) : List Char :=
  if c = '\\' then ['\\', '\\']
  else if c = quote then ['\\', quote]
  else if c = '\n' then ['\\', 'n']
  else if c = '\r' then ['\\', 'r']
  else [c]

def literal (quote : Char) (cs : List Char) : List Char :=
  quote :: (cs.flatMap (escaped quote) ++ [quote])

theorem escaped_cases (isQuote : Dialect.dbase.isQuote quote = true) (c : Char) :
    escaped quote c = [c] ∧ c ≠ '\\' ∧ c ≠ quote ∧ c ≠ '\n' ∧ c ≠ '\r' ∨
      ∃ x, escaped quote c = ['\\', x] ∧ escape? x = some c ∧ x ≠ '\r' := by
  unfold escaped
  split
  next same =>
    subst same
    exact .inr ⟨'\\', rfl, rfl, by decide⟩
  split
  next same =>
    subst same
    rcases quote_cases isQuote with rfl | rfl
    · exact .inr ⟨'"', rfl, rfl, by decide⟩
    · exact .inr ⟨'\'', rfl, rfl, by decide⟩
  split
  next same =>
    subst same
    exact .inr ⟨'n', rfl, rfl, by decide⟩
  split
  next same =>
    subst same
    exact .inr ⟨'r', rfl, rfl, by decide⟩
  next noSlash noQuote noFeed noReturn => exact .inl ⟨rfl, noSlash, noQuote, noFeed, noReturn⟩

/-- Between its quotes the literal of a string has items that stand for the string. -/
theorem items_escaped (isQuote : Dialect.dbase.isQuote quote = true) (cs : List Char) :
    Items .dbase quote ((cs.flatMap (escaped quote)).map Glyph.plain) cs := by
  induction cs with
  | nil => exact .nil
  | cons c cs ih =>
    rw [List.flatMap_cons, List.map_append]
    obtain ⟨same, noSlash, inside, inLine, -⟩ | ⟨x, same, stands, -⟩ := escaped_cases isQuote c
    · rw [same]
      exact .char inLine inside (.inl noSlash) ih
    · rw [same]
      exact .escape rfl rfl (escape?_eq_some_iff.1 stands) ih

/-- A literal has no carriage return, so it is read as it was written. -/
theorem return_not_mem_literal (isQuote : Dialect.dbase.isQuote quote = true) (cs : List Char) :
    '\r' ∉ literal quote cs := by
  have noQuote : '\r' ≠ quote := by
    rcases quote_cases isQuote with rfl | rfl <;> decide
  intro mem
  simp only [literal, List.mem_cons, List.mem_append, List.mem_flatMap, noQuote, false_or,
    List.not_mem_nil, or_false] at mem
  obtain ⟨c, -, mem⟩ := mem
  obtain ⟨same, -, -, -, other⟩ | ⟨x, same, -, other⟩ := escaped_cases isQuote c
  · rw [same, List.mem_singleton] at mem
    exact other mem.symm
  · rw [same, List.mem_cons, List.mem_singleton] at mem
    rcases mem with slash | mem
    · exact absurd slash (by decide)
    · exact other mem.symm

/-! ### Scanning at a quote -/

section AtQuote

variable {g : Glyph} {gs : List Glyph}

theorem lexeme_of_isQuote (isQuote : d.isQuote g.char = true) :
    lexeme d g gs = stringRest d g.char 0 [] gs := by
  unfold lexeme
  dsimp only
  rw [if_pos isQuote]
  rcases quote_cases isQuote with quote | quote
  all_goals
    rw [quote]
    rfl

theorem skipTrivia_of_isQuote (isQuote : d.isQuote g.char = true) (n : Nat) :
    skipTrivia d .between n (g :: gs) = .clear n := by
  rcases quote_cases isQuote with quote | quote
  all_goals
    apply skipTrivia_solid
    · rw [quote]
      decide
    · rw [quote]
      rfl
    · rw [commentAt?, List.find?_eq_none]
      intro form _
      cases form <;> simp [opensWith, CommentForm.first, quote]

end AtQuote

/-- Scanning at a quote finds the literal that stands there. -/
theorem scan_literal (file : File) {c : Cursor} {g close : Glyph} {body behind : List Glyph}
    {cs : List Char} (ahead : c.rest = g :: (body ++ close :: behind))
    (isQuote : d.isQuote g.char = true) (items : Items d g.char body cs)
    (closes : close.char = g.char) :
    ∃ tok c', scan file d c = (⟨tok, none⟩, c') ∧ tok.kind = .string ∧ tok.value = ofChars cs ∧
      tok.text = Glyph.text (g :: (body ++ [close])) ∧ c'.rest = behind := by
  have read : lexeme d g (body ++ close :: behind) =
      .token .string (ofChars cs) (body.length + 1) := by
    rw [lexeme_of_isQuote isQuote, items.stringRest isQuote closes, Nat.zero_add]
    rfl
  have skipped : skipTrivia d .between 0 c.rest = .clear 0 := by
    rw [ahead]
    exact skipTrivia_of_isQuote isQuote 0
  have length : (g :: (body ++ [close])).length = body.length + 1 + 1 := by simp
  have whole : c.rest = (g :: (body ++ [close])) ++ behind := by simp [ahead]
  refine ⟨_, _, scan_token file skipped ahead read, rfl, rfl, ?_, ?_⟩
  · rw [tokenBetween, ← length]
    exact congrArg Glyph.text ((congrArg _ whole).trans List.take_left)
  · rw [Cursor.skip_rest, ← length]
    exact (congrArg _ whole).trans List.drop_left

/-- Scanning at a quote finds a literal or an error. -/
theorem literal_of_scan (file : File) {c : Cursor} {g : Glyph} {rest : List Glyph}
    (ahead : c.rest = g :: rest) (isQuote : d.isQuote g.char = true)
    (found : (scan file d c).1.error = none) :
    ∃ body cs close behind, rest = body ++ close :: behind ∧ Items d g.char body cs ∧
      close.char = g.char := by
  have skipped : skipTrivia d .between 0 c.rest = .clear 0 := by
    rw [ahead]
    exact skipTrivia_of_isQuote isQuote 0
  cases lexed : lexeme d g rest with
  | token kind value more =>
    rw [lexeme_of_isQuote isQuote] at lexed
    exact items_of_stringRest lexed
  | fault cause start more =>
    rw [scan_badLexeme file skipped ahead lexed] at found
    cases found

/-- String literals decode exactly. The literal of a string is scanned as one token, whose value is
the string and whose text is the literal. Conversely, wherever a quote is ahead, scanning succeeds
exactly if items and a closing quote stand behind it. Then the token is a string, its value is what
the items stand for, its text reaches from quote to quote, and scanning goes on behind it. An item
is written with the bytes of its characters, or it is a byte that starts no character and stands for
the replacement character. In the dialects without escapes, the items are the characters up to the
first quote. -/
theorem string_literals_decode_exactly :
    (∀ (file : File) (q : Char) (v : List Char), Dialect.dbase.isQuote q = true →
      file.content = ofChars (literal q v) →
      ∃ tok eof, TokenStream.ofFile file .dbase = ⟨[tok], .eof eof⟩ ∧ tok.kind = .string ∧
        tok.value = ofChars v ∧ tok.text = file.content) ∧
    ∀ (file : File) (d : Dialect) (front : List Glyph) (g : Glyph) (rest : List Glyph),
      Glyph.ofText file.content = front ++ g :: rest → d.isQuote g.char = true →
      let found := scan file d ((Cursor.ofText file.content).skip front.length)
      (found.1.error = none ↔ ∃ body cs close behind, rest = body ++ close :: behind ∧
        Items d g.char body cs ∧ close.char = g.char) ∧
      (∀ body cs close behind, rest = body ++ close :: behind → Items d g.char body cs →
        close.char = g.char →
        found.1.token.kind = .string ∧ found.1.token.value = ofChars cs ∧
        found.1.token.text = Glyph.text (g :: (body ++ [close])) ∧ found.2.rest = behind ∧
        ∀ x ∈ body, x.bytes = ofChar x.char ∨ x.char = replacement ∧ ∃ b, x.bytes = [b]) ∧
      (d ≠ .dbase → ∀ body cs, Items d g.char body cs ↔
        cs = body.map (·.char) ∧ ∀ x ∈ body, x.char ≠ g.char ∧ x.char ≠ '\n') := by
  constructor
  · intro file q v isQuote content
    have glyphs : Glyph.ofText file.content = (literal q v).map Glyph.plain := by
      have read := Glyph.ofText_ofChars_append (return_not_mem_literal isQuote v) []
      rw [List.append_nil] at read
      rw [content, read]
      exact List.append_nil _
    have ahead : (Cursor.ofText file.content).rest =
        .plain q :: ((v.flatMap (escaped q)).map .plain ++ .plain q :: []) := by
      refine glyphs.trans ?_
      simp [literal]
    obtain ⟨tok, c, scanned, kind, value, text, rest⟩ :=
      scan_literal file ahead isQuote (items_escaped isQuote v) rfl
    have ends := scan_end (d := .dbase) file (c := c) (n := 0) (by rw [rest]; rfl) rest
    refine ⟨tok, _, TokenStream.ofFile_eq_iff.2 (.more (Lexer.next_of_scan scanned) ?_
      (.done (Lexer.next_of_scan ends) rfl ?_)), kind, value, ?_⟩
    · rw [kind]
      decide
    · exact congrArg List.isEmpty rest
    · rw [text, ← List.map_singleton, ← List.map_append, ← List.map_cons, Glyph.text_plain, content]
      rfl
  · intro file d front g rest glyphs isQuote found
    have ahead : ((Cursor.ofText file.content).skip front.length).rest = g :: rest := by
      rw [Cursor.skip_rest]
      exact (congrArg _ glyphs).trans List.drop_left
    refine ⟨⟨literal_of_scan file ahead isQuote, ?_⟩, ?_, ?_⟩
    · rintro ⟨body, cs, close, behind, rfl, items, closes⟩
      obtain ⟨tok, c, scanned, -⟩ := scan_literal file ahead isQuote items closes
      exact congrArg (·.1.error) scanned
    · rintro body cs close behind rfl items closes
      obtain ⟨tok, c, scanned, kind, value, text, last⟩ :=
        scan_literal file ahead isQuote items closes
      have same : found = (⟨tok, none⟩, c) := scanned
      rw [same]
      refine ⟨kind, value, text, last, fun x mem => ?_⟩
      obtain ⟨before, after, rfl⟩ := List.append_of_mem mem
      have cut : Glyph.ofText file.content =
          (front ++ g :: before) ++ x :: (after ++ close :: behind) := by simp [glyphs]
      obtain ⟨behind, leads, -⟩ := Glyph.leads_of_ofText (Glyph.ofText_text_of_append cut)
      exact leads.bytes_cases (items.inLine x mem)
    · intro other body cs
      exact items_iff_of_not_escapes (by cases d <;> first | rfl | exact absurd rfl other)

/-- A string with a backslash, both quotes and both line ends, and a literal without escapes that
holds a backslash and a byte that starts no character. -/
theorem string_literals_decode_exactly_at_a_bad_byte :
    let v := ['\\', '"', '\'', '\n', '\r', 'é']
    let file : File := ⟨0, "b.pas", ("x'a\\" : Text) ++ [0xFF] ++ ("'y" : Text), 0⟩
    let found := scan file .pascal ((Cursor.ofText file.content).skip 1)
    (TokenStream.ofFile ⟨0, "a.prg", ofChars (literal '"' v), 0⟩ .dbase).tokens.map (·.value) =
      [ofChars v] ∧
    found.1.error = none ∧ found.1.token.value = ofChars ['a', '\\', replacement] := by
  intro v file found
  obtain ⟨written, read⟩ := string_literals_decode_exactly
  obtain ⟨tok, eof, stream, -, value, -⟩ :=
    written ⟨0, "a.prg", ofChars (literal '"' v), 0⟩ '"' v rfl rfl
  have glyphs : Glyph.ofText file.content =
      [.plain 'x'] ++ .plain '\'' ::
        ([.plain 'a', .plain '\\', ⟨replacement, [0xFF]⟩] ++ .plain '\'' :: [.plain 'y']) := by
    decide +kernel
  obtain ⟨succeeds, gives, plain⟩ := read file .pascal _ _ _ glyphs rfl
  have items := (plain (by decide) [.plain 'a', .plain '\\', ⟨replacement, [0xFF]⟩] _).2
    ⟨rfl, by decide +kernel⟩
  exact ⟨by rw [stream, List.map_singleton, value], succeeds.2 ⟨_, _, _, _, rfl, items, rfl⟩,
    (gives _ _ _ _ rfl items rfl).2.1⟩

end PrgScript.Scanner
