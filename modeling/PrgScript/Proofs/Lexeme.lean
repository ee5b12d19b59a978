import PrgScript.Proofs.Literals

/-!
# How tokens are written

Two directions. A token that a scan hands out is written in one of few ways: a name
is a run of letters, digits and underscores that is no reserved word, a number
consists of digits and a point, and the content of a string is a sequence of
characters. Conversely, glyphs written like a token, with nothing behind them that
could go on with it, are scanned as that token.

`Scans` collects the second direction for whole texts: lexemes with blanks between
them. A text that scans so is scanned to its end, and its tokens are those lexemes.
-/

namespace PrgScript

open Text

/-- A name of the dBase dialect. -/
def IsName (t : Text) : Prop :=
  ∃ c cs, t = ofChars (c :: cs) ∧ Scanner.isIdentStart c = true ∧
    (∀ x ∈ cs, Scanner.isIdentContinue x = true) ∧ Dialect.dbase.keyword? t = none

/-- What of a token does not depend on where it stands. -/
structure Lexed where
  kind : Kind
  text : Text
  value : Text

def Token.lexed (tok : Token) : Lexed := ⟨tok.kind, tok.text, tok.value⟩

namespace Scanner

/-! ### Classes of characters -/

/-- The characters that end a line, stand between tokens, or may open a comment. -/
def separators : List Char :=
  ['\n', ' ', '\t', '\r', '\x0c', '\x0b', '*', '&', '/', '(', '\x7b', ';']

/-- A class of characters without separators has none of them. -/
theorem not_mem_separators {p : Char → Bool} (none : separators.any p = false) {c : Char}
    (h : p c = true) : c ∉ separators := by
  intro mem
  rw [List.any_eq_true.2 ⟨c, mem, h⟩] at none
  cases none

theorem commentAt?_eq_none {c : Char} (h : c ∉ separators) (next : Option Char) :
    commentAt? .dbase c next = none := by
  unfold commentAt?
  rw [List.find?_eq_none]
  intro form _
  have first : form.first ∈ separators := by cases form <;> decide
  have other : (form.first == c) = false := beq_false_of_ne fun same => h (same ▸ first)
  simp [opensWith, other]

theorem skipTrivia_of_not_mem {g : Glyph} (h : g.char ∉ separators) (rest : List Glyph)
    (count : Nat) : skipTrivia .dbase .between count (g :: rest) = .clear count := by
  have noComment := commentAt?_eq_none h (rest.head?.map (·.char))
  simp only [separators, List.mem_cons, List.not_mem_nil, or_false, not_or] at h
  exact skipTrivia_solid h.1 (by simp [isBlank, h]) noComment

/-- Blanks are skipped. -/
theorem skipTrivia_blanks (n count : Nat) (gs : List Glyph) :
    skipTrivia .dbase .between count (List.replicate n (Glyph.plain ' ') ++ gs) =
      skipTrivia .dbase .between (count + n) gs := by
  induction n generalizing count with
  | zero => rfl
  | succ n ih =>
      have blank : isBlank (Glyph.plain ' ').char = true := rfl
      rw [List.replicate_succ, List.cons_append, skipTrivia_blank blank, ih]
      rw [Nat.add_right_comm]
      rfl

/-- The run of a class at the front ends where a character outside it stands. -/
theorem run_plain_append {p : Char → Bool} {cs : List Char} (all : ∀ c ∈ cs, p c = true)
    {rest : List Glyph} (ends : (rest.head?.any fun g => p g.char) = false) :
    run p (cs.map Glyph.plain ++ rest) = cs.length := by
  have stops : rest.takeWhile (fun g => p g.char) = [] := by
    cases rest with
    | nil => rfl
    | cons g rest =>
        have outside : p g.char = false := by simpa using ends
        simp [outside]
  rw [run, List.takeWhile_append_of_pos, stops, List.append_nil, List.length_map]
  intro g mem
  obtain ⟨c, inside, rfl⟩ := List.mem_map.1 mem
  exact all c inside

/-- A lexeme at the front: its glyphs, its kind and value, and the glyphs behind it. -/
structure Lexes (used : List Glyph) (kind : Kind) (value : Text) (rest : List Glyph) : Prop where
  solid : ∀ count, skipTrivia .dbase .between count (used ++ rest) = .clear count
  lexeme : ∃ g more, used = g :: more ∧
    lexeme .dbase g (more ++ rest) = .token kind value more.length

/-- Glyphs that are lexemes, with blanks between them. -/
inductive Scans : List Glyph → List Lexed → Prop
  | nil : Scans [] []
  | blank {gs : List Glyph} {ws : List Lexed} (rest : Scans gs ws) :
      Scans (Glyph.plain ' ' :: gs) ws
  | word {used rest : List Glyph} {kind : Kind} {value : Text} {ws : List Lexed}
      (first : Lexes used kind value rest) (more : Scans rest ws) :
      Scans (used ++ rest) (⟨kind, Glyph.text used, value⟩ :: ws)

/-- The first lexeme is scanned, the blanks before it skipped. -/
theorem scan_lexes {used rest : List Glyph} {kind : Kind} {value : Text}
    (h : Lexes used kind value rest) (file : File) (pos : Pos) (n : Nat) :
    ∃ tok pos', scan file .dbase ⟨pos, List.replicate n (Glyph.plain ' ') ++ (used ++ rest)⟩ =
        (⟨tok, none⟩, ⟨pos', rest⟩) ∧
      tok.lexed = ⟨kind, Glyph.text used, value⟩ := by
  obtain ⟨g, more, rfl, lexed⟩ := h.lexeme
  generalize gap : List.replicate n (Glyph.plain ' ') ++ (g :: more ++ rest) = gs
  have skipped : skipTrivia .dbase .between 0 gs = .clear n := by
    rw [← gap, skipTrivia_blanks, h.solid, Nat.zero_add]
  let start : Cursor := Cursor.skip n ⟨pos, gs⟩
  have ahead : start.rest = g :: (more ++ rest) := by
    rw [Cursor.skip_rest, ← gap, List.drop_left' List.length_replicate]
    rfl
  have behind : start.skip (more.length + 1) = ⟨(start.skip (more.length + 1)).pos, rest⟩ := by
    have tail : (start.skip (more.length + 1)).rest = rest := by
      rw [Cursor.skip_rest, ahead, List.drop_succ_cons, List.drop_left]
    rw [← tail]
  refine ⟨_, _, (scan_token file skipped ahead lexed).trans (congrArg _ behind), ?_⟩
  show (⟨kind, Glyph.text (start.rest.take (more.length + 1)), value⟩ : Lexed) = _
  rw [ahead, List.take_succ_cons, List.take_left]

/-- A text that is lexemes with blanks between them yields these lexemes. -/
theorem Scans.yields {gs : List Glyph} {ws : List Lexed} (h : Scans gs ws) (file : File) :
    ∀ (n : Nat) (pos : Pos), ∃ toks eof,
      (⟨file, .dbase, ⟨pos, List.replicate n (Glyph.plain ' ') ++ gs⟩, none⟩ : Lexer).Yields
          toks eof ∧
        toks.map Token.lexed = ws := by
  induction h with
  | nil =>
      intro n pos
      generalize gap : List.replicate n (Glyph.plain ' ') ++ [] = gs
      have skipped : skipTrivia .dbase .between 0 gs = .clear n := by
        rw [← gap, skipTrivia_blanks, skipTrivia, Nat.zero_add]
      have ahead : (Cursor.skip n ⟨pos, gs⟩).rest = [] := by
        rw [Cursor.skip_rest, ← gap, List.drop_left' List.length_replicate]
      have next := Lexer.next_of_scan (scan_end file skipped ahead)
      refine ⟨[], _, .done next rfl ?_, rfl⟩
      exact List.isEmpty_iff.2 ahead
  | blank _ ih =>
      intro n pos
      have := ih (n + 1) pos
      rwa [List.replicate_succ', List.append_assoc] at this
  | word first _ ih =>
      intro n pos
      obtain ⟨tok, pos', scanned, lexed⟩ := scan_lexes first file pos n
      obtain ⟨toks, eof, yields, rest⟩ := ih 0 pos'
      obtain ⟨g, more, -, lexeme⟩ := first.lexeme
      have inside : tok.kind ≠ .eof := by
        have kind := congrArg Lexed.kind lexed
        simp only [Token.lexed] at kind
        rw [kind]
        exact kind_ne_eof_of_lexeme lexeme
      exact ⟨tok :: toks, eof, .more (Lexer.next_of_scan scanned) inside yields,
        by rw [List.map_cons, lexed, rest]⟩

/-! ### Names and numbers -/

/-- Nothing stands at the front that could go on with a name or a number. -/
def Apart (rest : List Glyph) : Prop :=
  ∀ g ∈ rest.head?, isIdentContinue g.char = false ∧ g.char ≠ '.'

variable {g : Glyph} {rest : List Glyph} {p : Char → Bool} {c : Char} {cs : List Char}

theorem Apart.any (h : Apart rest) (part : ∀ c, p c = true → isIdentContinue c = true) :
    (rest.head?.any fun g => p g.char) = false := by
  cases rest with
  | nil => rfl
  | cons g rest =>
      have outside := (h g rfl).1
      cases inside : p g.char with
      | false => simpa using inside
      | true =>
          rw [part _ inside] at outside
          cases outside

theorem isIdentContinue_of_isDigit (h : isDigit c = true) : isIdentContinue c = true := by
  simp [isIdentContinue, h]

theorem isIdentContinue_of_isIdentStart (h : isIdentStart c = true) : isIdentContinue c = true := by
  simp [isIdentContinue, h]

/-- A digit is one of ten characters. -/
theorem exists_of_isDigit (h : isDigit c = true) : ∃ k < 10, c = Char.ofNat (48 + k) := by
  obtain ⟨low, high⟩ : 48 ≤ c.toNat ∧ c.toNat ≤ 57 := by
    simpa [isDigit, Char.isDigit, UInt32.le_iff_toNat_le] using h
  refine ⟨c.toNat - 48, by omega, ?_⟩
  rw [show 48 + (c.toNat - 48) = c.toNat by omega, Char.ofNat_toNat]

theorem isIdentStart_of_isDigit (h : isDigit c = true) : isIdentStart c = false := by
  obtain ⟨k, small, rfl⟩ := exists_of_isDigit h
  decide +revert

theorem isLetter_of_isDigit (h : isDigit c = true) : isLetter c = false := by
  obtain ⟨k, small, rfl⟩ := exists_of_isDigit h
  clear h
  decide +revert +kernel

theorem ne_of_class {c x : Char} (h : p c = true) (other : p x = false) : c ≠ x := by
  rintro rfl
  rw [h] at other
  cases other

theorem lexeme_of_isIdentStart (starts : isIdentStart g.char = true) :
    lexeme .dbase g rest = identifier .dbase g rest := by
  have inLine : g.char ≠ '\n' := ne_of_class starts (by decide)
  rw [lexeme, if_neg inLine, if_pos starts]

theorem lexeme_of_isDigit (digit : isDigit g.char = true) :
    lexeme .dbase g rest = number g rest := by
  have inLine : g.char ≠ '\n' := ne_of_class digit (by decide)
  rw [lexeme, if_neg inLine, if_neg (by simp [isIdentStart_of_isDigit digit]),
    if_pos (by simp [digit])]

theorem lexes_name (starts : isIdentStart c = true) (continues : ∀ x ∈ cs, isIdentContinue x = true)
    (free : Dialect.dbase.keyword? (ofChars (c :: cs)) = none) (ends : Apart rest) :
    Lexes ((c :: cs).map Glyph.plain) .ident [] rest where
  solid := skipTrivia_of_not_mem (not_mem_separators (p := isIdentStart) (by decide) starts) _
  lexeme := by
    have more : run isIdentContinue (cs.map Glyph.plain ++ rest) = cs.length :=
      run_plain_append continues (ends.any fun _ h => h)
    have word : Glyph.text (Glyph.plain c :: cs.map Glyph.plain) = ofChars (c :: cs) :=
      Glyph.text_plain (c :: cs)
    refine ⟨Glyph.plain c, cs.map Glyph.plain, rfl, ?_⟩
    rw [lexeme_of_isIdentStart starts, identifier]
    simp only [more, List.length_map, List.take_left' (List.length_map _), word, free,
      Option.getD_none]

theorem Apart.notPoint (h : Apart (g :: rest)) : g.char ≠ '.' :=
  (h g rfl).2

/-- A whole number. -/
theorem lexes_whole (digit : isDigit c = true) (digits : ∀ x ∈ cs, isDigit x = true)
    (ends : Apart rest) :
    Lexes ((c :: cs).map Glyph.plain) .number [] rest where
  solid := skipTrivia_of_not_mem (not_mem_separators (p := isDigit) (by decide) digit) _
  lexeme := by
    have more : run isDigit (cs.map Glyph.plain ++ rest) = cs.length :=
      run_plain_append digits (ends.any fun _ => isIdentContinue_of_isDigit)
    have noPoint : (Glyph.plain c).char ≠ '.' := ne_of_class digit (by decide)
    have noLetter : (rest.head?.any fun g => isIdentStart g.char) = false :=
      ends.any fun _ => isIdentContinue_of_isIdentStart
    refine ⟨Glyph.plain c, cs.map Glyph.plain, rfl, ?_⟩
    rw [lexeme_of_isDigit digit, number]
    simp only [more, noPoint, if_false, List.drop_left' (List.length_map _), List.length_map]
    cases rest with
    | nil => simp
    | cons g rest =>
        simp only [ends.notPoint, false_and, if_false, List.drop_left' (List.length_map _),
          noLetter, Bool.false_eq_true]

/-- A number with a fraction. -/
theorem lexes_fraction {c d : Char} {cs ds : List Char} (digit : isDigit c = true)
    (digits : ∀ x ∈ cs, isDigit x = true) (digit' : isDigit d = true)
    (digits' : ∀ x ∈ ds, isDigit x = true) (ends : Apart rest) :
    Lexes ((c :: (cs ++ '.' :: d :: ds)).map Glyph.plain) .number [] rest where
  solid := skipTrivia_of_not_mem (not_mem_separators (p := isDigit) (by decide) digit) _
  lexeme := by
    have noPoint : (Glyph.plain c).char ≠ '.' := ne_of_class digit (by decide)
    have noLetter : (rest.head?.any fun g => isIdentStart g.char) = false :=
      ends.any fun _ => isIdentContinue_of_isIdentStart
    have fraction : run isDigit ((d :: ds).map Glyph.plain ++ rest) = ds.length + 1 :=
      run_plain_append (List.forall_mem_cons.2 ⟨digit', digits'⟩)
        (ends.any fun _ => isIdentContinue_of_isDigit)
    have whole : run isDigit
        (cs.map Glyph.plain ++ Glyph.plain '.' :: ((d :: ds).map Glyph.plain ++ rest)) =
          cs.length :=
      run_plain_append digits rfl
    have split : (cs ++ '.' :: d :: ds).map Glyph.plain ++ rest =
        cs.map Glyph.plain ++ Glyph.plain '.' :: ((d :: ds).map Glyph.plain ++ rest) := by simp
    have after : (cs.map Glyph.plain ++ Glyph.plain '.' :: ((d :: ds).map Glyph.plain ++ rest)).drop
        (cs.length + 1 + (ds.length + 1)) = rest := by
      rw [← split, List.drop_left' (by simp; omega)]
    refine ⟨Glyph.plain c, (cs ++ '.' :: d :: ds).map Glyph.plain, rfl, ?_⟩
    rw [lexeme_of_isDigit digit, number, split]
    simp only [whole, noPoint, if_false, List.drop_left' (List.length_map _)]
    have point : (Glyph.plain '.').char = '.' ∧
        (!((d :: ds).map Glyph.plain ++ rest).head?.any fun g => isLetter g.char) = true :=
      ⟨rfl, by simp [isLetter_of_isDigit digit']⟩
    rw [if_pos point, fraction, after, if_neg (by simp [noLetter]), List.length_map]
    simp [Nat.add_assoc, Nat.add_comm]

/-! ### Strings -/

theorem lexes_string {quote : Char} (isQuote : Dialect.dbase.isQuote quote = true) (cs : List Char)
    (rest : List Glyph) :
    Lexes ((literal quote cs).map Glyph.plain) .string (ofChars cs) rest where
  solid := skipTrivia_of_isQuote isQuote
  lexeme := by
    refine ⟨Glyph.plain quote, (cs.flatMap (escaped quote) ++ [quote]).map Glyph.plain, rfl, ?_⟩
    have read := (items_escaped isQuote cs).stringRest isQuote (Glyph.plain_char quote) rest 0 []
    rw [lexeme_of_isQuote isQuote, List.map_append, List.append_assoc, List.map_singleton,
      List.singleton_append, Glyph.plain_char, read]
    simp

/-! ### Words between dots and signs -/

theorem lexeme_of_point {l : Char} (letter : isLetter l = true) (rest : List Glyph) :
    lexeme .dbase (Glyph.plain '.') (Glyph.plain l :: rest) = dotWord (Glyph.plain l :: rest) := by
  have noDigit : isDigit l = false := by
    cases digit : isDigit l with
    | false => rfl
    | true =>
        rw [isLetter_of_isDigit digit] at letter
        cases letter
  have point : isDigit '.' = false := by decide
  rw [lexeme, if_neg (by decide), if_neg (by decide), if_neg (by simp [point, noDigit]),
    if_pos ⟨rfl, rfl⟩]

theorem lexes_dotWord {l : Char} {ls : List Char} (letters : (l :: ls).all isLetter = true)
    {known value : String} {kind : Kind}
    (found : dotWords.find? (fun entry => Text.ofString entry.1 == upperASCII (ofChars (l :: ls))) =
      some (known, kind, value)) (rest : List Glyph) :
    Lexes (('.' :: (l :: ls ++ ['.'])).map Glyph.plain) kind value rest where
  solid := skipTrivia_of_not_mem (by decide) _
  lexeme := by
    have letters := List.all_eq_true.1 letters
    have noLetter : isLetter '.' = false := by decide +kernel
    have split : (l :: ls ++ ['.']).map Glyph.plain ++ rest =
        (l :: ls).map Glyph.plain ++ Glyph.plain '.' :: rest := by simp
    have word : run isLetter ((l :: ls).map Glyph.plain ++ Glyph.plain '.' :: rest) =
        (l :: ls).length := run_plain_append letters (by simpa using noLetter)
    have chars : ((l :: ls).map Glyph.plain).map (·.char) = l :: ls := by simp [Function.comp_def]
    refine ⟨Glyph.plain '.', (l :: ls ++ ['.']).map Glyph.plain, rfl, ?_⟩
    rw [split]
    refine (lexeme_of_point (letters l List.mem_cons_self) _).trans ?_
    change dotWord ((l :: ls).map Glyph.plain ++ Glyph.plain '.' :: rest) = _
    rw [dotWord]
    simp only [word, List.take_left' (List.length_map _), List.drop_left' (List.length_map _),
      chars]
    rw [show dotWords.find? _ = _ from found]
    simp

def signs : List Char := ['+', '-', '*', '/', '=', '<', '>', '(', ')']

/-- A sign, with nothing behind it that makes it a longer one or a comment. -/
theorem lexes_sign {kind : Kind} (sign : c ∈ signs)
    (noComment : commentAt? .dbase c ((cs.map Glyph.plain ++ rest).head?.map (·.char)) = none)
    (longest : operator c ((cs.map Glyph.plain ++ rest).head?.map (·.char)) = (kind, cs.length)) :
    Lexes ((c :: cs).map Glyph.plain) kind [] rest where
  solid := by
    have all : signs.all (fun x => x != '\n' && !isBlank x) = true := by decide
    have class_ := List.all_eq_true.1 all c sign
    simp only [Bool.and_eq_true, bne_iff_ne, Bool.not_eq_true'] at class_
    exact fun _ => skipTrivia_solid class_.1 class_.2 noComment
  lexeme := by
    refine ⟨Glyph.plain c, cs.map Glyph.plain, rfl, ?_⟩
    have all : signs.all (fun x => x != '\n' && !isIdentStart x && !isDigit x && x != '.' &&
        !Dialect.dbase.isQuote x && x != replacement) = true := by decide
    have class_ := List.all_eq_true.1 all c sign
    simp only [Bool.and_eq_true, bne_iff_ne, Bool.not_eq_true'] at class_
    obtain ⟨⟨⟨⟨⟨inLine, noWord⟩, noDigit⟩, noPoint⟩, noQuote⟩, valid⟩ := class_
    simp only [Scanner.lexeme, Glyph.plain_char, inLine, noWord, noDigit, noPoint, noQuote, valid,
      longest, if_false, Bool.false_eq_true, false_and, beq_eq_false_iff_ne.2 noPoint, Bool.or_self,
      Bool.false_and, List.length_map]

/-! ### The tokens of a script -/

/-- The first glyphs, as many as the run of a class is long, are of the class. -/
theorem of_mem_take_run {gs : List Glyph} (h : g ∈ gs.take (run p gs)) : p g.char = true := by
  induction gs with
  | nil => cases h
  | cons x gs ih =>
      cases inside : p x.char with
      | false => simp [run, inside] at h
      | true =>
          have longer : run p (x :: gs) = run p gs + 1 := by simp [run, inside]
          rw [longer, List.take_succ_cons] at h
          rcases List.mem_cons.1 h with rfl | h
          · exact inside
          · exact ih h

/-- A glyph with the bytes of its character, unless it is a line end or an invalid byte. -/
def Faithful (g : Glyph) : Prop := g.char ≠ replacement → g.char ≠ '\n' → g.bytes = ofChar g.char

theorem text_eq_ofChars (valid : p replacement = false) (inLine : p '\n' = false) {gs : List Glyph}
    (faithful : ∀ g ∈ gs, Faithful g) (all : ∀ g ∈ gs, p g.char = true) :
    Glyph.text gs = ofChars (gs.map (·.char)) := by
  induction gs with
  | nil => rfl
  | cons g gs ih =>
      rw [List.forall_mem_cons] at faithful all
      have bytes := faithful.1 (ne_of_class all.1 valid) (ne_of_class all.1 inLine)
      rw [List.map_cons, ofChars_cons, ← ih faithful.2 all.2, ← bytes]
      rfl

end Scanner

/-- How a token is written, by its kind. -/
structure Token.Written (tok : Token) : Prop where
  name : tok.kind = .ident → IsName tok.text
  numeral : tok.kind = .number → IsNumeral tok.text
  content : tok.kind = .string → ∃ cs, tok.value = ofChars cs

namespace Scanner

variable {g : Glyph} {rest : List Glyph} {kind : Kind} {value : Text} {more : Nat}

theorem isName_of_identifier (faithful : ∀ x ∈ g :: rest, Faithful x)
    (starts : isIdentStart g.char = true)
    (h : identifier .dbase g rest = .token .ident value more) :
    IsName (Glyph.text (g :: rest.take more)) := by
  obtain ⟨rfl, ⟨-, free⟩ | reserved⟩ := identifier_inv h
  · have continues : ∀ x ∈ rest.take (run isIdentContinue rest), isIdentContinue x.char = true :=
      fun x mem => of_mem_take_run mem
    have text := text_eq_ofChars (p := isIdentContinue) (by decide +kernel) (by decide)
      (fun x mem => faithful x (List.mem_of_mem_take (i := _ + 1) mem))
      (List.forall_mem_cons.2 ⟨isIdentContinue_of_isIdentStart starts, continues⟩)
    refine ⟨g.char, _, text, starts, ?_, free⟩
    intro c mem
    obtain ⟨x, inside, rfl⟩ := List.mem_map.1 mem
    exact continues x inside
  · cases reserved

def isNumeric (c : Char) : Bool := isDigit c || c == '.'

theorem isNumeric_of_number (h : number g rest = .token kind value more) :
    ∀ x ∈ rest.take more, isNumeric x.char = true := by
  have whole : ∀ x ∈ rest.take (run isDigit rest), isNumeric x.char = true := by
    intro x mem
    simp [isNumeric, of_mem_take_run mem]
  unfold number at h
  extract_lets digits taken after total at h
  split at h
  · cases h
  · obtain ⟨-, -, rfl⟩ := Lexeme.token.inj h
    unfold taken
    split
    · exact whole
    split
    · exact whole
    next point after ahead =>
      split
      next isPoint =>
        rw [Nat.add_assoc, List.take_add, ahead, Nat.add_comm 1, List.take_succ_cons]
        intro x mem
        rcases List.mem_append.1 mem with mem | mem
        · exact whole x mem
        · rcases List.mem_cons.1 mem with rfl | mem
          · simp [isNumeric, isPoint.1]
          · simp [isNumeric, of_mem_take_run mem]
      · exact whole

theorem of_isNumeric {c : Char} (h : isNumeric c = true) {b : UInt8} (mem : b ∈ ofChar c) :
    IsDigit b ∨ b = 46 := by
  simp only [isNumeric, Bool.or_eq_true, beq_iff_eq] at h
  rcases h with digit | rfl
  · obtain ⟨k, small, rfl⟩ := exists_of_isDigit digit
    rw [ofChar_digit small, List.mem_singleton] at mem
    exact .inl (mem ▸ isDigit_digitByte small)
  · exact .inr (List.mem_singleton.1 mem)

theorem isNumeral_of_number (faithful : ∀ x ∈ g :: rest, Faithful x)
    (first : isDigit g.char = true ∨ g.char = '.') (h : number g rest = .token kind value more) :
    IsNumeral (Glyph.text (g :: rest.take more)) := by
  have numeric : ∀ x ∈ g :: rest.take more, isNumeric x.char = true :=
    List.forall_mem_cons.2 ⟨by simpa [isNumeric] using first, isNumeric_of_number h⟩
  have text : Glyph.text (g :: rest.take more) = ofChars ((g :: rest.take more).map (·.char)) :=
    text_eq_ofChars (p := isNumeric) (by decide +kernel) (by decide)
      (fun x mem => faithful x (List.mem_of_mem_take (i := more + 1) mem)) numeric
  rw [text]
  constructor
  · obtain ⟨lead, rest, same, -⟩ := decode_ofChar g.char []
    rw [List.map_cons, ofChars_cons, same]
    simp
  · intro b mem
    obtain ⟨c, inside, mem⟩ := List.mem_flatMap.1 mem
    obtain ⟨x, taken, rfl⟩ := List.mem_map.1 inside
    exact of_isNumeric (numeric x taken) mem

theorem written_of_lexeme (faithful : ∀ x ∈ g :: rest, Faithful x)
    (h : lexeme .dbase g rest = .token kind value more) {tok : Token}
    (same : tok.lexed = ⟨kind, Glyph.text (g :: rest.take more), value⟩) : tok.Written := by
  obtain ⟨rfl, text, rfl⟩ := Lexed.mk.inj same
  rcases lexeme_inv h with ⟨starts, word⟩ | ⟨first, numeral⟩ | literal | ⟨sign, -⟩
  · refine ⟨fun name => ?_, fun other => ?_, fun other => ?_⟩
    · rw [name] at word
      rw [text]
      exact isName_of_identifier faithful starts word
    all_goals
      obtain ⟨-, ⟨name, -⟩ | reserved⟩ := identifier_inv word
      · rw [name] at other
        cases other
      · rw [other] at reserved
        cases reserved
  · have kind := kind_of_number numeral
    refine ⟨fun other => ?_, fun _ => ?_, fun other => ?_⟩
    · rw [kind] at other
      cases other
    · rw [text]
      exact isNumeral_of_number faithful first numeral
    · rw [kind] at other
      cases other
  · obtain ⟨kind, content⟩ := stringRest_inv literal
    refine ⟨fun other => ?_, fun other => ?_, fun _ => content⟩
    all_goals
      rw [kind] at other
      cases other
  · refine ⟨fun other => ?_, fun other => ?_, fun other => ?_⟩
    all_goals
      rw [other] at sign
      cases sign

theorem written_of_scan {file : File} {c c' : Cursor} {tok : Token}
    (faithful : ∀ g ∈ c.rest, Faithful g) (h : scan file .dbase c = (⟨tok, none⟩, c')) :
    tok.Written ∧ ∀ g ∈ c'.rest, Faithful g := by
  unfold scan at h
  split at h
  next => cases h
  next count _ =>
    dsimp only at h
    split at h
    next =>
      cases h
      refine ⟨⟨nofun, nofun, nofun⟩, fun g mem => faithful g ?_⟩
      rw [Cursor.skip_rest] at mem
      exact List.mem_of_mem_drop mem
    next g rest ahead =>
      rw [Cursor.skip_rest] at ahead
      split at h
      next kind value more lexed =>
        cases h
        have part : ∀ x ∈ g :: rest, Faithful x := fun x mem =>
          faithful x (List.mem_of_mem_drop (ahead ▸ mem))
        constructor
        · refine written_of_lexeme part lexed ?_
          simp [Token.lexed, tokenBetween, ahead]
        · intro x mem
          rw [Cursor.skip_rest, Cursor.skip_rest, ahead] at mem
          exact part x (List.mem_of_mem_drop mem)
      next => cases h

end Scanner

/-- The tokens of a script are written by the rules of their kinds. -/
theorem TokenStream.written_of_mem {file : File} {tok : Token}
    (h : tok ∈ (ofFile file .dbase).tokens) : tok.Written := by
  suffices ∀ fuel (c : Cursor), (∀ g ∈ c.rest, Scanner.Faithful g) →
      ∀ tok ∈ (scanFrom file .dbase fuel c).tokens, tok.Written from
    this _ _ (fun g mem => Glyph.bytes_of_mem mem) tok h
  intro fuel
  induction fuel with
  | zero => simp [scanFrom]
  | succ fuel ih =>
      intro c faithful tok mem
      rw [scanFrom] at mem
      split at mem
      next => cases mem
      next first c' scanned =>
        split at mem
        next => cases mem
        next =>
          obtain ⟨written, faithful⟩ := Scanner.written_of_scan faithful scanned
          rcases List.mem_cons.1 mem with rfl | mem
          · exact written
          · exact ih c' faithful tok mem

end PrgScript
