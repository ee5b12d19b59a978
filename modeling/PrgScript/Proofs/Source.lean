import PrgScript.Proofs.Decimal
import PrgScript.Proofs.Expression
import PrgScript.Proofs.Lexeme

/-!
# Expressions as scripts write them

A listing writes an expression for its reader: the logical operators are plain words and
strings are quoted with every character made visible. A script writes the same expression
with words between dots and with the escapes that scanning knows. `spelled` is the printer
with these two left open, so a listing and a script place the same parentheses.

The lexemes of an expression are computed beside its text. `Writes` says that a text is
scanned as given lexemes, and it is closed under the ways the printer puts texts together:
parentheses around a text, an operator before one, and an operator between two.
-/

namespace PrgScript

open Text Grammar

/-- An operator as a script writes it: the logical ones are words between dots. -/
def Op.spelling : Op → String
  | .and => ".AND."
  | .or => ".OR."
  | .not => ".NOT."
  | op => op.text

def Op.kind : Op → Kind
  | .add | .pos => .plus
  | .sub | .neg => .minus
  | .mul => .star
  | .div => .slash
  | .eq => .eq
  | .exactEq => .eqEq
  | .ne => .notEq
  | .lt => .lt
  | .le => .ltEq
  | .gt => .gt
  | .ge => .gtEq
  | .and => .and
  | .or => .or
  | .not => .not
  | .unknown _ => .char

def stringLiteral (value : Text) : Text := ofChars (Scanner.literal '"' (chars value))

namespace Expr

/-- The text of an expression, given how its operators and strings are written. -/
def spelled (operator : Op → Text) (quoted : Text → Text) (outer : Nat) : Expr → Text
  | .number value _ => Number.format value
  | .string value _ => quoted value
  | .logical value _ => logicalText value
  | .ident name _ => name
  | .unary op operand _ =>
    parenthesize (op.precedence < outer)
      (operator op ++ Text.onlyIf (op = .not) " " ++
        operand.spelled operator quoted (op.precedence + 1))
  | .binary op left right _ =>
    parenthesize (op.precedence < outer)
      (left.spelled operator quoted op.precedence ++ " " ++ operator op ++ " " ++
        right.spelled operator quoted (op.precedence + 1))
  | .missing => []
  | .malformed .. => "<invalid>"

/-- A listing spells operators and strings in its own way. -/
theorem textIn_eq_spelled (outer : Nat) (e : Expr) :
    e.textIn outer = e.spelled (fun op => op.text) Text.quote outer := by
  induction e generalizing outer with
  | number | string | logical | ident | missing | malformed => rfl
  | unary op operand line ih => rw [textIn, spelled, ih]
  | binary op left right line ihLeft ihRight => rw [textIn, spelled, ihLeft, ihRight]

/-- The text of an expression in a script, inside an operator that binds with precedence
`outer`. -/
def sourceIn (outer : Nat) (e : Expr) : Text :=
  e.spelled (fun op => op.spelling) stringLiteral outer

def source (e : Expr) : Text := e.sourceIn 0

def enclosed (need : Bool) (ws : List Lexed) : List Lexed :=
  if need then ⟨.lParen, "(", []⟩ :: (ws ++ [⟨.rParen, ")", []⟩]) else ws

/-- The lexemes of an expression inside an operator that binds with precedence `outer`. -/
def words (outer : Nat) : Expr → List Lexed
  | .number value _ => [⟨.number, Number.format value, []⟩]
  | .string value _ => [⟨.string, stringLiteral value, value⟩]
  | .logical value _ => [⟨.logical, logicalText value, if value then "T" else "F"⟩]
  | .ident name _ => [⟨.ident, name, []⟩]
  | .unary op operand _ =>
    enclosed (op.precedence < outer)
      (⟨op.kind, op.spelling, []⟩ :: operand.words (op.precedence + 1))
  | .binary op left right _ =>
    enclosed (op.precedence < outer)
      (left.words op.precedence ++
        ⟨op.kind, op.spelling, []⟩ :: right.words (op.precedence + 1))
  | .missing | .malformed .. => []

end Expr

/-! ### Texts and their lexemes -/

namespace Scanner

/-- Nothing at the front but a blank or a closing parenthesis. -/
def Loose (rest : List Glyph) : Prop := ∀ g ∈ rest.head?, g.char = ' ' ∨ g.char = ')'

theorem Loose.apart {rest : List Glyph} (h : Loose rest) : Apart rest := by
  intro g front
  rcases h g front with same | same
  · rw [same]
    decide
  · rw [same]
    decide

theorem loose_blank (gs : List Glyph) : Loose (Glyph.plain ' ' :: gs) := by
  intro g front
  cases front
  exact .inl rfl

/-- A text that is scanned as the given lexemes wherever a blank, a closing parenthesis or nothing
follows it. Behind an opening parenthesis it does not open a comment. -/
def Writes (t : Text) (ws : List Lexed) : Prop :=
  ∃ c cs, t = ofChars (c :: cs) ∧ '\r' ∉ c :: cs ∧ c ≠ '*' ∧
    ∀ gs vs, Loose gs → Scans gs vs → Scans ((c :: cs).map Glyph.plain ++ gs) (ws ++ vs)

variable {t : Text} {ws : List Lexed} {c : Char} {level : Level} {kind : Kind} {op : Op}

/-- One lexeme. -/
theorem Writes.one {cs : List Char} {value : Text} (inLine : '\r' ∉ c :: cs) (first : c ≠ '*')
    (lexes : ∀ gs, Loose gs → Lexes ((c :: cs).map Glyph.plain) kind value gs) :
    Writes (ofChars (c :: cs)) [⟨kind, ofChars (c :: cs), value⟩] := by
  refine ⟨c, cs, rfl, inLine, first, fun gs vs loose scans => ?_⟩
  have word := Scans.word (lexes gs loose) scans
  rwa [Glyph.text_plain] at word

theorem writes_name (h : IsName t) : Writes t [⟨.ident, t, []⟩] := by
  obtain ⟨c, cs, rfl, starts, continues, free⟩ := h
  apply Writes.one
  · intro mem
    rcases List.mem_cons.1 mem with rfl | mem
    · exact absurd starts (by decide)
    · exact absurd (continues _ mem) (by decide)
  · exact ne_of_class starts (by decide)
  · exact fun gs loose => lexes_name starts continues free loose.apart

theorem writes_string (cs : List Char) :
    Writes (stringLiteral (ofChars cs)) [⟨.string, stringLiteral (ofChars cs), ofChars cs⟩] := by
  have isQuote : Dialect.dbase.isQuote '"' = true := rfl
  rw [stringLiteral, chars_ofChars]
  apply Writes.one
  · exact return_not_mem_literal isQuote cs
  · decide
  · exact fun gs _ => lexes_string isQuote cs gs

theorem writes_logical (value : Bool) :
    Writes (logicalText value) [⟨.logical, logicalText value, if value then "T" else "F"⟩] := by
  cases value with
  | false =>
      show Writes (ofChars ['.', 'F', '.']) [⟨.logical, ofChars ['.', 'F', '.'], ofString "F"⟩]
      refine .one (by decide) (by decide) fun gs _ => ?_
      exact lexes_dotWord (show ['F'].all isLetter = true by decide +kernel) rfl gs
  | true =>
      show Writes (ofChars ['.', 'T', '.']) [⟨.logical, ofChars ['.', 'T', '.'], ofString "T"⟩]
      refine .one (by decide) (by decide) fun gs _ => ?_
      exact lexes_dotWord (show ['T'].all isLetter = true by decide +kernel) rfl gs

/-- Bytes of digits are the bytes of digit characters. -/
theorem exists_digits (digits : ∀ b ∈ t, IsDigit b) :
    ∃ cs, t = ofChars cs ∧ ∀ c ∈ cs, isDigit c = true := by
  induction t with
  | nil => exact ⟨[], rfl, fun c mem => absurd mem List.not_mem_nil⟩
  | cons b t ih =>
      rw [List.forall_mem_cons] at digits
      obtain ⟨cs, rfl, all⟩ := ih digits.2
      obtain ⟨k, small, rfl⟩ := exists_digitByte digits.1
      have digit : isDigit (Char.ofNat (48 + k)) = true := by
        clear digits
        decide +revert
      refine ⟨Char.ofNat (48 + k) :: cs, ?_, List.forall_mem_cons.2 ⟨digit, all⟩⟩
      rw [ofChars_cons, ofChar_digit small]
      rfl

theorem writes_number {x : ℚ} (spells : Number.Spells t x) : Writes t [⟨.number, t, []⟩] := by
  have inLine {c : Char} (digit : isDigit c = true) : c ≠ '\r' := ne_of_class digit (by decide)
  cases spells with
  | whole some bytes =>
      obtain ⟨cs, rfl, digits⟩ := exists_digits bytes
      cases cs with
      | nil => exact absurd rfl some
      | cons c cs =>
          apply Writes.one
          · exact fun mem => inLine (digits _ mem) rfl
          · exact ne_of_class (digits c List.mem_cons_self) (by decide)
          · rw [List.forall_mem_cons] at digits
            exact fun gs loose => lexes_whole digits.1 digits.2 loose.apart
  | @fraction w f some places bytes =>
      obtain ⟨cs, rfl, whole⟩ := exists_digits fun b mem => bytes b (List.mem_append_left f mem)
      obtain ⟨ds, rfl, behind⟩ := exists_digits fun b mem => bytes b (List.mem_append_right _ mem)
      cases cs with
      | nil => exact absurd rfl some
      | cons c cs =>
          cases ds with
          | nil => exact absurd rfl places
          | cons d ds =>
              have same : ofChars (c :: cs) ++ 46 :: ofChars (d :: ds) =
                  ofChars (c :: (cs ++ '.' :: d :: ds)) := by
                rw [← List.cons_append, ofChars_append, ofChars_cons '.']
                rfl
              rw [same]
              apply Writes.one
              · intro mem
                rw [← List.cons_append] at mem
                rcases List.mem_append.1 mem with mem | mem
                · exact inLine (whole _ mem) rfl
                · rcases List.mem_cons.1 mem with point | mem
                  · exact absurd point (by decide)
                  · exact inLine (behind _ mem) rfl
              · exact ne_of_class (whole c List.mem_cons_self) (by decide)
              · rw [List.forall_mem_cons] at whole behind
                exact fun gs loose =>
                  lexes_fraction whole.1 whole.2 behind.1 behind.2 loose.apart

theorem lexes_twoSided (sign : TwoSided level kind op) (rest : List Glyph) :
    Lexes (op.spelling.toList.map Glyph.plain) kind [] (Glyph.plain ' ' :: rest) := by
  cases sign with
  | or => exact lexes_dotWord (show ['O', 'R'].all isLetter = true by decide +kernel) rfl _
  | and => exact lexes_dotWord (show ['A', 'N', 'D'].all isLetter = true by decide +kernel) rfl _
  | _ => exact lexes_sign (by decide) rfl rfl

theorem lexes_oneSided (sign : OneSided level kind op) (rest : List Glyph) :
    Lexes (op.spelling.toList.map Glyph.plain) kind [] rest := by
  cases sign with
  | not => exact lexes_dotWord (show ['N', 'O', 'T'].all isLetter = true by decide +kernel) rfl _
  | neg => exact lexes_sign (by decide) (commentAt?_eq_none (by decide) _) rfl
  | pos => exact lexes_sign (by decide) (commentAt?_eq_none (by decide) _) rfl

theorem lexes_openParen (first : c ≠ '*') (gs : List Glyph) :
    Lexes (['('].map Glyph.plain) .lParen [] (Glyph.plain c :: gs) := by
  refine lexes_sign (by decide) ?_ rfl
  show commentAt? .dbase '(' (some c) = none
  unfold commentAt?
  rw [List.find?_eq_none]
  intro form _
  cases form <;> simp [opensWith, CommentForm.first, CommentForm.second?, first]

theorem lexes_closeParen (gs : List Glyph) : Lexes ([')'].map Glyph.plain) .rParen [] gs :=
  lexes_sign (by decide) (commentAt?_eq_none (by decide) _) rfl

theorem Writes.enclosed (h : Writes t ws) (need : Bool) :
    Writes (Expr.parenthesize need t) (Expr.enclosed need ws) := by
  cases need with
  | false => exact h
  | true =>
      obtain ⟨c, cs, rfl, inLine, first, scans⟩ := h
      have opening : ofString "(" = ofChars ['('] := rfl
      have closing : ofString ")" = ofChars [')'] := rfl
      refine ⟨'(', c :: (cs ++ [')']), ?_, ?_, by decide, fun gs vs loose rest => ?_⟩
      · simp [Expr.parenthesize, opening, closing, ofChars]
      · simpa using inLine
      · have closed := Scans.word (lexes_closeParen gs) rest
        have inside := scans _ _ (fun g front => by cases front; exact .inr rfl) closed
        have whole := Scans.word (lexes_openParen first _) inside
        rw [Glyph.text_plain, Glyph.text_plain] at whole
        simpa [Expr.enclosed, opening, closing] using whole

theorem Writes.oneSided (h : Writes t ws) (sign : OneSided level kind op) :
    Writes (op.spelling ++ Text.onlyIf (op = .not) " " ++ t) (⟨kind, op.spelling, []⟩ :: ws) := by
  obtain ⟨c, cs, rfl, inLine, first, scans⟩ := h
  have lexes := lexes_oneSided sign
  cases sign with
  | not =>
      refine ⟨'.', ['N', 'O', 'T', '.', ' '] ++ c :: cs, rfl, ?_, by decide,
        fun gs vs loose rest => ?_⟩
      · simpa using inLine
      · exact Scans.word (lexes _) (.blank (scans gs vs loose rest))
  | neg =>
      refine ⟨'-', c :: cs, rfl, ?_, by decide, fun gs vs loose rest => ?_⟩
      · simpa using inLine
      · exact Scans.word (lexes _) (scans gs vs loose rest)
  | pos =>
      refine ⟨'+', c :: cs, rfl, ?_, by decide, fun gs vs loose rest => ?_⟩
      · simpa using inLine
      · exact Scans.word (lexes _) (scans gs vs loose rest)

theorem Writes.twoSided {s t : Text} {us ws : List Lexed} (left : Writes s us) (right : Writes t ws)
    (sign : TwoSided level kind op) :
    Writes (s ++ " " ++ op.spelling ++ " " ++ t) (us ++ ⟨kind, op.spelling, []⟩ :: ws) := by
  obtain ⟨c, cs, rfl, inLine, first, scans⟩ := left
  obtain ⟨d, ds, rfl, inLine', first', scans'⟩ := right
  have blank : ofString " " = ofChars [' '] := rfl
  have plain : '\r' ∉ op.spelling.toList := by cases sign <;> decide
  have spelling : ofString op.spelling = ofChars op.spelling.toList := by cases sign <;> rfl
  refine ⟨c, cs ++ ' ' :: (op.spelling.toList ++ ' ' :: d :: ds), ?_, ?_, first,
    fun gs vs loose rest => ?_⟩
  · simp [spelling, blank, ofChars]
  · simp at inLine inLine' ⊢
    exact ⟨inLine.1, inLine.2, plain, inLine'⟩
  · have behind := scans' gs vs loose rest
    have word := Scans.word (lexes_twoSided sign _) (.blank behind)
    have whole := scans _ _ (loose_blank _) (.blank word)
    rw [Glyph.text_plain, ← spelling] at whole
    simpa using whole

end Scanner

end PrgScript
