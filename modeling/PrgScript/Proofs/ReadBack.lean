import PrgScript.Proofs.Inside
import PrgScript.Proofs.Source
import PrgScript.Proofs.Statement

/-!
# Expressions read back

Printing an expression and reading the text gives the expression again, its lines apart.
Three facts make this up. A tree that was read is of a special shape, `Readable`: it has
only what tokens can say, and no two string literals are left to join. The text of such a
tree is scanned as its lexemes. And the lexemes of such a tree are an expression of it: the
printer sets parentheses by a number for each operator, the grammar has a level for each,
and `Level.within` matches the two.
-/

namespace PrgScript

open Text Grammar Step
open Read (folding)

def Expr.unlined : Expr → Expr
  | .number value _ => .number value 0
  | .string value _ => .string value 0
  | .logical value _ => .logical value 0
  | .ident name _ => .ident name 0
  | .unary op operand _ => .unary op operand.unlined 0
  | .binary op left right _ => .binary op left.unlined right.unlined 0
  | .missing => .missing
  | .malformed kind _ => .malformed kind 0

/-! ### Trees that are read -/

/-- The trees that reading an expression gives: its numbers are finite and not negative, its
strings hold characters, its names are no reserved words, and no two strings are left to join. -/
inductive Expr.Readable : Expr → Prop
  | number {m : Nat} {e : Int} (finite : Number.IsFinite m e) (line : Nat) :
      Readable (.number (Number.ofMagnitude false (Number.magnitude m e)) line)
  | string (cs : List Char) (line : Nat) : Readable (.string (ofChars cs) line)
  | logical (value : Bool) (line : Nat) : Readable (.logical value line)
  | ident {name : Text} (isName : IsName name) (line : Nat) : Readable (.ident name line)
  | unary {level : Level} {kind : Kind} {op : Op} {x : Expr} (sign : OneSided level kind op)
      (operand : Readable x) (line : Nat) : Readable (.unary op x line)
  | binary {level : Level} {kind : Kind} {op : Op} {x y : Expr} (sign : TwoSided level kind op)
      (left : Readable x) (right : Readable y) (line : Nat)
      (apart : folding op x y line = .binary op x y line) : Readable (.binary op x y line)

theorem Read.folding_cases (op : Op) (x y : Expr) (line : Nat) :
    (∃ s t k l, op = .add ∧ x = .string s k ∧ y = .string t l ∧
        folding op x y line = .string (s ++ t) line) ∨
      folding op x y line = .binary op x y line := by
  unfold folding
  split
  · exact .inl ⟨_, _, _, _, rfl, rfl, rfl, rfl⟩
  · exact .inr rfl

theorem Expr.readable_of_expression {level : Level} {toks : List Token} {e : Expr}
    (written : ∀ tok ∈ toks, tok.Written) (h : Expression folding level toks e) : e.Readable := by
  induction h with
  | number kind reads =>
      have numeral := (written _ List.mem_cons_self).numeral kind
      obtain ⟨m, e, finite, rfl⟩ := Number.isFinite_of_read numeral reads
      exact .number finite _
  | string kind =>
      obtain ⟨cs, same⟩ := (written _ List.mem_cons_self).content kind
      rw [same]
      exact .string cs _
  | logical kind => exact .logical _ _
  | name kind => exact .ident ((written _ List.mem_cons_self).name kind) _
  | parens _ _ _ ih =>
      apply ih
      intro tok mem
      exact written tok (List.mem_cons_of_mem _ (List.mem_append_left _ mem))
  | oneSided sign _ ih =>
      exact .unary sign (ih fun tok mem => written tok (List.mem_cons_of_mem _ mem)) _
  | @twoSided level tok op xs ys x y _ sign _ ihLeft ihRight =>
      have left := ihLeft fun tok mem => written tok (List.mem_append_left _ mem)
      have right := ihRight fun tok mem =>
        written tok (List.mem_append_right _ (List.mem_cons_of_mem _ mem))
      rcases Read.folding_cases op x y tok.line with ⟨s, t, k, l, -, rfl, rfl, same⟩ | same
      · rw [same]
        cases left with
        | string cs =>
            cases right with
            | string ds =>
                rw [← ofChars_append]
                exact .string _ _
      · rw [same]
        exact .binary sign left right _ same
  | tighter _ _ ih => exact ih written

/-! ### Reading the lexemes of a tree -/

namespace Grammar

/-- The level of the expressions that take no parentheses inside an operator that binds with a
precedence. -/
def Level.within : Nat → Level
  | 0 | 1 => .disjunction
  | 2 => .conjunction
  | 3 => .negation
  | 4 => .comparison
  | 5 => .sum
  | 6 => .product
  | 7 => .sign
  | _ => .primary

theorem Level.within_succ (n : Nat) :
    within (n + 1) = within n ∨ within n ≠ .primary ∧ within (n + 1) = (within n).tighter := by
  match n with
  | 0 => exact .inl rfl
  | 1 | 2 | 3 | 4 | 5 | 6 | 7 => exact .inr ⟨by decide, rfl⟩
  | n + 8 => exact .inl rfl

theorem TwoSided.within {level : Level} {kind : Kind} {op : Op} (h : TwoSided level kind op) :
    level = Level.within op.precedence ∧ level.tighter = Level.within (op.precedence + 1) ∧
      kind = op.kind := by
  cases h <;> exact ⟨rfl, rfl, rfl⟩

theorem OneSided.within {level : Level} {kind : Kind} {op : Op} (h : OneSided level kind op) :
    level = Level.within op.precedence ∧ level.tighter = Level.within (op.precedence + 1) ∧
      kind = op.kind := by
  cases h <;> exact ⟨rfl, rfl, rfl⟩

/-- An expression may stand wherever operators bind less tightly. -/
theorem Expression.loosen {combine : Read.Combine} {m n : Nat} (le : m ≤ n) {toks : List Token}
    {e : Expr} (h : Expression combine (Level.within n) toks e) :
    Expression combine (Level.within m) toks e := by
  induction le with
  | refl => exact h
  | @step n le ih =>
      apply ih
      rcases Level.within_succ n with same | ⟨higher, same⟩
      · rwa [same] at h
      · rw [same] at h
        exact .tighter higher h

end Grammar

namespace Expr

/-- Tokens of the lexemes are an expression of the tree, its lines apart. -/
def Derives (outer : Nat) (ws : List Lexed) (e : Expr) : Prop :=
  ∀ toks : List Token, toks.map Token.lexed = ws →
    ∃ e', Expression folding (Level.within outer) toks e' ∧ e'.unlined = e.unlined

theorem Derives.primary {outer : Nat} {w : Lexed} {e : Expr}
    (h : ∀ tok : Token, tok.lexed = w →
      ∃ e', Expression folding .primary [tok] e' ∧ e'.unlined = e.unlined) :
    Derives outer [w] e := by
  intro toks same
  obtain ⟨tok, none, rfl, lexed, ending⟩ := List.map_eq_cons_iff.1 same
  obtain rfl := List.map_eq_nil_iff.1 ending
  obtain ⟨e', derived, unlined⟩ := h tok lexed
  exact ⟨e', Expression.loosen (n := outer + 8) (Nat.le_add_right outer 8) derived, unlined⟩

/-- Parentheses where the operator binds less tightly than the one around it. -/
theorem Derives.enclosed {inner outer : Nat} {ws : List Lexed} {e : Expr}
    (h : Derives inner ws e) : Derives outer (enclosed (inner < outer) ws) e := by
  intro toks same
  by_cases need : inner < outer
  · rw [Expr.enclosed, if_pos (decide_eq_true need)] at same
    obtain ⟨opening, more, rfl, opens, behind⟩ := List.map_eq_cons_iff.1 same
    obtain ⟨inside, last, rfl, within, after⟩ := List.map_eq_append_iff.1 behind
    obtain ⟨closing, none, rfl, closes, ending⟩ := List.map_eq_cons_iff.1 after
    obtain rfl := List.map_eq_nil_iff.1 ending
    obtain ⟨e', derived, unlined⟩ := h inside within
    have whole : Expression folding .primary (opening :: (inside ++ [closing])) e' :=
      .parens (congrArg Lexed.kind opens) (derived.loosen (Nat.zero_le inner))
        (congrArg Lexed.kind closes)
    refine ⟨e', ?_, unlined⟩
    exact Expression.loosen (n := outer + 8) (Nat.le_add_right outer 8) whole
  · rw [Expr.enclosed, if_neg (by simpa using need)] at same
    obtain ⟨e', derived, unlined⟩ := h toks same
    exact ⟨e', derived.loosen (Nat.le_of_not_lt need), unlined⟩

theorem string_of_unlined {e : Expr} {s : Text} {k : Nat} (h : e.unlined = .string s k) :
    ∃ l, e = .string s l := by
  cases e with
  | string value line =>
      cases h
      exact ⟨line, rfl⟩
  | number | logical | ident | unary | binary | missing | malformed => cases h

/-- Whether two operands are joined does not depend on the lines. -/
theorem folding_of_unlined {op : Op} {x y x' y' : Expr} {line : Nat}
    (apart : folding op x y line = .binary op x y line) (left : x'.unlined = x.unlined)
    (right : y'.unlined = y.unlined) (line' : Nat) :
    folding op x' y' line' = .binary op x' y' line' := by
  rcases Read.folding_cases op x' y' line' with ⟨s, t, k, l, rfl, rfl, rfl, -⟩ | same
  · obtain ⟨i, rfl⟩ := string_of_unlined left.symm
    obtain ⟨j, rfl⟩ := string_of_unlined right.symm
    cases apart
  · exact same

/-- The lexemes of a tree that was read are an expression of it again. -/
theorem Readable.derives {e : Expr} (h : e.Readable) (outer : Nat) :
    Derives outer (e.words outer) e := by
  induction h generalizing outer with
  | @number m e finite line =>
      refine .primary fun tok lexed => ⟨_, .number (congrArg Lexed.kind lexed) ?_, rfl⟩
      rw [show tok.text = _ from congrArg Lexed.text lexed, Number.read_format finite]
  | string cs line =>
      refine .primary fun tok lexed => ⟨_, .string (congrArg Lexed.kind lexed), ?_⟩
      rw [show tok.value = _ from congrArg Lexed.value lexed]
      rfl
  | logical value line =>
      refine .primary fun tok lexed => ⟨_, .logical (congrArg Lexed.kind lexed), ?_⟩
      rw [show tok.value = _ from congrArg Lexed.value lexed]
      cases value <;> rfl
  | ident isName line =>
      refine .primary fun tok lexed => ⟨_, .name (congrArg Lexed.kind lexed), ?_⟩
      rw [show tok.text = _ from congrArg Lexed.text lexed]
      rfl
  | @unary level kind op x sign _ line ih =>
      obtain ⟨own, operand, kind⟩ := sign.within
      apply Derives.enclosed
      intro toks same
      obtain ⟨tok, more, rfl, lexed, behind⟩ := List.map_eq_cons_iff.1 same
      obtain ⟨x', derived, unlined⟩ := ih (op.precedence + 1) more behind
      rw [← own]
      rw [← operand] at derived
      have sign : OneSided level tok.kind op := by
        rw [show tok.kind = _ from congrArg Lexed.kind lexed, ← kind]
        exact sign
      refine ⟨_, .oneSided sign (.tighter sign.higher derived), ?_⟩
      rw [Expr.unlined, unlined, Expr.unlined]
  | @binary level kind op x y sign _ _ line apart ihLeft ihRight =>
      obtain ⟨own, operand, kind⟩ := sign.within
      apply Derives.enclosed
      intro toks same
      obtain ⟨xs, more, rfl, before, behind⟩ := List.map_eq_append_iff.1 same
      obtain ⟨tok, ys, rfl, lexed, behind⟩ := List.map_eq_cons_iff.1 behind
      obtain ⟨x', left, unlinedLeft⟩ := ihLeft op.precedence xs before
      obtain ⟨y', right, unlinedRight⟩ := ihRight (op.precedence + 1) ys behind
      rw [← own] at left ⊢
      rw [← operand] at right
      have sign : TwoSided level tok.kind op := by
        rw [show tok.kind = _ from congrArg Lexed.kind lexed, ← kind]
        exact sign
      have whole := Expression.twoSided left sign right
      rw [folding_of_unlined apart unlinedLeft unlinedRight] at whole
      refine ⟨_, whole, ?_⟩
      rw [Expr.unlined, unlinedLeft, unlinedRight, Expr.unlined]

end Expr

/-! ### Scanning the text of a tree -/

namespace Expr

theorem Readable.writes {e : Expr} (h : e.Readable) (outer : Nat) :
    Scanner.Writes (e.sourceIn outer) (e.words outer) := by
  induction h generalizing outer with
  | number finite line =>
      obtain ⟨x, spells, -⟩ := Number.format_spells finite
      exact Scanner.writes_number spells
  | string cs line => exact Scanner.writes_string cs
  | logical value line => exact Scanner.writes_logical value
  | ident isName line => exact Scanner.writes_name isName
  | @unary level kind op x sign _ line ih =>
      have operand := (ih (op.precedence + 1)).oneSided sign
      rw [sign.within.2.2] at operand
      exact operand.enclosed _
  | @binary level kind op x y sign _ _ line _ ihLeft ihRight =>
      have operands := (ihLeft op.precedence).twoSided (ihRight (op.precedence + 1)) sign
      rw [sign.within.2.2] at operands
      exact operands.enclosed _

/-- The text of a tree that was read is scanned as the lexemes of the tree. -/
theorem Readable.scans {e : Expr} (h : e.Readable) {file : File}
    (content : file.content = e.source) :
    ∃ toks eof, TokenStream.ofFile file .dbase = ⟨toks, .eof eof⟩ ∧
      toks.map Token.lexed = e.words 0 := by
  obtain ⟨c, cs, same, inLine, -, scans⟩ := h.writes 0
  have glyphs : Glyph.ofText file.content = (c :: cs).map Glyph.plain ++ [] := by
    have front := Glyph.ofText_ofChars_append inLine []
    rwa [List.append_nil, ← same, ← source, ← content] at front
  have whole := scans [] [] (fun g front => by cases front) .nil
  rw [← glyphs, List.append_nil] at whole
  obtain ⟨toks, eof, yields, lexed⟩ := whole.yields file 0 {}
  exact ⟨toks, eof, TokenStream.ofFile_eq_iff.2 yields, lexed⟩

end Expr

/-- Printing an expression is undone by reading it. Let `e` be read at the front of a line of
scanned tokens. Its listing and its text in a script are the same print but for the spelling of
operators and strings, and a file with the text in a script is one line, whose tokens are all read
as one expression: `e` again, its lines apart. -/
theorem expression_reads_back {line : Line} {n : Int} {e : Expr} {r : Reading}
    (scanned : ∀ tok ∈ line.tokens, ∃ file, tok ∈ (TokenStream.ofFile file .dbase).tokens)
    (ends : line.ending.Closes) (returned : outcome Read.expression ⟨line, n⟩ = (.ok e, r))
    (file : File) (content : file.content = e.source) :
    e.text = e.spelled (fun op => op.text) Text.quote 0 ∧
      e.source = e.spelled (fun op => op.spelling) stringLiteral 0 ∧
      ∃ toks eof e', Line.ofStream (.ofFile file .dbase) = [⟨toks, .token eof⟩] ∧
        (∀ m, outcome Read.expression ⟨⟨toks, .token eof⟩, m⟩ =
          (.ok e', ⟨⟨[], .token eof⟩, parensAfter m toks⟩)) ∧
        e'.unlined = e.unlined := by
  obtain ⟨used, rest, same, -, derived⟩ := Read.reads_expression ends returned
  have written : ∀ tok ∈ used, tok.Written := by
    intro tok mem
    obtain ⟨origin, mem⟩ := scanned tok (same ▸ List.mem_append_left rest mem)
    exact TokenStream.written_of_mem mem
  have readable := Expr.readable_of_expression written derived
  obtain ⟨toks, eof, stream, lexed⟩ := readable.scans content
  obtain ⟨e', again, unlined⟩ := readable.derives 0 toks lexed
  refine ⟨Expr.textIn_eq_spelled 0 e, rfl, toks, eof, e', ?_, ?_, unlined⟩
  · have inside : ∀ tok ∈ toks, tok.kind ≠ .newline := by
      intro tok mem newline
      have inner := (Inside.expression again).inner tok mem
      rw [newline] at inner
      cases inner
    rw [Line.ofStream, stream]
    exact Line.ofTokens_last inside
  · intro m
    have last : eof.kind.goesOn = false := by
      rw [TokenStream.kind_of_ending (congrArg TokenStream.ending stream)]
      rfl
    have read := Read.takes_expression [] eof m again last
    rwa [List.append_nil] at read

/-- A sign, a fraction without its zero, joined strings, needless parentheses, logical operators
in small letters and no blanks: the print is read back. -/
theorem expression_reads_back_mixed :
    let file : File := ⟨0, "demo.prg", "-x*.50<>('a'+\"\\n\").or..not.(y)", 0⟩
    let copy : File := ⟨1, "copy.prg", "-x * 0.5 <> \"a\\n\" .OR. .NOT. y", 0⟩
    let line : Line := ⟨(TokenStream.ofFile file .dbase).tokens, .token { kind := .eof }⟩
    ∃ e r, outcome Read.expression ⟨line, 0⟩ = (.ok e, r) ∧ copy.content = e.source ∧
      ∃ toks eof e', Line.ofStream (.ofFile copy .dbase) = [⟨toks, .token eof⟩] ∧
        (∀ m, outcome Read.expression ⟨⟨toks, .token eof⟩, m⟩ =
          (.ok e', ⟨⟨[], .token eof⟩, parensAfter m toks⟩)) ∧
        e'.unlined = e.unlined := by
  intro file copy line
  have printed : (outcome Read.expression ⟨line, 0⟩).1.toOption.map Expr.source =
      some copy.content := by
    decide +kernel
  rcases read : outcome Read.expression ⟨line, 0⟩ with ⟨_ | e, r⟩
  · rw [read] at printed
    cases printed
  · rw [read] at printed
    have source : copy.content = e.source := (Option.some.inj printed).symm
    refine ⟨e, r, rfl, source, ?_⟩
    exact (expression_reads_back (fun tok mem => ⟨file, mem⟩) (.token rfl) read copy source).2.2

end PrgScript
