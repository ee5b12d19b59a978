import PrgScript.Proofs.Phrase

/-!
# Inside a line

Three things hold of the tokens of every line, whatever its statement: none of
them ends a line, the parentheses match, and no name stands right before an
opening parenthesis. `Inside` collects the three, and the rules of expressions
and of lines hand them on together.

The count of open parentheses is a number of one word, so it would wrap around
in a line of very many of them; below that size it comes back to what it was.
-/

namespace PrgScript

open Grammar

/-- No name stands right before an opening parenthesis. -/
def NoCall (toks : List Token) : Prop :=
  ∀ before name paren after, toks = before ++ name :: paren :: after → name.kind = .ident →
    paren.kind ≠ .lParen

structure Inside (toks : List Token) : Prop where
  inner : ∀ tok ∈ toks, tok.kind.isEnd = false
  closes : ∀ n : Int, 0 ≤ n → n + toks.length < 2 ^ 63 → parensAfter n toks = n
  noCall : NoCall toks

namespace NoCall

variable {tok : Token} {xs ys : List Token}

theorem nil : NoCall [] := by
  intro before name paren after same
  simp at same

theorem single (tok : Token) : NoCall [tok] := by
  intro before name paren after same
  have length := congrArg List.length same
  simp only [List.length_cons, List.length_nil, List.length_append] at length
  omega

theorem cons (other : tok.kind ≠ .ident) (rest : NoCall xs) : NoCall (tok :: xs) := by
  intro before name paren after same isName
  cases before with
  | nil =>
      obtain ⟨rfl, -⟩ := List.cons.inj same
      exact (other isName).elim
  | cons head before =>
      obtain ⟨-, rest'⟩ := List.cons.inj same
      exact rest before name paren after rest' isName

/-- Tokens with a separator between them that is neither of the two. -/
theorem append (first : NoCall xs) (other : tok.kind ≠ .ident) (other' : tok.kind ≠ .lParen)
    (rest : NoCall ys) : NoCall (xs ++ tok :: ys) := by
  induction xs with
  | nil => exact cons other rest
  | cons x xs ih =>
      intro before name paren after same isName
      cases before with
      | nil =>
          obtain ⟨rfl, tails⟩ := List.cons.inj same
          cases xs with
          | nil =>
              obtain ⟨rfl, -⟩ := List.cons.inj tails
              exact other'
          | cons x' xs =>
              obtain ⟨rfl, -⟩ := List.cons.inj tails
              exact first [] x x' xs rfl isName
      | cons head before =>
          obtain ⟨-, tails⟩ := List.cons.inj same
          refine ih ?_ before name paren after tails isName
          intro before name paren after same
          exact first (x :: before) name paren after (by rw [same]; rfl)

end NoCall

/-- A kind that is no name and no end, nor a parenthesis: a word, a sign, a literal. -/
def Kind.isWord (kind : Kind) : Bool := kind.isInner && kind != .ident

namespace Grammar

variable {level : Level} {kind : Kind} {op : Op}

theorem OneSided.isWord (h : OneSided level kind op) : kind.isWord = true := by
  cases h <;> rfl

theorem TwoSided.isWord (h : TwoSided level kind op) : kind.isWord = true := by
  cases h <;> rfl

theorem AssignSign.isWord (h : AssignSign kind) : kind.isWord = true := by
  cases h <;> rfl

theorem isWord_of_widget {widget : Widget} (known : Widget.ofKeyword? kind = some widget) :
    kind.isWord = true := by
  cases kind <;> simp [Widget.ofKeyword?] at known
  rfl

theorem isWord_of_isKeyword (h : kind.isKeyword = true) : kind.isWord = true := by
  cases kind <;> simp_all [Kind.isKeyword] <;> rfl

end Grammar

namespace Inside

variable {tok opening closing : Token} {kind : Kind} {xs ys : List Token}

theorem nil : Inside [] := ⟨by simp, fun _ _ _ => rfl, .nil⟩

theorem isEnd_of_isInner (h : kind.isInner = true) : kind.isEnd = false := by
  cases kind <;> simp_all [Kind.isInner, Kind.isEnd]

theorem name (same : tok.kind = .ident) : Inside [tok] where
  inner := by simp [same, Kind.isEnd]
  closes n _ _ := by simp [parensAfter_of_kind same rfl]
  noCall := .single tok

/-- Tokens with a word, a sign or a literal between them. -/
theorem append (first : Inside xs) (word : tok.kind.isWord = true) (rest : Inside ys) :
    Inside (xs ++ tok :: ys) := by
  simp only [Kind.isWord, Bool.and_eq_true, bne_iff_ne] at word
  obtain ⟨isInner, notName⟩ := word
  refine ⟨?_, fun n least most => ?_, first.noCall.append notName ?_ rest.noCall⟩
  · simp only [List.forall_mem_append, List.forall_mem_cons]
    exact ⟨first.inner, isEnd_of_isInner isInner, rest.inner⟩
  · simp only [List.length_append, List.length_cons] at most
    rw [parensAfter_append, first.closes n least (by omega), parensAfter_inner isInner,
      rest.closes n least (by omega)]
  · intro isParen
    simp [isParen, Kind.isInner] at isInner

/-- A word, a sign or a literal before other tokens. -/
theorem cons (word : tok.kind.isWord = true) (rest : Inside xs) : Inside (tok :: xs) :=
  nil.append word rest

theorem word (same : tok.kind = kind) (isWord : kind.isWord = true) (rest : Inside xs) :
    Inside (tok :: xs) :=
  cons (same ▸ isWord) rest

theorem between (first : Inside xs) (same : tok.kind = kind) (isWord : kind.isWord = true)
    (rest : Inside ys) : Inside (xs ++ tok :: ys) :=
  first.append (same ▸ isWord) rest

/-- Between a pair of parentheses the count is one higher. -/
theorem parens (opens : opening.kind = .lParen) (closes : closing.kind = .rParen)
    (inside : Inside xs) (rest : Inside ys) : Inside (opening :: (xs ++ closing :: ys)) := by
  refine ⟨?_, fun n least most => ?_, ?_⟩
  · simp only [List.forall_mem_append, List.forall_mem_cons, opens, closes]
    exact ⟨rfl, inside.inner, rfl, rest.inner⟩
  · simp only [List.length_cons, List.length_append] at most
    have up : openedParens n = n + 1 := Number.wrap_eq_self (by omega) (by omega)
    have down : closedParens (n + 1) = n := by
      have positive : n + 1 ≠ 0 := by omega
      rw [closedParens, if_neg positive, Number.wrap_eq_self (by omega) (by omega)]
      omega
    rw [parensAfter_open opens, up, parensAfter_append,
      inside.closes (n + 1) (by omega) (by omega), parensAfter_close closes, down,
      rest.closes n least (by omega)]
  · have notName : opening.kind ≠ .ident := by simp [opens]
    exact .cons notName (inside.noCall.append (by simp [closes]) (by simp [closes]) rest.noCall)

theorem expression {combine : Read.Combine} {level : Level} {toks : List Token} {e : Expr}
    (h : Expression combine level toks e) : Inside toks := by
  induction h with
  | number same | string same | logical same => exact word same rfl nil
  | name same => exact name same
  | parens opens _ closes ih => exact ih.parens opens closes nil
  | oneSided sign _ ih => exact cons sign.isWord ih
  | twoSided _ sign _ ihLeft ihRight => exact ihLeft.append sign.isWord ihRight
  | tighter _ _ ih => exact ih

theorem listed {α : Type} {Part : List Token → α → Prop} {toks : List Token} {as : List α}
    (h : Listed Part toks as) (part : ∀ {toks a}, Part toks a → Inside toks) : Inside toks := by
  induction h with
  | one first => exact part first
  | more first separator _ ih => exact (part first).between separator rfl ih

theorem names {toks names : List Token} (h : Listed Name toks names) : Inside toks := by
  refine listed h fun name => ?_
  cases name with
  | mk same => exact .name same

theorem colorName {toks : List Token} {c : Color} (h : ColorName toks c) : Inside toks := by
  cases h with
  | plain same _ => exact name same
  | bright same _ sign => exact (name same).between sign rfl nil

end Inside

/-- What holds inside every line. -/
theorem Grammar.Phrase.inside {toks : List Token} {c : Command} (h : Phrase toks c) :
    Inside toks := by
  cases h with
  | parameters same list | declare same list => exact .word same rfl (.names list)
  | assign same assigns value => exact (Inside.name same).append assigns.isWord (.expression value)
  | beginIf same condition => exact .word same rfl (.expression condition)
  | elseWord same | endIf same | endFor same | endWhile same | finish same | endClass same =>
      exact .word same rfl .nil
  | beginFor same name assigns first toWord last =>
      have bounds := (Inside.expression first).between toWord rfl (.expression last)
      exact .word same rfl ((Inside.name name).append assigns.isWord bounds)
  | beginForStep same name assigns first toWord last stepWord stride =>
      have stepped := (Inside.expression last).between stepWord rfl (.expression stride)
      have bounds := (Inside.expression first).between toWord rfl stepped
      exact .word same rfl ((Inside.name name).append assigns.isWord bounds)
  | endForNamed same name => exact .word same rfl (.name name)
  | beginWhile same same' condition =>
      exact .word same rfl (.word same' rfl (.expression condition))
  | resetColor same colorWord toWord =>
      exact .word same rfl (.word colorWord rfl (.word toWord rfl .nil))
  | setColor same colorWord toWord foreground =>
      exact .word same rfl (.word colorWord rfl (.word toWord rfl (.colorName foreground)))
  | setColors same colorWord toWord foreground separator background =>
      have colors := (Inside.colorName foreground).between separator rfl (.colorName background)
      exact .word same rfl (.word colorWord rfl (.word toWord rfl colors))
  | say same first separator second sayWord third =>
      have shown := (Inside.expression second).between sayWord rfl (.expression third)
      exact .word same rfl ((Inside.expression first).between separator rfl shown)
  | printNothing sign =>
      obtain ⟨same, -⟩ | ⟨same, -⟩ := sign.cases <;> exact .word same rfl .nil
  | print sign list =>
      have values := Inside.listed list Inside.expression
      obtain ⟨same, -⟩ | ⟨same, -⟩ := sign.cases <;> exact .word same rfl values
  | @beginClass _ _ _ _ parens last _ _ same nameKind ofWord known empty ends =>
      have ended : Inside last := by
        cases ends with
        | later => exact .nil
        | here word => exact .word word rfl .nil
      have closed : Inside (parens ++ last) := by
        cases empty with
        | none => exact ended
        | @pair opening closing opens closes =>
            have pair : Inside (opening :: ([] ++ closing :: last)) :=
              .parens opens closes .nil ended
            exact pair
      have based := Inside.cons (isWord_of_widget known) closed
      exact .word same rfl ((Inside.name nameKind).between ofWord rfl based)
  | property same point nameKind assigns value =>
      have assigned := Inside.expression value
      refine .word same rfl (.word point rfl ?_)
      rcases nameKind with isName | isKeyword
      · exact (Inside.name isName).append assigns.isWord assigned
      · exact .cons (isWord_of_isKeyword isKeyword) (.cons assigns.isWord assigned)

end PrgScript
