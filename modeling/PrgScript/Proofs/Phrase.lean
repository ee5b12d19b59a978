import PrgScript.Proofs.Expression
import PrgScript.Script.Command

/-!
# The grammar of a line

`Phrase` says which tokens make up one statement line and which command they
give, rule by rule and without regard to the lines around it. Words, signs and
separators are told apart by their kinds alone, so an identifier never stands
where a reserved word does.

The main results are that a phrase is read as its command up to the end of the
line, `outcome_command`, and that nothing else is, `phrase_of_outcome`.
-/

namespace PrgScript

open Step Read

namespace Grammar

/-- One or more parts, separated by commas. -/
inductive Listed {α : Type} (Part : List Token → α → Prop) : List Token → List α → Prop
  | one {toks : List Token} {a : α} (part : Part toks a) : Listed Part toks [a]
  | more {toks toks' : List Token} {a : α} {as : List α} {comma : Token} (part : Part toks a)
      (separator : comma.kind = .comma) (rest : Listed Part toks' as) :
      Listed Part (toks ++ comma :: toks') (a :: as)

/-- A list starts like its first part. -/
theorem Listed.starts {α : Type} {Part : List Token → α → Prop} {P : Token → Prop}
    {toks : List Token} {as : List α} (h : Listed Part toks as)
    (part : ∀ {toks a}, Part toks a → ∃ tok more, toks = tok :: more ∧ P tok) :
    ∃ tok more, toks = tok :: more ∧ P tok := by
  cases h with
  | one h => exact part h
  | more h _ _ =>
      obtain ⟨tok, more, rfl, starts⟩ := part h
      exact ⟨tok, _, rfl, starts⟩

inductive Name : List Token → Token → Prop
  | mk {tok : Token} (kind : tok.kind = .ident) : Name [tok] tok

/-- A value: an expression of the weakest level, with neighbouring string literals joined. -/
abbrev Value : List Token → Expr → Prop := Expression folding .disjunction

inductive AssignSign : Kind → Prop
  | eq : AssignSign .eq
  | colonAssign : AssignSign .colonAssign

theorem AssignSign.iff {kind : Kind} : AssignSign kind ↔ kind = .eq ∨ kind = .colonAssign := by
  constructor
  · intro h
    cases h <;> simp
  · rintro (rfl | rfl) <;> constructor

theorem AssignSign.isInner {kind : Kind} (h : AssignSign kind) : kind.isInner = true := by
  cases h <;> rfl

/-- The name of a colour, perhaps made bright by a plus sign. -/
inductive ColorName : List Token → Color → Prop
  | plain {tok : Token} {c : Color} (kind : tok.kind = .ident)
      (known : Color.ofName? tok.text = some c) : ColorName [tok] c
  | bright {tok plus : Token} {c : Color} (kind : tok.kind = .ident)
      (known : Color.ofName? tok.text = some c) (sign : plus.kind = .plus) :
      ColorName [tok, plus] { c with bright := true }

theorem ColorName.starts {toks : List Token} {c : Color} (h : ColorName toks c) :
    ∃ tok more, toks = tok :: more ∧ tok.kind = .ident := by
  cases h with
  | plain kind _ => exact ⟨_, _, rfl, kind⟩
  | bright kind _ _ => exact ⟨_, _, rfl, kind⟩

/-- The signs of a print statement; the first one ends its output with a line feed. -/
inductive PrintSign : Kind → Bool → Prop
  | line : PrintSign .question true
  | part : PrintSign .questionQuestion false

theorem PrintSign.cases {kind : Kind} {newline : Bool} (h : PrintSign kind newline) :
    kind = .question ∧ newline = true ∨ kind = .questionQuestion ∧ newline = false := by
  cases h <;> simp

/-- The parentheses that may follow the kind of object in the head of a class. -/
inductive EmptyParens : List Token → Prop
  | none : EmptyParens []
  | pair {opening closing : Token} (opens : opening.kind = .lParen)
      (closes : closing.kind = .rParen) : EmptyParens [opening, closing]

/-- The end of a class that may stand on the line of its head. -/
inductive ClassEnd : List Token → Bool → Prop
  | later : ClassEnd [] false
  | here {tok : Token} (word : tok.kind = .keyword .kwEndclass) : ClassEnd [tok] true

theorem isInner_of_widget {kind : Kind} {widget : Widget}
    (known : Widget.ofKeyword? kind = some widget) : kind.isInner = true := by
  cases kind <;> simp [Widget.ofKeyword?] at known
  rfl

theorem isInner_of_isName {kind : Kind} (h : kind = .ident ∨ kind.isKeyword = true) :
    kind.isInner = true := by
  cases kind <;> simp_all [Kind.isKeyword, Kind.isInner]

/-- The statement lines: their tokens and their commands. -/
inductive Phrase : List Token → Command → Prop
  | parameters {word : Token} {toks names : List Token}
      (kind : word.kind = .keyword .kwParameter) (list : Listed Name toks names) :
      Phrase (word :: toks) (.parameters names)
  | declare {word : Token} {toks names : List Token} (kind : word.kind = .keyword .kwLocal)
      (list : Listed Name toks names) : Phrase (word :: toks) (.declare names)
  | assign {name sign : Token} {toks : List Token} {e : Expr} (kind : name.kind = .ident)
      (assigns : AssignSign sign.kind) (value : Value toks e) :
      Phrase (name :: sign :: toks) (.assign name e)
  | beginIf {word : Token} {toks : List Token} {e : Expr} (kind : word.kind = .keyword .kwIf)
      (condition : Value toks e) : Phrase (word :: toks) (.beginIf e)
  | elseWord {word : Token} (kind : word.kind = .keyword .kwElse) : Phrase [word] .elseWord
  | endIf {word : Token} (kind : word.kind = .keyword .kwEndif) : Phrase [word] .endIf
  | beginFor {word counter sign to_ : Token} {xs ys : List Token} {start limit : Expr}
      (kind : word.kind = .keyword .kwFor) (name : counter.kind = .ident)
      (assigns : AssignSign sign.kind) (first : Value xs start)
      (toWord : to_.kind = .keyword .kwTo) (last : Value ys limit) :
      Phrase (word :: counter :: sign :: (xs ++ to_ :: ys)) (.beginFor counter start limit none)
  | beginForStep {word counter sign to_ by_ : Token} {xs ys zs : List Token}
      {start limit step : Expr} (kind : word.kind = .keyword .kwFor)
      (name : counter.kind = .ident) (assigns : AssignSign sign.kind) (first : Value xs start)
      (toWord : to_.kind = .keyword .kwTo) (last : Value ys limit)
      (stepWord : by_.kind = .keyword .kwStep) (stride : Value zs step) :
      Phrase (word :: counter :: sign :: (xs ++ to_ :: (ys ++ by_ :: zs)))
        (.beginFor counter start limit (some step))
  | endFor {word : Token} (kind : word.kind = .keyword .kwNext) : Phrase [word] (.endFor none)
  | endForNamed {word counter : Token} (kind : word.kind = .keyword .kwNext)
      (name : counter.kind = .ident) : Phrase [word, counter] (.endFor (some counter))
  | beginWhile {word word' : Token} {toks : List Token} {e : Expr}
      (kind : word.kind = .keyword .kwDo) (kind' : word'.kind = .keyword .kwWhile)
      (condition : Value toks e) : Phrase (word :: word' :: toks) (.beginWhile e)
  | endWhile {word : Token} (kind : word.kind = .keyword .kwEnddo) : Phrase [word] .endWhile
  | finish {word : Token} (kind : word.kind = .keyword .kwReturn) : Phrase [word] .finish
  | resetColor {set color to_ : Token} (kind : set.kind = .keyword .kwSet)
      (colorWord : color.kind = .keyword .kwColor) (toWord : to_.kind = .keyword .kwTo) :
      Phrase [set, color, to_] (.setColor .reset)
  | setColor {set color to_ : Token} {toks : List Token} {c : Color}
      (kind : set.kind = .keyword .kwSet) (colorWord : color.kind = .keyword .kwColor)
      (toWord : to_.kind = .keyword .kwTo) (foreground : ColorName toks c) :
      Phrase (set :: color :: to_ :: toks) (.setColor (.choose c none))
  | setColors {set color to_ slash : Token} {toks toks' : List Token} {c c' : Color}
      (kind : set.kind = .keyword .kwSet) (colorWord : color.kind = .keyword .kwColor)
      (toWord : to_.kind = .keyword .kwTo) (foreground : ColorName toks c)
      (separator : slash.kind = .slash) (background : ColorName toks' c') :
      Phrase (set :: color :: to_ :: (toks ++ slash :: toks')) (.setColor (.choose c (some c')))
  | say {sign comma word : Token} {xs ys zs : List Token} {row col value : Expr}
      (kind : sign.kind = .atSign) (first : Value xs row) (separator : comma.kind = .comma)
      (second : Value ys col) (sayWord : word.kind = .keyword .kwSay) (third : Value zs value) :
      Phrase (sign :: (xs ++ comma :: (ys ++ word :: zs))) (.say row col value)
  | printNothing {sign : Token} {newline : Bool} (kind : PrintSign sign.kind newline) :
      Phrase [sign] (.print [] newline)
  | print {sign : Token} {newline : Bool} {toks : List Token} {values : List Expr}
      (kind : PrintSign sign.kind newline) (list : Listed Value toks values) :
      Phrase (sign :: toks) (.print values newline)
  | beginClass {word name of_ base : Token} {parens last : List Token} {widget : Widget}
      {oneLine : Bool} (kind : word.kind = .keyword .kwClass) (nameKind : name.kind = .ident)
      (ofWord : of_.kind = .keyword .kwOf) (known : Widget.ofKeyword? base.kind = some widget)
      (empty : EmptyParens parens) (ends : ClassEnd last oneLine) :
      Phrase (word :: name :: of_ :: base :: (parens ++ last)) (.beginClass name widget oneLine)
  | property {word dot name sign : Token} {toks : List Token} {e : Expr}
      (kind : word.kind = .keyword .kwThis) (point : dot.kind = .dot)
      (nameKind : name.kind = .ident ∨ name.kind.isKeyword = true)
      (assigns : AssignSign sign.kind) (value : Value toks e) :
      Phrase (word :: dot :: name :: sign :: toks) (.property name e)
  | endClass {word : Token} (kind : word.kind = .keyword .kwEndclass) : Phrase [word] .endClass

end Grammar

/-! ### What the readers of parts accept -/

namespace Read

open Grammar

variable {tok : Token} {kind : Kind}

theorem reads_expect (inner : kind.isInner = true) (wanted : Wanted) :
    Reads (expect kind wanted) fun used _ => ∃ tok, used = [tok] ∧ tok.kind = kind := by
  refine .token (fun tok => ?_) fun tok _ same => same ▸ inner
  split
  next same => exact .pure ⟨rfl, same⟩
  next => exact .unexpected wanted tok

theorem reads_identifier (role : NameRole) : Reads (identifier role) Name := by
  have single : Reads (identifier role) fun used a =>
      ∃ tok, used = [tok] ∧ a = tok ∧ tok.kind = .ident := by
    refine .token (fun tok => ?_) fun tok _ h => by rw [h.2]; rfl
    split
    · exact .throw _
    split
    next same => exact .pure ⟨rfl, rfl, same⟩
    next => exact .unexpected _ tok
  refine single.mono ?_
  rintro used a ⟨tok, rfl, rfl, same⟩
  exact .mk same

theorem reads_assignSign (wanted : Wanted) :
    Reads (assignSign wanted) fun used _ => ∃ tok, used = [tok] ∧ AssignSign tok.kind := by
  refine .token (fun tok => ?_) fun tok _ sign => sign.isInner
  split
  next same => exact .pure ⟨rfl, AssignSign.iff.2 same⟩
  next => exact .unexpected wanted tok

theorem outcome_eat_cons (same : tok.kind = kind) (toks : List Token) (ending : LineEnd) (n : Int) :
    outcome (eat kind) ⟨⟨tok :: toks, ending⟩, n⟩ = (.ok true, ⟨⟨toks, ending⟩, n⟩) := by
  rw [eat, outcome_bind_of_ok (outcome_peek_cons ..)]
  simp only [same, if_true]
  rfl

theorem outcome_eat_front {rest : List Token} {stop : Token} (other : (front rest stop).kind ≠ kind)
    (n : Int) :
    outcome (eat kind) ⟨⟨rest, .token stop⟩, n⟩ = (.ok false, ⟨⟨rest, .token stop⟩, n⟩) := by
  rw [eat, outcome_bind_of_ok (outcome_peek_front ..)]
  simp only [other, if_false]
  rfl

theorem eat_inv (inside : kind.isEnd = false) {toks : List Token} {ending : LineEnd} {n : Int}
    {b : Bool} {r : Reading} (ends : ending.Closes)
    (ran : outcome (eat kind) ⟨⟨toks, ending⟩, n⟩ = (.ok b, r)) :
    b = true ∧ (∃ tok rest, toks = tok :: rest ∧ r = ⟨⟨rest, ending⟩, n⟩ ∧ tok.kind = kind) ∨
      b = false ∧ r = ⟨⟨toks, ending⟩, n⟩ := by
  obtain ⟨tok, _, peeked, ran⟩ := outcome_bind_eq_ok.1 ran
  cases toks with
  | nil =>
      cases ending with
      | error e => simp at peeked
      | token stop =>
          cases peeked
          have other : tok.kind ≠ kind := by
            rintro rfl
            simp [ends tok rfl] at inside
          simp only [other, if_false] at ran
          cases ran
          exact .inr ⟨rfl, rfl⟩
  | cons tok toks =>
      cases peeked
      split at ran
      next same =>
        cases ran
        exact .inl ⟨rfl, tok, toks, rfl, rfl, same⟩
      next =>
        cases ran
        exact .inr ⟨rfl, rfl⟩

theorem reads_eat (inner : kind.isInner = true) :
    Reads (eat kind) fun used b =>
      b = true ∧ (∃ tok, used = [tok] ∧ tok.kind = kind) ∨ b = false ∧ used = [] := by
  intro toks ending n b r ends ran
  have inside : kind.isEnd = false := by
    cases kind <;> first | rfl | cases inner
  obtain ⟨rfl, tok, rest, rfl, rfl, same⟩ | ⟨rfl, rfl⟩ := eat_inv inside ends ran
  · refine ⟨[tok], rest, rfl, ?_, .inl ⟨rfl, tok, rfl, same⟩⟩
    rw [parensAfter_inner (same ▸ inner), parensAfter_nil]
  · exact ⟨[], toks, rfl, rfl, .inr ⟨rfl, rfl⟩⟩

/-- Parts separated by commas, at most the given number. -/
def separated {α : Type} (part : Read α) : Nat → Read (List α)
  | 0 => return []
  | rounds + 1 => do
    let a ← part
    if ← eat .comma then return a :: (← separated part rounds) else return [a]

theorem identifiersWithin_eq (role : NameRole) (rounds : Nat) :
    identifiersWithin role rounds = separated (identifier role) rounds := by
  induction rounds with
  | zero => rfl
  | succ rounds ih => simp only [identifiersWithin, separated, ih]

theorem expressionsWithin_eq (rounds : Nat) :
    expressionsWithin rounds = separated expression rounds := by
  induction rounds with
  | zero => rfl
  | succ rounds ih => simp only [expressionsWithin, separated, ih]

/-- Each round but the last takes a comma, so as many rounds as there are tokens do. -/
theorem reads_separated {α : Type} {part : Read α} {R : List Token → α → Prop}
    (h : Reads part R) : Reads (do separated part (← bound)) (Listed R) := by
  suffices ∀ rounds toks ending n as r, LineEnd.Closes ending → toks.length < rounds →
      outcome (separated part rounds) ⟨⟨toks, ending⟩, n⟩ = (.ok as, r) →
      ∃ used rest, toks = used ++ rest ∧ r = ⟨⟨rest, ending⟩, parensAfter n used⟩ ∧
        Listed R used as by
    intro toks ending n as r ends ran
    rw [outcome_bind_of_ok (outcome_bound toks ending n)] at ran
    exact this _ toks ending n as r ends (Nat.lt_succ_self _) ran
  intro rounds
  induction rounds with
  | zero => intro toks ending n as r _ enough; omega
  | succ rounds ih =>
      intro toks ending n as r ends enough ran
      obtain ⟨a, r₁, ran₁, ran⟩ := outcome_bind_eq_ok.1 ran
      obtain ⟨used, toks, rfl, rfl, related⟩ := h ends ran₁
      obtain ⟨b, r₂, ran₂, ran⟩ := outcome_bind_eq_ok.1 ran
      obtain ⟨used₂, toks, rfl, rfl, ⟨rfl, comma, rfl, kind⟩ | ⟨rfl, rfl⟩⟩ :=
        reads_eat rfl ends ran₂
      · simp only [if_true] at ran
        obtain ⟨as', r₃, ran₃, ran⟩ := outcome_bind_eq_ok.1 ran
        cases ran
        obtain ⟨used₃, rest, rfl, rfl, related₃⟩ :=
          ih _ _ _ _ _ ends (by simp at enough; omega) ran₃
        refine ⟨used ++ comma :: used₃, rest, by simp, ?_, .more related kind related₃⟩
        simp [parensAfter_inner, kind, Kind.isInner]
      · cases ran
        exact ⟨used, toks, by simp, by simp, .one related⟩

/-! ### What the readers of statements accept -/

theorem reads_value : Reads expression Grammar.Value := reads_expression

theorem reads_word {word : Keyword} (wanted : Wanted) :
    Reads (discard (expect (.keyword word) wanted)) fun used _ =>
      ∃ tok, used = [tok] ∧ tok.kind = .keyword word :=
  (reads_expect rfl wanted).discard.mono fun _ _ ⟨_, h⟩ => h

theorem reads_forHead :
    Reads forHead fun used c => ∀ word, word.kind = .keyword .kwFor → Phrase (word :: used) c := by
  refine (reads_identifier _).bind fun counter _ => ?_
  rintro ⟨name⟩
  refine (reads_assignSign _).bind fun _ _ => ?_
  rintro ⟨sign, rfl, assigns⟩
  refine reads_value.bind fun start xs first => ?_
  refine (reads_word _).bind fun _ _ => ?_
  rintro ⟨to_, rfl, toWord⟩
  refine reads_value.bind fun limit ys last => ?_
  refine (reads_eat rfl).bind fun b _ => ?_
  rintro (⟨rfl, by_, rfl, stepWord⟩ | ⟨rfl, rfl⟩)
  · simp only [if_true]
    have stepped : Reads (some <$> expression) fun used step =>
        ∃ e, step = some e ∧ Grammar.Value used e :=
      reads_value.map fun _ e h => ⟨e, rfl, h⟩
    refine stepped.bind fun _ zs => ?_
    rintro ⟨step, rfl, stride⟩
    refine .pure fun word kind => ?_
    simpa using .beginForStep kind name assigns first toWord last stepWord stride
  · simp only [Bool.false_eq_true, if_false, pure_bind]
    refine .pure fun word kind => ?_
    simpa using .beginFor kind name assigns first toWord last

theorem reads_forEnd :
    Reads forEnd fun used c => ∀ word, word.kind = .keyword .kwNext → Phrase (word :: used) c := by
  refine .choose fun tok => ?_
  by_cases name : tok.kind = .ident
  · refine .inr ⟨by rw [name]; rfl, Pure.pure (.endFor (some tok)), fun _ _ _ => ?_,
      .pure fun word kind => .endForNamed kind name⟩
    simp only [name, if_true]
    rfl
  · refine .inl ?_
    simp only [name, if_false]
    exact .pure fun word kind => .endFor kind

theorem reads_whileHead :
    Reads whileHead fun used c =>
      ∀ word, word.kind = .keyword .kwDo → Phrase (word :: used) c := by
  refine (reads_word _).bind fun _ _ => ?_
  rintro ⟨word', rfl, kind'⟩
  exact reads_value.bind fun e toks condition =>
    .pure fun word kind => by simpa using .beginWhile kind kind' condition

theorem reads_color : Reads color ColorName := by
  unfold color
  refine (Reads.next (T := fun tok used c => tok.kind = .ident ∧ ColorName (tok :: used) c)
    (fun tok => ?_) fun tok used c h => by rw [h.1]; rfl).mono ?_
  · split
    · exact .unexpected _ tok
    next kind =>
      have kind : tok.kind = .ident := by simpa using kind
      split
      · exact .throw _
      next c known =>
        refine (reads_eat rfl).bind fun b _ => ?_
        rintro (⟨rfl, plus, rfl, sign⟩ | ⟨rfl, rfl⟩)
        · exact .pure ⟨kind, .bright kind known sign⟩
        · exact .pure ⟨kind, .plain kind known⟩
  · rintro used c ⟨tok, more, rfl, _, h⟩
    exact h

theorem reads_colorChoice :
    Reads colorChoice fun used c =>
      ∀ word, word.kind = .keyword .kwSet → Phrase (word :: used) c := by
  refine (reads_word _).bind fun _ _ => ?_
  rintro ⟨colorTok, rfl, colorWord⟩
  refine (reads_word _).bind fun _ _ => ?_
  rintro ⟨to_, rfl, toWord⟩
  refine .choose fun tok => .inl ?_
  split
  · exact .pure fun word kind => .resetColor kind colorWord toWord
  · refine reads_color.bind fun c toks foreground => ?_
    refine (reads_eat rfl).bind fun b _ => ?_
    rintro (⟨rfl, slash, rfl, separator⟩ | ⟨rfl, rfl⟩)
    · have second : Reads (some <$> color) fun used c => ∃ c', c = some c' ∧ ColorName used c' :=
        reads_color.map fun _ c h => ⟨c, rfl, h⟩
      simp only [if_true]
      refine second.bind fun _ toks' => ?_
      rintro ⟨c', rfl, background⟩
      refine .pure fun word kind => ?_
      simpa using .setColors kind colorWord toWord foreground separator background
    · simp only [Bool.false_eq_true, if_false, pure_bind]
      refine .pure fun word kind => ?_
      simpa using .setColor kind colorWord toWord foreground

theorem reads_sayAt :
    Reads sayAt fun used c => ∀ sign, sign.kind = .atSign → Phrase (sign :: used) c := by
  refine reads_value.bind fun row xs first => ?_
  refine ((reads_expect rfl _).discard).bind fun _ _ => ?_
  rintro ⟨_, comma, rfl, separator⟩
  refine reads_value.bind fun col ys second => ?_
  refine (reads_word _).bind fun _ _ => ?_
  rintro ⟨word, rfl, sayWord⟩
  refine reads_value.bind fun value zs third => .pure fun sign kind => ?_
  simpa using .say kind first separator second sayWord third

theorem reads_printed (newline : Bool) :
    Reads (printed newline) fun used c =>
      ∀ sign, PrintSign sign.kind newline → Phrase (sign :: used) c := by
  refine .choose fun tok => .inl ?_
  split
  · exact .pure fun sign kind => .printNothing kind
  · have listed : Reads (do expressionsWithin (← bound)) (Listed Grammar.Value) := by
      simpa only [expressionsWithin_eq] using reads_separated reads_value
    have whole : Reads ((do expressionsWithin (← bound)) >>= fun es => pure (.print es newline))
        fun used c => ∀ sign, PrintSign sign.kind newline → Phrase (sign :: used) c :=
      listed.bind fun es toks list => .pure fun sign kind => by simpa using .print kind list
    simpa only [bind_assoc] using whole

theorem reads_names (role : NameRole) : Reads (identifiers role) (Listed Name) := by
  simpa only [identifiers, identifiersWithin_eq] using reads_separated (reads_identifier role)

theorem reads_propertyLine :
    Reads propertyLine fun used c =>
      ∀ word, word.kind = .keyword .kwThis → Phrase (word :: used) c := by
  refine ((reads_expect rfl _).discard).bind fun _ _ => ?_
  rintro ⟨_, dot, rfl, point⟩
  have named : ∀ name : Token, Reads
      (do
        if name.kind ≠ .ident ∧ !name.kind.isKeyword then unexpected .propertyName name
        assignSign (.assignAfterThis name.text)
        return .property name (← expression))
      fun used c => (name.kind = .ident ∨ name.kind.isKeyword = true) ∧
        ∀ word, word.kind = .keyword .kwThis → Phrase (word :: dot :: name :: used) c := by
    intro name
    split
    · exact (Reads.unexpected (R := fun _ _ => False) _ name).bind fun _ _ h => h.elim
    next kind =>
      have nameKind : name.kind = .ident ∨ name.kind.isKeyword = true := by
        by_cases h : name.kind = .ident
        · exact .inl h
        · exact .inr (by simpa [h] using kind)
      refine (reads_assignSign _).bind fun _ _ => ?_
      rintro ⟨sign, rfl, assigns⟩
      refine reads_value.bind fun e toks value => .pure ⟨nameKind, fun word kind => ?_⟩
      simpa using .property kind point nameKind assigns value
  refine (Reads.next named fun name used c h => ?_).mono ?_
  · rcases h.1 with kind | kind
    · rw [kind]
      rfl
    · cases h : name.kind <;> simp [h, Kind.isKeyword] at kind <;> rfl
  · rintro used c ⟨name, more, rfl, _, h⟩
    exact h

theorem reads_classEnd (name : Token) (base : Widget) :
    Reads (do return Command.beginClass name base (← eat (.keyword .kwEndclass))) fun used c =>
      ∃ oneLine, c = .beginClass name base oneLine ∧ ClassEnd used oneLine := by
  refine (reads_eat rfl).bind fun b _ => ?_
  rintro (⟨rfl, tok, rfl, word⟩ | ⟨rfl, rfl⟩)
  · exact .pure ⟨true, rfl, .here word⟩
  · exact .pure ⟨false, rfl, .later⟩

/-- A pair of parentheses may stand before the rest. The opening one is counted before the closing
one is looked for, so this does not follow from the parts. -/
theorem reads_emptyParens {β : Type} {tail : Read β} {R : List Token → β → Prop}
    (h : Reads tail R) (fault : Token → Fault) :
    Reads (do
      if ← eat .lParen then
        openParen
        let closing ← next
        if closing.kind ≠ .rParen then throw (fault closing)
        closeParen
      tail) fun used b => ∃ parens last, used = parens ++ last ∧ EmptyParens parens ∧ R last b := by
  intro toks ending n b r ends ran
  obtain ⟨eaten, r₁, ran₁, ran⟩ := outcome_bind_eq_ok.1 ran
  obtain ⟨rfl, opening, toks, rfl, rfl, opens⟩ | ⟨rfl, rfl⟩ := eat_inv rfl ends ran₁
  · simp only [if_true] at ran
    rw [outcome_bind_of_ok (outcome_openParen ..)] at ran
    cases toks with
    | nil =>
        cases ending with
        | error e => simp [outcome_bind] at ran
        | token stop =>
            have other : stop.kind ≠ .rParen := by
              intro same
              simpa [same, Kind.isEnd] using ends stop rfl
            rw [outcome_bind_of_ok (outcome_next_nil ..)] at ran
            simp [other] at ran
    | cons closing toks =>
        rw [outcome_bind_of_ok (outcome_next_cons ..)] at ran
        by_cases closes : closing.kind = .rParen
        · simp only [closes, ne_eq, not_true_eq_false, if_false] at ran
          rw [outcome_bind_of_ok (outcome_closeParen ..)] at ran
          obtain ⟨used, rest, rfl, rfl, related⟩ := h ends ran
          refine ⟨opening :: closing :: used, rest, rfl, ?_, [opening, closing], used, rfl,
            .pair opens closes, related⟩
          simp [parensAfter_open opens, parensAfter_close closes]
        · simp [closes] at ran
  · obtain ⟨used, rest, rfl, rfl, related⟩ := h ends ran
    exact ⟨used, rest, rfl, rfl, [], used, rfl, .none, related⟩

theorem reads_classHead :
    Reads classHead fun used c =>
      ∀ word, word.kind = .keyword .kwClass → Phrase (word :: used) c := by
  refine (reads_identifier _).bind fun name _ => ?_
  rintro ⟨nameKind⟩
  refine (reads_word _).bind fun _ _ => ?_
  rintro ⟨of_, rfl, ofWord⟩
  refine (Reads.next (T := fun base used c =>
      ∃ widget, Widget.ofKeyword? base.kind = some widget ∧
        ∀ word, word.kind = .keyword .kwClass → Phrase (word :: name :: of_ :: base :: used) c)
    (fun base => ?_) fun base used c h => ?_).mono ?_
  · split
    · exact .unexpected _ base
    next widget known =>
      refine (reads_emptyParens (reads_classEnd name widget) _).mono ?_
      rintro used c ⟨parens, last, rfl, empty, oneLine, rfl, ends⟩
      exact ⟨widget, known, fun word kind => .beginClass kind nameKind ofWord known empty ends⟩
  · obtain ⟨widget, known, _⟩ := h
    exact isInner_of_widget known
  · rintro used c ⟨base, more, rfl, _, _, h⟩
    exact h

/-- The rest of an assignment, given the name. -/
theorem reads_assigned (name : Token) (kind : name.kind = .ident) :
    Reads (do
      if ← isAt .lParen then throw (.at (.procedureCall name.text) name)
      assignSign (.assignAfter name.text)
      return .assign name (← expression)) fun used c => Phrase (name :: used) c := by
  intro toks ending n c r ends ran
  rw [outcome_bind_of_ok (outcome_isAt ..)] at ran
  split at ran
  · simp at ran
  · have rest : Reads (do
        assignSign (.assignAfter name.text)
        return .assign name (← expression)) fun used c => Phrase (name :: used) c := by
      refine (reads_assignSign _).bind fun _ _ => ?_
      rintro ⟨sign, rfl, assigns⟩
      exact reads_value.bind fun e toks value => .pure (by simpa using .assign kind assigns value)
    exact rest ends ran

theorem outcome_cannotStart_ne (tok : Token) (r r' : Reading) (c : Command) :
    outcome (cannotStart tok) r ≠ (.ok c, r') := by
  intro ran
  obtain ⟨_, _, _, ran⟩ := outcome_bind_eq_ok.1 ran
  obtain ⟨_, _, _, ran⟩ := outcome_bind_eq_ok.1 ran
  obtain ⟨_, _, _, ran⟩ := outcome_bind_eq_ok.1 ran
  split at ran <;> simp at ran

/-- What is read as a command is a phrase of it. -/
theorem reads_command : Reads command Phrase := by
  refine .choose fun tok => ?_
  have taken {kind : Kind} (same : tok.kind = kind) (inner : kind.isInner = true)
      {rest : Read Command} (h : Reads rest fun used c => Phrase (tok :: used) c) :
      Reads (after rest) Phrase ∨ tok.kind.isInner = true ∧ ∃ go : Read Command,
        (∀ toks ending n, outcome (after rest) ⟨⟨tok :: toks, ending⟩, n⟩ =
          outcome go ⟨⟨toks, ending⟩, n⟩) ∧ Reads go fun more c => Phrase (tok :: more) c :=
    .inr ⟨same ▸ inner, rest, fun _ _ _ => rfl, h⟩
  split
  next kind => exact taken kind rfl ((reads_names _).map fun _ _ list => .parameters kind list)
  next kind => exact taken kind rfl ((reads_names _).map fun _ _ list => .declare kind list)
  next kind =>
    exact .inr ⟨by rw [kind]; rfl, _, fun _ _ _ => rfl, reads_assigned tok kind⟩
  next kind => exact taken kind rfl (reads_value.map fun _ _ value => .beginIf kind value)
  next kind => exact taken kind rfl (.pure (.elseWord kind))
  next kind => exact taken kind rfl (.pure (.endIf kind))
  next kind => exact taken kind rfl (reads_forHead.mono fun _ _ h => h tok kind)
  next kind => exact taken kind rfl (reads_forEnd.mono fun _ _ h => h tok kind)
  next kind => exact taken kind rfl (reads_whileHead.mono fun _ _ h => h tok kind)
  next kind => exact taken kind rfl (.pure (.endWhile kind))
  next kind => exact taken kind rfl (.pure (.finish kind))
  next kind => exact taken kind rfl (reads_colorChoice.mono fun _ _ h => h tok kind)
  next kind => exact taken kind rfl (reads_classHead.mono fun _ _ h => h tok kind)
  next kind => exact taken kind rfl (reads_propertyLine.mono fun _ _ h => h tok kind)
  next kind => exact taken kind rfl (.pure (.endClass kind))
  next kind => exact taken kind rfl (reads_sayAt.mono fun _ _ h => h tok kind)
  next kind =>
    exact taken kind rfl ((reads_printed true).mono fun _ _ h => h tok (kind ▸ .line))
  next kind =>
    exact taken kind rfl ((reads_printed false).mono fun _ _ h => h tok (kind ▸ .part))
  next =>
    refine .inl ?_
    split
    · exact fun _ _ _ c r _ ran => (outcome_cannotStart_ne tok _ r c ran).elim
    · exact .unexpected _ tok

/-! ### What the readers take -/

theorem takes_value : Takes expression Grammar.Value fun kind => kind.goesOn = false :=
  takes_expression

theorem outcome_expect_cons (same : tok.kind = kind) (wanted : Wanted) (toks : List Token)
    (ending : LineEnd) (n : Int) :
    outcome (expect kind wanted) ⟨⟨tok :: toks, ending⟩, n⟩ = (.ok tok, ⟨⟨toks, ending⟩, n⟩) := by
  rw [expect, outcome_bind_of_ok (outcome_next_cons ..)]
  simp [same]

theorem outcome_word_cons (same : tok.kind = kind) (wanted : Wanted) (toks : List Token)
    (ending : LineEnd) (n : Int) :
    outcome (discard (expect kind wanted)) ⟨⟨tok :: toks, ending⟩, n⟩ =
      (.ok (), ⟨⟨toks, ending⟩, n⟩) :=
  outcome_discard_of_ok (outcome_expect_cons same wanted toks ending n)

theorem outcome_identifier_cons (kind : tok.kind = .ident) (role : NameRole) (toks : List Token)
    (ending : LineEnd) (n : Int) :
    outcome (identifier role) ⟨⟨tok :: toks, ending⟩, n⟩ = (.ok tok, ⟨⟨toks, ending⟩, n⟩) := by
  rw [identifier, outcome_bind_of_ok (outcome_next_cons ..)]
  simp [kind, Kind.isKeyword]

theorem outcome_assignSign_cons (assigns : AssignSign tok.kind) (wanted : Wanted)
    (toks : List Token) (ending : LineEnd) (n : Int) :
    outcome (assignSign wanted) ⟨⟨tok :: toks, ending⟩, n⟩ = (.ok (), ⟨⟨toks, ending⟩, n⟩) := by
  rw [assignSign, outcome_bind_of_ok (outcome_next_cons ..)]
  simp [AssignSign.iff.1 assigns]

theorem takes_identifier (role : NameRole) : Takes (identifier role) Name fun _ => True := by
  rintro used name rest stop n ⟨kind⟩ _
  rw [List.singleton_append, outcome_identifier_cons kind,
    parensAfter_inner (by rw [kind]; rfl), parensAfter_nil]

theorem takes_separated {α : Type} {part : Read α} {R : List Token → α → Prop}
    {F : Kind → Prop} (h : Takes part R F) (comma : F .comma) :
    Takes (do separated part (← bound)) (Listed R) fun kind => F kind ∧ kind ≠ .comma := by
  suffices ∀ used as, Listed R used as → ∀ rounds rest stop n, used.length < rounds →
      F (front rest stop).kind ∧ (front rest stop).kind ≠ .comma →
      outcome (separated part rounds) ⟨⟨used ++ rest, .token stop⟩, n⟩ =
        (.ok as, ⟨⟨rest, .token stop⟩, parensAfter n used⟩) by
    intro used as rest stop n listed follow
    rw [outcome_bind_of_ok (outcome_bound ..)]
    exact this used as listed _ rest stop n (by simp only [List.length_append]; omega) follow
  intro used as listed
  induction listed with
  | one part' =>
      intro rounds rest stop n enough follow
      obtain ⟨rounds, rfl⟩ : ∃ k, rounds = k + 1 := ⟨rounds - 1, by omega⟩
      rw [separated, outcome_bind_of_ok (h rest stop n part' follow.1),
        outcome_bind_of_ok (outcome_eat_front follow.2 _)]
      rfl
  | @more toks toks' a as sep part' separator _ ih =>
      intro rounds rest stop n enough follow
      obtain ⟨rounds, rfl⟩ : ∃ k, rounds = k + 1 := ⟨rounds - 1, by omega⟩
      have taken := h (sep :: (toks' ++ rest)) stop n part' (by simpa [separator] using comma)
      rw [List.append_assoc, List.cons_append, separated, outcome_bind_of_ok taken,
        outcome_bind_of_ok (outcome_eat_cons separator ..)]
      simp only [if_true]
      rw [outcome_bind_of_ok (ih rounds rest stop _ (by simp at enough; omega) follow)]
      simp [parensAfter_inner, separator, Kind.isInner]

theorem takes_color : Takes color ColorName fun kind => kind ≠ .plus := by
  rintro used c rest stop n named follow
  cases named with
  | plain kind known =>
      rw [List.singleton_append, color, outcome_bind_of_ok (outcome_next_cons ..)]
      simp only [kind, known, ne_eq, not_true_eq_false, if_false]
      rw [outcome_bind_of_ok (outcome_eat_front follow _)]
      simp [parensAfter_inner, kind, Kind.isInner]
  | bright kind known sign =>
      rw [List.cons_append, List.singleton_append, color,
        outcome_bind_of_ok (outcome_next_cons ..)]
      simp only [kind, known, ne_eq, not_true_eq_false, if_false]
      rw [outcome_bind_of_ok (outcome_eat_cons sign ..)]
      simp [parensAfter_inner, kind, sign, Kind.isInner]

/-! ### Phrases up to the end of their line -/

section LineEnd

variable {stop : Token} {toks : List Token} {e : Expr} (ends : stop.kind.isEnd = true)
include ends

theorem kind_ne_of_isEnd {kind : Kind} (inside : kind.isEnd = false) : stop.kind ≠ kind := by
  rintro rfl
  simp [ends] at inside

theorem goesOn_of_isEnd : stop.kind.goesOn = false := by
  cases h : stop.kind <;> first | rfl | simp [h, Kind.isEnd] at ends

theorem outcome_lastValue (value : Grammar.Value toks e) (n : Int) :
    outcome expression ⟨⟨toks, .token stop⟩, n⟩ =
      (.ok e, ⟨⟨[], .token stop⟩, parensAfter n toks⟩) := by
  simpa using takes_value [] stop n value (goesOn_of_isEnd ends)

theorem outcome_names {toks names : List Token} (list : Listed Name toks names) (role : NameRole)
    (n : Int) :
    outcome (identifiers role) ⟨⟨toks, .token stop⟩, n⟩ =
      (.ok names, ⟨⟨[], .token stop⟩, parensAfter n toks⟩) := by
  have taken := takes_separated (takes_identifier role) trivial [] stop n list
    ⟨trivial, kind_ne_of_isEnd ends rfl⟩
  simpa [identifiers, identifiersWithin_eq] using taken

theorem outcome_eat_end {kind : Kind} (inside : kind.isEnd = false) (n : Int) :
    outcome (eat kind) ⟨⟨[], .token stop⟩, n⟩ = (.ok false, ⟨⟨[], .token stop⟩, n⟩) := by
  have other : (front [] stop).kind ≠ kind := kind_ne_of_isEnd ends inside
  exact outcome_eat_front other n

theorem outcome_forHead {counter sign to_ : Token} {xs ys : List Token} {start limit : Expr}
    (name : counter.kind = .ident) (assigns : AssignSign sign.kind) (first : Grammar.Value xs start)
    (toWord : to_.kind = .keyword .kwTo) (last : Grammar.Value ys limit) (n : Int) :
    outcome forHead ⟨⟨counter :: sign :: (xs ++ to_ :: ys), .token stop⟩, n⟩ =
      (.ok (.beginFor counter start limit none),
        ⟨⟨[], .token stop⟩, parensAfter n (counter :: sign :: (xs ++ to_ :: ys))⟩) := by
  have started := takes_value (to_ :: ys) stop n first (by simp [toWord, Kind.goesOn])
  rw [forHead, outcome_bind_of_ok (outcome_identifier_cons name ..),
    outcome_bind_of_ok (outcome_assignSign_cons assigns ..), outcome_bind_of_ok started,
    outcome_bind_of_ok (outcome_word_cons toWord ..),
    outcome_bind_of_ok (outcome_lastValue ends last _),
    outcome_bind_of_ok (outcome_eat_end ends rfl _)]
  simp [parensAfter_of_kind name rfl, parensAfter_inner assigns.isInner,
    parensAfter_of_kind toWord rfl]

theorem outcome_forHead_step {counter sign to_ by_ : Token} {xs ys zs : List Token}
    {start limit step : Expr} (name : counter.kind = .ident) (assigns : AssignSign sign.kind)
    (first : Grammar.Value xs start) (toWord : to_.kind = .keyword .kwTo)
    (last : Grammar.Value ys limit) (stepWord : by_.kind = .keyword .kwStep)
    (stride : Grammar.Value zs step) (n : Int) :
    outcome forHead ⟨⟨counter :: sign :: (xs ++ to_ :: (ys ++ by_ :: zs)), .token stop⟩, n⟩ =
      (.ok (.beginFor counter start limit (some step)),
        ⟨⟨[], .token stop⟩,
          parensAfter n (counter :: sign :: (xs ++ to_ :: (ys ++ by_ :: zs)))⟩) := by
  have started := takes_value (to_ :: (ys ++ by_ :: zs)) stop n first
    (by simp [toWord, Kind.goesOn])
  have limited := takes_value (by_ :: zs) stop (parensAfter n xs) last
    (by simp [stepWord, Kind.goesOn])
  rw [forHead, outcome_bind_of_ok (outcome_identifier_cons name ..),
    outcome_bind_of_ok (outcome_assignSign_cons assigns ..), outcome_bind_of_ok started,
    outcome_bind_of_ok (outcome_word_cons toWord ..), outcome_bind_of_ok limited,
    outcome_bind_of_ok (outcome_eat_cons stepWord ..)]
  simp [outcome_map, outcome_lastValue ends stride, parensAfter_of_kind name rfl,
    parensAfter_inner assigns.isInner, parensAfter_of_kind toWord rfl,
    parensAfter_of_kind stepWord rfl]

theorem outcome_resetColor {color to_ : Token} (colorWord : color.kind = .keyword .kwColor)
    (toWord : to_.kind = .keyword .kwTo) (n : Int) :
    outcome colorChoice ⟨⟨[color, to_], .token stop⟩, n⟩ =
      (.ok (.setColor .reset), ⟨⟨[], .token stop⟩, parensAfter n [color, to_]⟩) := by
  rw [colorChoice, outcome_bind_of_ok (outcome_word_cons colorWord ..),
    outcome_bind_of_ok (outcome_word_cons toWord ..), outcome_bind_of_ok (outcome_peek_nil ..)]
  simp [ends, parensAfter_of_kind colorWord rfl, parensAfter_of_kind toWord rfl]

omit ends in
/-- The choice of colours, up to the first one. -/
theorem outcome_colorChoice {color to_ : Token} (colorWord : color.kind = .keyword .kwColor)
    (toWord : to_.kind = .keyword .kwTo) {c : Color} (foreground : ColorName toks c)
    (rest : List Token) (follow : (front rest stop).kind ≠ .plus) (n : Int) :
    outcome colorChoice ⟨⟨color :: to_ :: (toks ++ rest), .token stop⟩, n⟩ =
      outcome (do
        let background ← if ← eat .slash then some <$> Read.color else pure none
        return .setColor (.choose c background)) ⟨⟨rest, .token stop⟩, parensAfter n toks⟩ := by
  have fore := takes_color rest stop n foreground follow
  have named : (front (toks ++ rest) stop).kind = .ident := by
    obtain ⟨tok, more, rfl, named⟩ := foreground.starts
    exact named
  rw [colorChoice, outcome_bind_of_ok (outcome_word_cons colorWord ..),
    outcome_bind_of_ok (outcome_word_cons toWord ..), outcome_bind_of_ok (outcome_peek_front ..)]
  simp only [named, Kind.isEnd, Bool.false_eq_true, if_false]
  rw [outcome_bind_of_ok fore]

theorem outcome_setColor {color to_ : Token} {c : Color}
    (colorWord : color.kind = .keyword .kwColor) (toWord : to_.kind = .keyword .kwTo)
    (foreground : ColorName toks c) (n : Int) :
    outcome colorChoice ⟨⟨color :: to_ :: toks, .token stop⟩, n⟩ =
      (.ok (.setColor (.choose c none)),
        ⟨⟨[], .token stop⟩, parensAfter n (color :: to_ :: toks)⟩) := by
  have chosen := outcome_colorChoice colorWord toWord foreground [] (kind_ne_of_isEnd ends rfl) n
  rw [List.append_nil] at chosen
  rw [chosen, outcome_bind_of_ok (outcome_eat_end ends rfl _)]
  simp [parensAfter_of_kind colorWord rfl, parensAfter_of_kind toWord rfl]

theorem outcome_setColors {color to_ slash : Token} {toks toks' : List Token} {c c' : Color}
    (colorWord : color.kind = .keyword .kwColor) (toWord : to_.kind = .keyword .kwTo)
    (foreground : ColorName toks c) (separator : slash.kind = .slash)
    (background : ColorName toks' c') (n : Int) :
    outcome colorChoice ⟨⟨color :: to_ :: (toks ++ slash :: toks'), .token stop⟩, n⟩ =
      (.ok (.setColor (.choose c (some c'))),
        ⟨⟨[], .token stop⟩, parensAfter n (color :: to_ :: (toks ++ slash :: toks'))⟩) := by
  have back := takes_color [] stop (parensAfter n toks) background (kind_ne_of_isEnd ends rfl)
  rw [List.append_nil] at back
  rw [outcome_colorChoice colorWord toWord foreground (slash :: toks') (by simp [separator]),
    outcome_bind_of_ok (outcome_eat_cons separator ..)]
  simp [outcome_map, back, parensAfter_of_kind colorWord rfl, parensAfter_of_kind toWord rfl,
    parensAfter_of_kind separator rfl]

theorem outcome_sayAt {comma word : Token} {xs ys zs : List Token} {row col value : Expr}
    (first : Grammar.Value xs row) (separator : comma.kind = .comma) (second : Grammar.Value ys col)
    (sayWord : word.kind = .keyword .kwSay) (third : Grammar.Value zs value) (n : Int) :
    outcome sayAt ⟨⟨xs ++ comma :: (ys ++ word :: zs), .token stop⟩, n⟩ =
      (.ok (.say row col value),
        ⟨⟨[], .token stop⟩, parensAfter n (xs ++ comma :: (ys ++ word :: zs))⟩) := by
  have rowTaken := takes_value (comma :: (ys ++ word :: zs)) stop n first
    (by simp [separator, Kind.goesOn])
  have colTaken := takes_value (word :: zs) stop (parensAfter n xs) second
    (by simp [sayWord, Kind.goesOn])
  rw [sayAt, outcome_bind_of_ok rowTaken, outcome_bind_of_ok (outcome_word_cons separator ..),
    outcome_bind_of_ok colTaken, outcome_bind_of_ok (outcome_word_cons sayWord ..),
    outcome_bind_of_ok (outcome_lastValue ends third _)]
  simp [parensAfter_of_kind separator rfl, parensAfter_of_kind sayWord rfl]

theorem outcome_printed {values : List Expr} (list : Listed Grammar.Value toks values)
    (newline : Bool) (n : Int) :
    outcome (printed newline) ⟨⟨toks, .token stop⟩, n⟩ =
      (.ok (.print values newline), ⟨⟨[], .token stop⟩, parensAfter n toks⟩) := by
  have taken := takes_separated takes_value rfl [] stop n list
    ⟨goesOn_of_isEnd ends, kind_ne_of_isEnd ends rfl⟩
  rw [List.append_nil, outcome_bind_of_ok (outcome_bound ..), ← expressionsWithin_eq] at taken
  obtain ⟨tok, more, rfl, inside⟩ := list.starts fun h => by
    obtain ⟨tok, more, rfl, starts⟩ := Expression.starts h
    exact ⟨tok, more, rfl, Level.isEnd_of_starts starts⟩
  rw [printed, outcome_bind_of_ok (outcome_peek_cons ..)]
  simp only [inside, Bool.false_eq_true, if_false]
  rw [outcome_bind_of_ok (outcome_bound ..), outcome_bind_of_ok taken]
  rfl

theorem outcome_printed_nothing (newline : Bool) (n : Int) :
    outcome (printed newline) ⟨⟨[], .token stop⟩, n⟩ =
      (.ok (.print [] newline), ⟨⟨[], .token stop⟩, n⟩) := by
  rw [printed, outcome_bind_of_ok (outcome_peek_nil ..)]
  simp [ends]

theorem outcome_forEnd (n : Int) :
    outcome forEnd ⟨⟨[], .token stop⟩, n⟩ = (.ok (.endFor none), ⟨⟨[], .token stop⟩, n⟩) := by
  have other : stop.kind ≠ .ident := kind_ne_of_isEnd ends rfl
  rw [forEnd, outcome_bind_of_ok (outcome_peek_nil ..)]
  simp [other]

omit ends in
theorem outcome_forEnd_name {counter : Token} (name : counter.kind = .ident) (n : Int) :
    outcome forEnd ⟨⟨[counter], .token stop⟩, n⟩ =
      (.ok (.endFor (some counter)), ⟨⟨[], .token stop⟩, parensAfter n [counter]⟩) := by
  rw [forEnd, outcome_bind_of_ok (outcome_peek_cons ..)]
  simp only [name, if_true]
  rw [outcome_bind_of_ok (outcome_discard_next_cons ..), parensAfter_of_kind name rfl]
  rfl

theorem outcome_whileHead {word : Token} (kind : word.kind = .keyword .kwWhile)
    (condition : Grammar.Value toks e) (n : Int) :
    outcome whileHead ⟨⟨word :: toks, .token stop⟩, n⟩ =
      (.ok (.beginWhile e), ⟨⟨[], .token stop⟩, parensAfter n (word :: toks)⟩) := by
  rw [whileHead, outcome_bind_of_ok (outcome_word_cons kind ..),
    outcome_bind_of_ok (outcome_lastValue ends condition _), parensAfter_of_kind kind rfl]
  rfl

theorem outcome_classEnd {last : List Token} {oneLine : Bool} (h : ClassEnd last oneLine)
    (name : Token) (widget : Widget) (n : Int) :
    outcome (do return Command.beginClass name widget (← eat (.keyword .kwEndclass)))
        ⟨⟨last, .token stop⟩, n⟩ =
      (.ok (.beginClass name widget oneLine), ⟨⟨[], .token stop⟩, parensAfter n last⟩) := by
  cases h with
  | later =>
      rw [outcome_bind_of_ok (outcome_eat_end ends rfl _)]
      rfl
  | here word =>
      rw [outcome_bind_of_ok (outcome_eat_cons word ..)]
      simp [parensAfter_of_kind word rfl]

theorem outcome_classHead {name of_ base : Token} {parens last : List Token} {widget : Widget}
    {oneLine : Bool} (nameKind : name.kind = .ident) (ofWord : of_.kind = .keyword .kwOf)
    (known : Widget.ofKeyword? base.kind = some widget) (empty : EmptyParens parens)
    (closing : ClassEnd last oneLine) (n : Int) :
    outcome classHead ⟨⟨name :: of_ :: base :: (parens ++ last), .token stop⟩, n⟩ =
      (.ok (.beginClass name widget oneLine),
        ⟨⟨[], .token stop⟩, parensAfter n (name :: of_ :: base :: (parens ++ last))⟩) := by
  have ended (n : Int) := outcome_classEnd ends closing name widget n
  rw [classHead, outcome_bind_of_ok (outcome_identifier_cons nameKind ..),
    outcome_bind_of_ok (outcome_word_cons ofWord ..), outcome_bind_of_ok (outcome_next_cons ..)]
  simp only [known, parensAfter_of_kind nameKind rfl, parensAfter_of_kind ofWord rfl,
    parensAfter_inner (isInner_of_widget known)]
  cases empty with
  | none =>
      have other : (front last stop).kind ≠ .lParen := by
        cases closing with
        | later => exact kind_ne_of_isEnd ends rfl
        | here word => simp [word]
      rw [List.nil_append, outcome_bind_of_ok (outcome_eat_front other _)]
      exact ended n
  | pair opens closes =>
      rw [List.cons_append, List.cons_append, List.nil_append,
        outcome_bind_of_ok (outcome_eat_cons opens ..)]
      simp only [if_true]
      rw [outcome_bind_of_ok (outcome_openParen ..), outcome_bind_of_ok (outcome_next_cons ..)]
      simp only [closes, ne_eq, not_true_eq_false, if_false]
      rw [outcome_bind_of_ok (outcome_closeParen ..), parensAfter_open opens,
        parensAfter_close closes]
      exact ended _

theorem outcome_propertyLine {dot name sign : Token} (point : dot.kind = .dot)
    (nameKind : name.kind = .ident ∨ name.kind.isKeyword = true) (assigns : AssignSign sign.kind)
    (value : Grammar.Value toks e) (n : Int) :
    outcome propertyLine ⟨⟨dot :: name :: sign :: toks, .token stop⟩, n⟩ =
      (.ok (.property name e),
        ⟨⟨[], .token stop⟩, parensAfter n (dot :: name :: sign :: toks)⟩) := by
  have named : ¬(name.kind ≠ .ident ∧ (!name.kind.isKeyword) = true) := by
    rintro ⟨notIdent, notWord⟩
    rcases nameKind with h | h
    · exact notIdent h
    · simp [h] at notWord
  have inner := isInner_of_isName nameKind
  rw [propertyLine, outcome_bind_of_ok (outcome_word_cons point ..),
    outcome_bind_of_ok (outcome_next_cons ..)]
  simp only [named, if_false]
  rw [outcome_bind_of_ok (outcome_assignSign_cons assigns ..),
    outcome_bind_of_ok (outcome_lastValue ends value _)]
  simp [parensAfter_of_kind point rfl, parensAfter_inner inner, parensAfter_inner assigns.isInner]

theorem outcome_assignment {name sign : Token} (kind : name.kind = .ident)
    (assigns : AssignSign sign.kind) (value : Grammar.Value toks e) (n : Int) :
    outcome assignment ⟨⟨name :: sign :: toks, .token stop⟩, n⟩ =
      (.ok (.assign name e), ⟨⟨[], .token stop⟩, parensAfter n (name :: sign :: toks)⟩) := by
  have notCall : (sign.kind == .lParen) = false := by
    cases h : sign.kind <;> simp [h] at assigns <;> first | rfl | cases assigns
  rw [assignment, outcome_bind_of_ok (outcome_next_cons ..),
    outcome_bind_of_ok (outcome_isAt ..)]
  simp only [List.head?_cons, Option.any_some, notCall, Bool.false_eq_true, if_false]
  rw [outcome_bind_of_ok (outcome_assignSign_cons assigns ..),
    outcome_bind_of_ok (outcome_lastValue ends value _)]
  simp [parensAfter_of_kind kind rfl, parensAfter_inner assigns.isInner]

/-- A phrase is read as its command, up to the end of the line. -/
theorem outcome_command {c : Command} (phrase : Phrase toks c) (n : Int) :
    outcome command ⟨⟨toks, .token stop⟩, n⟩ =
      (.ok c, ⟨⟨[], .token stop⟩, parensAfter n toks⟩) := by
  have word {tok : Token} {xs : List Token} {kind : Kind} (same : tok.kind = kind)
      {rest : Read Command}
      (branch : outcome command ⟨⟨tok :: xs, .token stop⟩, n⟩ =
        outcome (after rest) ⟨⟨tok :: xs, .token stop⟩, n⟩)
      (read : outcome rest ⟨⟨xs, .token stop⟩, n⟩ =
        (.ok c, ⟨⟨[], .token stop⟩, parensAfter n xs⟩))
      (inner : kind.isInner = true := by rfl) :
      outcome command ⟨⟨tok :: xs, .token stop⟩, n⟩ =
        (.ok c, ⟨⟨[], .token stop⟩, parensAfter n (tok :: xs)⟩) := by
    rw [branch, after, outcome_bind_of_ok (outcome_discard_next_cons ..), read,
      parensAfter_of_kind same inner]
  cases phrase with
  | parameters kind list =>
      exact word kind (by simp [command, outcome_bind, kind])
        (outcome_map_of_ok Command.parameters (outcome_names ends list .parameter n))
  | declare kind list =>
      exact word kind (by simp [command, outcome_bind, kind])
        (outcome_map_of_ok Command.declare (outcome_names ends list .localVariable n))
  | assign kind assigns value =>
      rw [← outcome_assignment ends kind assigns value]
      simp [command, outcome_bind, kind]
  | beginIf kind condition =>
      exact word kind (by simp [command, outcome_bind, kind])
        (outcome_map_of_ok Command.beginIf (outcome_lastValue ends condition n))
  | elseWord kind => exact word kind (by simp [command, outcome_bind, kind]) (outcome_pure _ _)
  | endIf kind => exact word kind (by simp [command, outcome_bind, kind]) (outcome_pure _ _)
  | beginFor kind name assigns first toWord last =>
      exact word kind (by simp [command, outcome_bind, kind])
        (outcome_forHead ends name assigns first toWord last n)
  | beginForStep kind name assigns first toWord last stepWord stride =>
      exact word kind (by simp [command, outcome_bind, kind])
        (outcome_forHead_step ends name assigns first toWord last stepWord stride n)
  | endFor kind =>
      exact word kind (by simp [command, outcome_bind, kind]) (outcome_forEnd ends n)
  | endForNamed kind name =>
      exact word kind (by simp [command, outcome_bind, kind]) (outcome_forEnd_name name n)
  | beginWhile kind kind' condition =>
      exact word kind (by simp [command, outcome_bind, kind])
        (outcome_whileHead ends kind' condition n)
  | endWhile kind => exact word kind (by simp [command, outcome_bind, kind]) (outcome_pure _ _)
  | finish kind => exact word kind (by simp [command, outcome_bind, kind]) (outcome_pure _ _)
  | resetColor kind colorWord toWord =>
      exact word kind (by simp [command, outcome_bind, kind])
        (outcome_resetColor ends colorWord toWord n)
  | setColor kind colorWord toWord foreground =>
      exact word kind (by simp [command, outcome_bind, kind])
        (outcome_setColor ends colorWord toWord foreground n)
  | setColors kind colorWord toWord foreground separator background =>
      exact word kind (by simp [command, outcome_bind, kind])
        (outcome_setColors ends colorWord toWord foreground separator background n)
  | say kind first separator second sayWord third =>
      exact word kind (by simp [command, outcome_bind, kind])
        (outcome_sayAt ends first separator second sayWord third n)
  | printNothing kind =>
      obtain ⟨same, rfl⟩ | ⟨same, rfl⟩ := PrintSign.cases kind
      · exact word same (by simp [command, outcome_bind, same])
          (outcome_printed_nothing ends true n)
      · exact word same (by simp [command, outcome_bind, same])
          (outcome_printed_nothing ends false n)
  | print kind list =>
      obtain ⟨same, rfl⟩ | ⟨same, rfl⟩ := PrintSign.cases kind
      · exact word same (by simp [command, outcome_bind, same]) (outcome_printed ends list true n)
      · exact word same (by simp [command, outcome_bind, same]) (outcome_printed ends list false n)
  | beginClass kind nameKind ofWord known empty closing =>
      exact word kind (by simp [command, outcome_bind, kind])
        (outcome_classHead ends nameKind ofWord known empty closing n)
  | property kind point nameKind assigns value =>
      exact word kind (by simp [command, outcome_bind, kind])
        (outcome_propertyLine ends point nameKind assigns value n)
  | endClass kind => exact word kind (by simp [command, outcome_bind, kind]) (outcome_pure _ _)

end LineEnd

theorem outcome_expectEnd {stop : Token} (ends : stop.kind.isEnd = true) (n : Int) :
    outcome expectEnd ⟨⟨[], .token stop⟩, n⟩ = (.ok (), ⟨⟨[], .token stop⟩, n⟩) := by
  rw [expectEnd, outcome_bind_of_ok (outcome_peek_nil ..)]
  simp [ends]

/-- The end of a line is found only where no token is left. -/
theorem expectEnd_inv {toks : List Token} (inside : ∀ tok ∈ toks, tok.kind.isEnd = false)
    {ending : LineEnd} {n : Int} {r : Reading}
    (ran : outcome expectEnd ⟨⟨toks, ending⟩, n⟩ = (.ok (), r)) :
    toks = [] ∧ (∃ stop, ending = .token stop) ∧ r = ⟨⟨toks, ending⟩, n⟩ := by
  cases toks with
  | nil =>
      cases ending with
      | error e => simp [expectEnd, outcome_bind] at ran
      | token stop =>
          rw [expectEnd, outcome_bind_of_ok (outcome_peek_nil ..)] at ran
          split at ran
          · cases ran
            exact ⟨rfl, ⟨stop, rfl⟩, rfl⟩
          · exact (outcome_unexpected_ne _ _ _ _ _ ran).elim
  | cons tok toks =>
      rw [expectEnd, outcome_bind_of_ok (outcome_peek_cons ..)] at ran
      simp only [inside tok (by simp), Bool.false_eq_true, if_false] at ran
      exact (outcome_unexpected_ne _ _ _ _ _ ran).elim

/-- A line that is read as a command up to its end is a phrase of it. -/
theorem phrase_of_outcome {toks : List Token} (inside : ∀ tok ∈ toks, tok.kind.isEnd = false)
    {ending : LineEnd} (ends : ending.Closes) {n : Int} {c : Command} {r r' : Reading}
    (ran : outcome command ⟨⟨toks, ending⟩, n⟩ = (.ok c, r))
    (ended : outcome expectEnd r = (.ok (), r')) :
    Phrase toks c ∧ ∃ stop, ending = .token stop := by
  obtain ⟨used, rest, rfl, rfl, phrase⟩ := reads_command ends ran
  obtain ⟨rfl, stop, _⟩ := expectEnd_inv (fun tok mem => inside tok (by simp [mem])) ended
  exact ⟨by simpa using phrase, stop⟩

end Read

end PrgScript
