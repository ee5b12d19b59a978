import PrgScript.Proofs.Twin
import PrgScript.Proofs.View

/-!
# Reading lines that look the same

Readers of lines that look the same end alike: they read parts that look the same,
or fail with the same code at places that look the same, and leave lines that look
the same. `Read.Alike` says so of a reader, and is handed on from the parts of a
reader to the whole.
-/

namespace PrgScript

open Step

namespace Reading

variable {v : View} {r s : Reading} (same : r.seen v = s.seen v)

include same

theorem tokens_of_seen :
    r.line.tokens.map (Token.seen v) = s.line.tokens.map (Token.seen v) :=
  congrArg (·.1.1) same

theorem ending_of_seen : r.line.ending.seen v = s.line.ending.seen v := congrArg (·.1.2) same

theorem parens_of_seen : r.parens = s.parens := congrArg (·.2) same

end Reading

def Command.seen (v : View) : Command → Command
  | .parameters names => .parameters (names.map (Token.seen v))
  | .declare names => .declare (names.map (Token.seen v))
  | .assign name value => .assign (name.seen v) (value.seen v)
  | .beginIf condition => .beginIf (condition.seen v)
  | .elseWord => .elseWord
  | .endIf => .endIf
  | .beginFor counter start limit step =>
    .beginFor (counter.seen v) (start.seen v) (limit.seen v) (step.map (Expr.seen v))
  | .endFor counter => .endFor (counter.map (Token.seen v))
  | .beginWhile condition => .beginWhile (condition.seen v)
  | .endWhile => .endWhile
  | .finish => .finish
  | .setColor choice => .setColor choice
  | .say row col value => .say (row.seen v) (col.seen v) (value.seen v)
  | .print values newline => .print (values.map (Expr.seen v)) newline
  | .beginClass name base oneLine => .beginClass (name.seen v) base oneLine
  | .property name value => .property (name.seen v) (value.seen v)
  | .endClass => .endClass

def Command.names : Command → List Token
  | .parameters names | .declare names => names
  | .assign name _ | .beginFor name .. | .beginClass name .. | .property name _
  | .endFor (some name) => [name]
  | _ => []

/-- Two commands that look the same, and in which words name things. -/
def Command.Alike (v : View) (c c' : Command) : Prop :=
  c.seen v = c'.seen v ∧ ∀ tok ∈ c.names, tok.kind.isNaming = true

namespace Read

variable {α β : Type} {v : View}

theorem seen_folding (op : Op) (x y : Expr) (line : Nat) :
    (folding op x y line).seen v = folding op (x.seen v) (y.seen v) (v.line line) := by
  cases op with
  | add =>
      cases x with
      | string => cases y <;> rfl
      | _ => rfl
  | _ => rfl

theorem outcome_next_of_peek {r : Reading} {tok : Token} (h : outcome peek r = (.ok tok, r)) :
    outcome next r = (.ok tok, { r with line.tokens := r.line.tokens.tail }) := by
  unfold next
  rw [outcome_bind_of_ok h]
  rfl

/-- From lines that look the same two readers end alike. -/
abbrev Alike (v : View) (R : α → α → Prop) (x y : Read α) : Prop :=
  Twin (InvImage Eq (Reading.seen v)) (InvImage Eq (Fault.seen v)) R x y

/-- Two readers end alike, with values that look the same. -/
abbrev SeenAlike (v : View) (f : α → β) (x y : Read α) : Prop := Alike v (InvImage Eq f) x y

namespace Alike

variable {R : α → α → Prop}

theorem fault {cause cause' : Cause} {tok tok' : Token} (codes : cause.code = cause'.code)
    (same : tok.seen v = tok'.seen v) :
    Alike v R (throw (.at cause tok)) (throw (.at cause' tok')) :=
  .throw (Fault.seen_at codes same)

theorem peek : SeenAlike v (Token.seen v) Read.peek Read.peek := by
  rintro ⟨⟨toks, ending⟩, n⟩ ⟨⟨toks', ending'⟩, n'⟩ same
  have tokens := Reading.tokens_of_seen same
  have ends := Reading.ending_of_seen same
  cases toks with
  | cons tok toks =>
      cases toks' with
      | nil => cases tokens
      | cons tok' toks' => exact ⟨.ok (List.cons.inj tokens).1, same⟩
  | nil =>
      cases toks' with
      | cons tok' toks' => cases tokens
      | nil =>
          cases ending with
          | token stop =>
              cases ending' with
              | token stop' => exact ⟨.ok (Sum.inl.inj ends), same⟩
              | error e' => cases ends
          | error e =>
              cases ending' with
              | token stop' => cases ends
              | error e' => exact ⟨.error (Sum.inr.inj ends), same⟩

theorem next : SeenAlike v (Token.seen v) Read.next Read.next := by
  refine peek.bind fun tok tok' seen => .bind (.modifyState fun r s same => ?_) fun _ _ _ =>
    .pure seen
  have tails := congrArg List.tail (Reading.tokens_of_seen same)
  rw [← List.map_tail, ← List.map_tail] at tails
  simp only [InvImage, Reading.seen, Line.seen, tails, Reading.ending_of_seen same,
    Reading.parens_of_seen same]

theorem isAt (kind : Kind) : Alike v Eq (Read.isAt kind) (Read.isAt kind) := by
  refine Twin.get.bind fun r s same => .pure ?_
  have tokens := Reading.tokens_of_seen same
  cases first : r.line.tokens with
  | nil =>
      rw [first, List.map_nil, eq_comm, List.map_eq_nil_iff] at tokens
      rw [tokens]
  | cons tok toks =>
      cases second : s.line.tokens with
      | nil => rw [first, second] at tokens; cases tokens
      | cons tok' toks' =>
          rw [first, second] at tokens
          simp [Token.kind_of_seen (List.cons.inj tokens).1]

theorem bound : Alike v Eq Read.bound Read.bound := by
  refine Twin.get.bind fun r s same => .pure ?_
  have lengths := congrArg List.length (Reading.tokens_of_seen same)
  rw [List.length_map, List.length_map] at lengths
  rw [lengths]

theorem openParen : Alike v Eq Read.openParen Read.openParen := by
  refine .modifyState fun r s same => ?_
  simp only [InvImage, Reading.seen] at same ⊢
  rw [(Prod.mk.inj same).1, (Prod.mk.inj same).2]

theorem closeParen : Alike v Eq Read.closeParen Read.closeParen := by
  refine .modifyState fun r s same => ?_
  simp only [InvImage, Reading.seen] at same ⊢
  rw [(Prod.mk.inj same).1, (Prod.mk.inj same).2]

theorem unexpected {wanted wanted' : Wanted} {tok tok' : Token} (codes : wanted.code = wanted'.code)
    (same : tok.seen v = tok'.seen v) :
    Alike v R (Read.unexpected wanted tok) (Read.unexpected wanted' tok') := by
  refine Twin.get.bind fun r s alike => .ite ?_ (fault rfl same) (fault codes same)
  rw [Token.kind_of_seen same, Reading.parens_of_seen alike]

theorem eat (kind : Kind) : Alike v Eq (Read.eat kind) (Read.eat kind) := by
  refine peek.bind fun tok tok' same =>
    .ite ?_ (next.discard.bind fun _ _ _ => .pure rfl) (.pure rfl)
  rw [Token.kind_of_seen same]

theorem expect (kind : Kind) {wanted wanted' : Wanted} (codes : wanted.code = wanted'.code) :
    SeenAlike v (Token.seen v) (Read.expect kind wanted) (Read.expect kind wanted') := by
  refine next.bind fun tok tok' same => .ite ?_ (.pure same) (unexpected codes same)
  rw [Token.kind_of_seen same]

theorem expectEnd : Alike v Eq Read.expectEnd Read.expectEnd := by
  refine peek.bind fun tok tok' same => .ite ?_ (.pure rfl) (unexpected rfl same)
  rw [Token.kind_of_seen same]

/-! ### Expressions -/

section Expression

variable {op? : Kind → Option Op} {operand operand' : Read Expr}

theorem leftAssoc (h : SeenAlike v (Expr.seen v) operand operand') :
    SeenAlike v (Expr.seen v) (Read.leftAssoc folding op? operand)
      (Read.leftAssoc folding op? operand') := by
  have rounds (n : Nat) {left left' : Expr} (lefts : left.seen v = left'.seen v) :
      SeenAlike v (Expr.seen v) (leftAssocFrom folding op? operand n left)
        (leftAssocFrom folding op? operand' n left') := by
    induction n generalizing left left' with
    | zero => exact .pure lefts
    | succ n ih =>
        refine peek.bind fun tok tok' same => ?_
        rw [Token.kind_of_seen same]
        cases op? tok'.kind with
        | none => exact .pure lefts
        | some op =>
            refine next.discard.bind fun _ _ _ => h.bind fun right right' rights => ih ?_
            rw [seen_folding, seen_folding, lefts, rights, Token.line_of_seen same]
  refine h.bind fun left left' lefts => bound.bind fun n m bounds => ?_
  subst bounds
  exact rounds n lefts

theorem unaryChain (h : SeenAlike v (Expr.seen v) operand operand') :
    SeenAlike v (Expr.seen v) (Read.unaryChain op? operand) (Read.unaryChain op? operand') := by
  have rounds (n : Nat) :
      SeenAlike v (Expr.seen v) (unaryWithin op? operand n) (unaryWithin op? operand' n) := by
    induction n with
    | zero => exact h
    | succ n ih =>
        refine peek.bind fun tok tok' same => ?_
        rw [Token.kind_of_seen same]
        cases op? tok'.kind with
        | none => exact h
        | some op =>
            refine next.discard.bind fun _ _ _ => ih.bind fun x x' operands => .pure ?_
            show Expr.unary op (x.seen v) (v.line tok.line) =
              .unary op (x'.seen v) (v.line tok'.line)
            rw [operands, Token.line_of_seen same]
  refine bound.bind fun n m bounds => ?_
  subst bounds
  exact rounds n

theorem parenthesized {inner inner' : Read Expr} (h : SeenAlike v (Expr.seen v) inner inner')
    {opening opening' : Token} (same : opening.seen v = opening'.seen v) :
    SeenAlike v (Expr.seen v) (Read.parenthesized inner opening)
      (Read.parenthesized inner' opening') := by
  refine openParen.bind fun _ _ _ => h.bind fun e e' inside => next.bind fun tok tok' closing => ?_
  refine .ite ?_ (closeParen.bind fun _ _ _ => .pure inside) (fault rfl same)
  rw [Token.kind_of_seen closing]

theorem primary {inner inner' : Read Expr} (h : SeenAlike v (Expr.seen v) inner inner') :
    SeenAlike v (Expr.seen v) (Read.primary inner) (Read.primary inner') := by
  refine next.bind fun tok tok' same => ?_
  have lines := Token.line_of_seen same
  have kinds := Token.kind_of_seen same
  rw [← kinds]
  cases kind : tok.kind with
  | number =>
      dsimp only
      rw [← Token.text_of_number same kind]
      cases Number.read tok.text with
      | ok value => exact .pure (congrArg (Expr.number value) lines)
      | error => exact fault rfl same
  | string =>
      refine .pure ?_
      show Expr.string tok.value (v.line tok.line) = .string tok'.value (v.line tok'.line)
      rw [Token.value_of_seen same, lines]
  | logical =>
      refine .pure ?_
      show Expr.logical (tok.value == "T") (v.line tok.line) =
        .logical (tok'.value == "T") (v.line tok'.line)
      rw [Token.value_of_seen same, lines]
  | ident =>
      refine (isAt _).bind fun called called' agree =>
        .ite (by rw [agree]) (fault rfl same) (.pure ?_)
      show Expr.ident (v.name tok.text) (v.line tok.line) =
        .ident (v.name tok'.text) (v.line tok'.line)
      rw [Token.name_of_word same (by rw [kind]; rfl), lines]
  | lParen => exact parenthesized h same
  | _ => exact .ite Iff.rfl (fault rfl same) (unexpected rfl same)

theorem levels {primary primary' : Read Expr} (h : SeenAlike v (Expr.seen v) primary primary') :
    SeenAlike v (Expr.seen v) (Read.levels folding primary) (Read.levels folding primary') :=
  leftAssoc (leftAssoc (unaryChain (leftAssoc (leftAssoc (leftAssoc (unaryChain h))))))

/-- Expressions are read alike. -/
theorem expression : SeenAlike v (Expr.seen v) Read.expression Read.expression := by
  have depths (n : Nat) : SeenAlike v (Expr.seen v) (nested folding n) (nested folding n) := by
    induction n with
    | zero => exact peek.bind fun tok tok' same => unexpected rfl same
    | succ n ih => exact levels (primary ih)
  refine bound.bind fun n m bounds => ?_
  subst bounds
  exact depths n

end Expression

/-! ### Statements -/

theorem identifier (role : NameRole) :
    Alike v (fun tok tok' => tok.seen v = tok'.seen v ∧ tok.kind.isNaming = true)
      (Read.identifier role) (Read.identifier role) := by
  refine next.bind fun tok tok' same => ?_
  rw [← Token.kind_of_seen same]
  refine .ite Iff.rfl (fault rfl same) ?_
  split
  next ident => exact .pure ⟨same, by rw [ident]; rfl⟩
  next => exact unexpected rfl same

theorem identifiers (role : NameRole) :
    Alike v (fun toks toks' => toks.map (Token.seen v) = toks'.map (Token.seen v) ∧
      ∀ tok ∈ toks, tok.kind.isNaming = true) (Read.identifiers role) (Read.identifiers role) := by
  have rounds (n : Nat) :
      Alike v (fun toks toks' => toks.map (Token.seen v) = toks'.map (Token.seen v) ∧
        ∀ tok ∈ toks, tok.kind.isNaming = true)
        (identifiersWithin role n) (identifiersWithin role n) := by
    induction n with
    | zero => exact .pure ⟨rfl, by simp⟩
    | succ n ih =>
        refine (identifier role).bind fun tok tok' ⟨same, word⟩ =>
          (eat _).bind fun more more' agree => ?_
        refine .ite (by rw [agree]) (ih.bind fun toks toks' ⟨rest, words⟩ => .pure ?_) (.pure ?_)
        · exact ⟨by rw [List.map_cons, List.map_cons, same, rest],
            List.forall_mem_cons.2 ⟨word, words⟩⟩
        · exact ⟨by rw [List.map_singleton, List.map_singleton, same], by simp [word]⟩
  refine bound.bind fun n m bounds => ?_
  subst bounds
  exact rounds n

theorem assignSign {wanted wanted' : Wanted} (codes : wanted.code = wanted'.code) :
    Alike v Eq (Read.assignSign wanted) (Read.assignSign wanted') := by
  refine next.bind fun tok tok' same => .ite ?_ (.pure rfl) (unexpected codes same)
  rw [Token.kind_of_seen same]

/-- An assignment that starts with an identifier. -/
theorem assignment {r s : Reading} (alike : r.seen v = s.seen v) {tok : Token}
    (first : outcome Read.peek r = (.ok tok, r)) (ident : tok.kind = .ident) :
    Ends (InvImage Eq (Fault.seen v)) (Command.Alike v) (outcome Read.assignment r).1
        (outcome Read.assignment s).1 ∧
      (outcome Read.assignment r).2.seen v = (outcome Read.assignment s).2.seen v := by
  obtain ⟨ends, after⟩ := next r s alike
  have taken := outcome_next_of_peek first
  cases second : outcome Read.next s with
  | mk result s' =>
      rw [taken, second] at ends after
      cases ends with
      | @ok name name' same =>
          have tail : Alike v (Command.Alike v)
              (do
                Read.assignSign (.assignAfter tok.text)
                return .assign tok (← Read.expression))
              (do
                Read.assignSign (.assignAfter name'.text)
                return .assign name' (← Read.expression)) := by
            refine .bind (assignSign rfl) fun _ _ _ => expression.bind fun e e' values =>
              .pure ⟨?_, ?_⟩
            · show Command.assign (tok.seen v) (e.seen v) = .assign (name'.seen v) (e'.seen v)
              rw [same, values]
            · simp [Command.names, Kind.isNaming, ident]
          unfold Read.assignment
          rw [outcome_bind_of_ok taken, outcome_bind_of_ok second]
          refine Twin.bind (isAt _) (fun called called' agree => ?_) _ _ after
          refine .ite (by rw [agree]) ?_ tail
          exact .bind (R := Eq) (fault rfl same) fun _ _ _ => tail

theorem forHead : Alike v (Command.Alike v) Read.forHead Read.forHead := by
  refine (identifier _).bind fun counter counter' ⟨same, word⟩ =>
    .bind (assignSign rfl) fun _ _ _ => ?_
  refine expression.bind fun start start' starts => .bind (expect _ rfl).discard fun _ _ _ => ?_
  refine expression.bind fun limit limit' limits => (eat _).bind fun more more' agree => ?_
  have ends {step step' : Option Expr} (steps : step.map (Expr.seen v) = step'.map (Expr.seen v)) :
      Command.Alike v (.beginFor counter start limit step)
        (.beginFor counter' start' limit' step') := by
    refine ⟨?_, by simp [Command.names, word]⟩
    simp only [Command.seen]
    rw [same, starts, limits, steps]
  refine .ite (by rw [agree]) ?_ (.pure (ends rfl))
  refine .bind (expression.map fun e e' values => ?_) fun step step' steps => .pure (ends steps)
  exact congrArg some values

theorem forEnd : Alike v (Command.Alike v) Read.forEnd Read.forEnd := by
  refine peek.bind fun tok tok' same => ?_
  rw [← Token.kind_of_seen same]
  split
  next ident =>
    refine next.discard.bind fun _ _ _ => .pure ⟨?_, by simp [Command.names, Kind.isNaming, ident]⟩
    exact congrArg (fun tok => Command.endFor (some tok)) same
  next => exact .pure ⟨rfl, by simp [Command.names]⟩

theorem whileHead : Alike v (Command.Alike v) Read.whileHead Read.whileHead := by
  refine .bind (expect _ rfl).discard fun _ _ _ => expression.bind fun e e' values => .pure ⟨?_, ?_⟩
  · exact congrArg Command.beginWhile values
  · simp [Command.names]

theorem color : Alike v Eq Read.color Read.color := by
  refine next.bind fun tok tok' same => ?_
  rw [← Token.kind_of_seen same]
  split
  next => exact unexpected rfl same
  next ident =>
    have names := Token.name_of_word same (by rw [Decidable.not_not.1 ident]; rfl)
    rw [← Text.ofName?_of_upperASCII (View.upperASCII_of_name names)]
    cases Color.ofName? tok.text with
    | none => exact fault rfl same
    | some c => exact (eat _).bind fun _ _ agree => .ite (by rw [agree]) (.pure rfl) (.pure rfl)

theorem colorChoice : Alike v (Command.Alike v) Read.colorChoice Read.colorChoice := by
  have ends (choice : ColorChoice) : Command.Alike v (.setColor choice) (.setColor choice) :=
    ⟨rfl, by simp [Command.names]⟩
  refine .bind (expect _ rfl).discard fun _ _ _ => .bind (expect _ rfl).discard fun _ _ _ => ?_
  refine peek.bind fun tok tok' same => ?_
  refine .ite (by rw [Token.kind_of_seen same]) (.pure (ends _)) ?_
  refine color.bind fun c c' colors => (eat _).bind fun more more' agree => ?_
  subst colors
  refine .ite (by rw [agree]) ?_ (.pure (ends _))
  refine .bind (color.map (Q := Eq) fun _ _ same => congrArg some same) fun b b' same => ?_
  subst same
  exact .pure (ends _)

theorem sayAt : Alike v (Command.Alike v) Read.sayAt Read.sayAt := by
  refine expression.bind fun row row' rows => .bind (expect _ rfl).discard fun _ _ _ => ?_
  refine expression.bind fun col col' cols => .bind (expect _ rfl).discard fun _ _ _ => ?_
  refine expression.bind fun value value' values => .pure ⟨?_, by simp [Command.names]⟩
  simp only [Command.seen]
  rw [rows, cols, values]

theorem printed (newline : Bool) :
    Alike v (Command.Alike v) (Read.printed newline) (Read.printed newline) := by
  have rounds (n : Nat) :
      SeenAlike v (List.map (Expr.seen v)) (expressionsWithin n) (expressionsWithin n) := by
    induction n with
    | zero => exact .pure rfl
    | succ n ih =>
        refine expression.bind fun e e' values => (eat _).bind fun more more' agree => ?_
        refine .ite (by rw [agree]) (ih.bind fun es es' rest => .pure ?_) (.pure ?_)
        · simp only [InvImage, List.map_cons]
          rw [values, rest]
        · exact congrArg (fun e => [e]) values
  refine peek.bind fun tok tok' same => ?_
  refine .ite (by rw [Token.kind_of_seen same]) (.pure ⟨rfl, by simp [Command.names]⟩) ?_
  refine bound.bind fun n m bounds => ?_
  subst bounds
  refine (rounds n).bind fun es es' values => .pure ⟨?_, by simp [Command.names]⟩
  exact congrArg (fun es => Command.print es newline) values

theorem classHead : Alike v (Command.Alike v) Read.classHead Read.classHead := by
  refine (identifier _).bind fun name name' ⟨same, word⟩ => ?_
  refine .bind (.discard (expect _ rfl)) fun _ _ _ => ?_
  refine next.bind fun base base' bases => ?_
  rw [← Token.kind_of_seen bases]
  cases Widget.ofKeyword? base.kind with
  | none => exact unexpected rfl bases
  | some widget =>
      have ending : Alike v (Command.Alike v)
          (do return Command.beginClass name widget (← Read.eat (.keyword .kwEndclass)))
          (do return Command.beginClass name' widget (← Read.eat (.keyword .kwEndclass))) := by
        refine (eat _).bind fun oneLine oneLine' agree => .pure ⟨?_, by simp [Command.names, word]⟩
        simp only [Command.seen]
        rw [same, agree]
      refine (eat _).bind fun opens opens' agree => .ite (by rw [agree]) ?_ ending
      refine openParen.bind fun _ _ _ => next.bind fun closing closing' closings => ?_
      refine .ite (by rw [Token.kind_of_seen closings]) ?_ (closeParen.bind fun _ _ _ => ending)
      exact .bind (R := Eq) (fault rfl closings) fun _ _ _ => closeParen.bind fun _ _ _ => ending

theorem propertyLine : Alike v (Command.Alike v) Read.propertyLine Read.propertyLine := by
  refine .bind (expect _ rfl).discard fun _ _ _ => next.bind fun name name' same => ?_
  have tail (word : name.kind.isNaming = true) : Alike v (Command.Alike v)
      (do
        Read.assignSign (.assignAfterThis name.text)
        return .property name (← Read.expression))
      (do
        Read.assignSign (.assignAfterThis name'.text)
        return .property name' (← Read.expression)) := by
    refine .bind (assignSign rfl) fun _ _ _ => expression.bind fun e e' values => .pure ⟨?_, ?_⟩
    · simp only [Command.seen]
      rw [same, values]
    · simp [Command.names, word]
  rw [← Token.kind_of_seen same]
  split
  next =>
    -- the failure leaves nothing to read behind it
    exact .bind (R := fun _ _ => False) (unexpected rfl same) fun _ _ none => none.elim
  next named =>
    refine tail ?_
    cases kind : name.kind <;> simp [kind, Kind.isKeyword, Kind.isNaming] at named ⊢

theorem cannotStart {tok tok' : Token} (same : tok.seen v = tok'.seen v) :
    Alike v (Command.Alike v) (Read.cannotStart tok) (Read.cannotStart tok') := by
  refine next.discard.bind fun _ _ _ => (isAt _).bind fun a a' first =>
    (isAt _).bind fun b b' second => ?_
  exact .ite (by rw [first, second]) (fault rfl same) (fault rfl same)

theorem after {x y : Read Command} (h : Alike v (Command.Alike v) x y) :
    Alike v (Command.Alike v) (Read.after x) (Read.after y) :=
  next.discard.bind fun _ _ _ => h

/-- The two runs of a reader that looks at the next token first. -/
theorem peeking {f g : Token → Read α}
    (h : ∀ tok tok' r s, tok.seen v = tok'.seen v → r.seen v = s.seen v →
      outcome Read.peek r = (.ok tok, r) →
        Ends (InvImage Eq (Fault.seen v)) R (outcome (f tok) r).1 (outcome (g tok') s).1 ∧
          (outcome (f tok) r).2.seen v = (outcome (g tok') s).2.seen v) :
    Alike v R (Read.peek >>= f) (Read.peek >>= g) := by
  intro r s alike
  obtain ⟨ends, after⟩ := peek r s alike
  have stays (r : Reading) : (outcome Read.peek r).2 = r := by
    obtain ⟨⟨_ | ⟨tok, toks⟩, _ | _⟩, n⟩ := r <;> rfl
  rw [outcome_bind, outcome_bind]
  cases first : outcome Read.peek r with
  | mk result r' =>
      cases second : outcome Read.peek s with
      | mk result' s' =>
          have hr := stays r
          have hs := stays s
          rw [first] at hr
          rw [second] at hs
          subst hr hs
          rw [first, second] at ends
          cases ends with
          | ok same => exact h _ _ _ _ same alike first
          | error same => exact ⟨.error same, alike⟩

/-- Lines that look the same are read as commands that look the same. -/
theorem command : Alike v (Command.Alike v) Read.command Read.command := by
  have plain (c : Command) (nameless : c.names = []) :
      Alike v (Command.Alike v) (Read.after (Pure.pure c)) (Read.after (Pure.pure c)) :=
    after (.pure ⟨rfl, by simp [nameless]⟩)
  refine peeking fun tok tok' r s same alike peeked => ?_
  rw [← Token.kind_of_seen same]
  cases kind : tok.kind with
  | ident => exact assignment alike peeked kind
  | atSign => exact after sayAt r s alike
  | question => exact after (printed true) r s alike
  | questionQuestion => exact after (printed false) r s alike
  | keyword word =>
      cases word with
      | kwParameter =>
          refine after ((identifiers _).map fun toks toks' names => ?_) r s alike
          exact ⟨congrArg Command.parameters names.1, names.2⟩
      | kwLocal =>
          refine after ((identifiers _).map fun toks toks' names => ?_) r s alike
          exact ⟨congrArg Command.declare names.1, names.2⟩
      | kwIf =>
          refine after (expression.map fun e e' values => ?_) r s alike
          exact ⟨congrArg Command.beginIf values, by simp [Command.names]⟩
      | kwElse | kwEndif | kwEnddo | kwReturn | kwEndclass => exact plain _ rfl r s alike
      | kwFor => exact after forHead r s alike
      | kwNext => exact after forEnd r s alike
      | kwDo => exact after whileHead r s alike
      | kwSet => exact after colorChoice r s alike
      | kwClass => exact after classHead r s alike
      | kwThis => exact after propertyLine r s alike
      | _ => exact cannotStart same r s alike
  | reserved => exact cannotStart same r s alike
  | _ => exact unexpected rfl same r s alike

end Alike

end Read

end PrgScript
