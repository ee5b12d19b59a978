import PrgScript.Proofs.Reading
import PrgScript.Script.Expression

/-!
# The grammar of expressions

Expressions form eight levels, from disjunctions to primary expressions. The
rules of a level are few: a two-sided operator between an expression of the
level and one of the next tighter level, a one-sided operator before an
expression of its own level, or simply an expression of the next level. So
two-sided operators group to the left, and only parentheses lead back to the
weakest level.

The reader climbs the same levels by loops, with bounds that it takes from the
line. `reads_expression` and `takes_expression` say that the two agree: what
the reader accepts has a derivation, and what has a derivation, followed by
anything that cannot go on with it, is read as derived.
-/

namespace PrgScript

open Step Read

/-- Whether a token of a kind behind an expression would be read as part of it. -/
def Kind.goesOn : Kind → Bool
  | .lParen | .or | .and | .eq | .eqEq | .notEq | .lt | .ltEq | .gt | .gtEq | .plus | .minus | .star
  | .slash => true
  | _ => false

namespace Grammar

/-- The levels of expressions, from the weakest binding to the strongest. -/
inductive Level where
  | disjunction | conjunction | negation | comparison | sum | product | sign | primary
deriving DecidableEq

namespace Level

/-- The level whose expressions are the operands of a level. -/
def tighter : Level → Level
  | .disjunction => .conjunction
  | .conjunction => .negation
  | .negation => .comparison
  | .comparison => .sum
  | .sum => .product
  | .product => .sign
  | .sign | .primary => .primary

/-- Whether the operators of a level stand between two operands. -/
def isTwoSided : Level → Bool
  | .negation | .sign | .primary => false
  | _ => true

/-- Whether an expression of a level may start with a token of a kind. -/
def starts : Level → Kind → Bool
  | _, .number | _, .string | _, .logical | _, .ident | _, .lParen => true
  | .primary, _ => false
  | _, .plus | _, .minus => true
  | .disjunction, .not | .conjunction, .not | .negation, .not => true
  | _, _ => false

end Level

inductive TwoSided : Level → Kind → Op → Prop
  | or : TwoSided .disjunction .or .or
  | and : TwoSided .conjunction .and .and
  | eq : TwoSided .comparison .eq .eq
  | exactEq : TwoSided .comparison .eqEq .exactEq
  | ne : TwoSided .comparison .notEq .ne
  | lt : TwoSided .comparison .lt .lt
  | le : TwoSided .comparison .ltEq .le
  | gt : TwoSided .comparison .gt .gt
  | ge : TwoSided .comparison .gtEq .ge
  | add : TwoSided .sum .plus .add
  | sub : TwoSided .sum .minus .sub
  | mul : TwoSided .product .star .mul
  | div : TwoSided .product .slash .div

inductive OneSided : Level → Kind → Op → Prop
  | not : OneSided .negation .not .not
  | neg : OneSided .sign .minus .neg
  | pos : OneSided .sign .plus .pos

/-- The operator of a level that a kind of token stands for. -/
def Level.op? : Level → Kind → Option Op
  | .disjunction => orOp?
  | .conjunction => andOp?
  | .negation => notOp?
  | .comparison => comparisonOp?
  | .sum => sumOp?
  | .product => productOp?
  | .sign => signOp?
  | .primary => fun _ => none

section Levels

variable {level : Level} {kind : Kind} {op : Op}

theorem Level.op?_twoSided (sides : level.isTwoSided = true) :
    level.op? kind = some op ↔ TwoSided level kind op := by
  constructor
  · intro h
    cases level <;> simp only [isTwoSided, Bool.false_eq_true] at sides
    all_goals
      simp only [op?, orOp?, andOp?, comparisonOp?, sumOp?, productOp?] at h
      split at h <;> cases h <;> constructor
  · intro h
    cases h <;> rfl

theorem Level.op?_oneSided (sides : level.isTwoSided = false) :
    level.op? kind = some op ↔ OneSided level kind op := by
  constructor
  · intro h
    cases level <;> simp only [isTwoSided, Bool.true_eq_false] at sides
    case primary => cases h
    all_goals
      simp only [op?, notOp?, signOp?] at h
      split at h <;> cases h <;> constructor
  · intro h
    cases h <;> rfl

theorem TwoSided.isInner (h : TwoSided level kind op) : kind.isInner = true := by
  cases h <;> rfl

theorem TwoSided.goesOn (h : TwoSided level kind op) : kind.goesOn = true := by
  cases h <;> rfl

theorem Level.op?_eq_none (sides : level.isTwoSided = true) (stops : kind.goesOn = false) :
    level.op? kind = none := by
  cases found : level.op? kind with
  | none => rfl
  | some op =>
      have goesOn := ((op?_twoSided sides).1 found).goesOn
      simp [stops] at goesOn

theorem OneSided.isInner (h : OneSided level kind op) : kind.isInner = true := by
  cases h <;> rfl

theorem TwoSided.sides (h : TwoSided level kind op) : level.isTwoSided = true := by
  cases h <;> rfl

theorem OneSided.sides (h : OneSided level kind op) : level.isTwoSided = false := by
  cases h <;> rfl

theorem OneSided.higher (h : OneSided level kind op) : level ≠ .primary := by
  cases h <;> decide

theorem OneSided.starts (h : OneSided level kind op) : level.starts kind = true := by
  cases h <;> rfl

theorem Level.starts_of_tighter (h : level.tighter.starts kind = true) :
    level.starts kind = true := by
  cases level <;> cases kind <;> simp_all [Level.starts, Level.tighter]

theorem Level.isEnd_of_starts (h : level.starts kind = true) : kind.isEnd = false := by
  cases level <;> cases kind <;> simp_all [Level.starts, Kind.isEnd]

end Levels

/-- The expressions of a level: their tokens and their trees. `combine` builds the tree of a
two-sided operator. -/
inductive Expression (combine : Combine) : Level → List Token → Expr → Prop
  | number {tok : Token} {value : Float} (kind : tok.kind = .number)
      (reads : Number.read tok.text = .ok value) :
      Expression combine .primary [tok] (.number value tok.line)
  | string {tok : Token} (kind : tok.kind = .string) :
      Expression combine .primary [tok] (.string tok.value tok.line)
  | logical {tok : Token} (kind : tok.kind = .logical) :
      Expression combine .primary [tok] (.logical (tok.value == "T") tok.line)
  | name {tok : Token} (kind : tok.kind = .ident) :
      Expression combine .primary [tok] (.ident tok.text tok.line)
  | parens {opening closing : Token} {toks : List Token} {e : Expr}
      (opens : opening.kind = .lParen) (inner : Expression combine .disjunction toks e)
      (closes : closing.kind = .rParen) :
      Expression combine .primary (opening :: (toks ++ [closing])) e
  | oneSided {level : Level} {tok : Token} {op : Op} {toks : List Token} {e : Expr}
      (sign : OneSided level tok.kind op) (operand : Expression combine level toks e) :
      Expression combine level (tok :: toks) (.unary op e tok.line)
  | twoSided {level : Level} {tok : Token} {op : Op} {xs ys : List Token} {x y : Expr}
      (left : Expression combine level xs x) (sign : TwoSided level tok.kind op)
      (right : Expression combine level.tighter ys y) :
      Expression combine level (xs ++ tok :: ys) (combine op x y tok.line)
  | tighter {level : Level} {toks : List Token} {e : Expr} (higher : level ≠ .primary)
      (operand : Expression combine level.tighter toks e) : Expression combine level toks e

namespace Expression

variable {combine : Combine} {level : Level} {toks : List Token} {e : Expr}

/-- An expression has a first token, of a kind that its level may start with. -/
theorem starts (h : Expression combine level toks e) :
    ∃ tok more, toks = tok :: more ∧ level.starts tok.kind = true := by
  induction h with
  | number kind | string kind | logical kind | name kind =>
      exact ⟨_, [], rfl, by rw [kind]; rfl⟩
  | parens opens _ _ _ => exact ⟨_, _, rfl, by rw [opens]; rfl⟩
  | oneSided sign _ _ => exact ⟨_, _, rfl, sign.starts⟩
  | twoSided _ _ _ ih _ =>
      obtain ⟨tok, more, rfl, kind⟩ := ih
      exact ⟨tok, _, rfl, kind⟩
  | tighter _ _ ih =>
      obtain ⟨tok, more, rfl, kind⟩ := ih
      exact ⟨tok, more, rfl, Level.starts_of_tighter kind⟩

end Expression

end Grammar

/-! ### What the reader accepts has a derivation -/

namespace Read

open Grammar

variable {combine : Combine} {level : Level} {operand : Read Expr}

theorem reads_leftAssocFrom (sides : level.isTwoSided = true)
    (h : Reads operand (Expression combine level.tighter)) (rounds : Nat) {left : Expr}
    {used : List Token} (derived : Expression combine level used left) :
    Reads (leftAssocFrom combine level.op? operand rounds left) fun more e =>
      Expression combine level (used ++ more) e := by
  induction rounds generalizing left used with
  | zero => exact .pure (by simpa using derived)
  | succ rounds ih =>
      rw [leftAssocFrom]
      refine .choose fun tok => ?_
      cases found : level.op? tok.kind with
      | none => exact .inl (.pure (by simpa using derived))
      | some op =>
          have sign := (Level.op?_twoSided sides).1 found
          refine .inr ⟨sign.isInner, _, fun _ _ _ => rfl, h.bind fun right more derivedRight => ?_⟩
          exact (ih (.twoSided derived sign derivedRight)).mono fun rest e d => by simpa using d

theorem reads_leftAssoc (sides : level.isTwoSided = true)
    (h : Reads operand (Expression combine level.tighter)) :
    Reads (leftAssoc combine level.op? operand) (Expression combine level) := by
  have higher : level ≠ .primary := by
    rintro rfl
    cases sides
  refine h.bind fun left used derived => ?_
  intro toks ending n e r ends ran
  rw [outcome_bind_of_ok (outcome_bound toks ending n)] at ran
  exact reads_leftAssocFrom sides h _ (.tighter higher derived) ends ran

theorem reads_unaryWithin (sides : level.isTwoSided = false) (higher : level ≠ .primary)
    (h : Reads operand (Expression combine level.tighter)) (rounds : Nat) :
    Reads (unaryWithin level.op? operand rounds) (Expression combine level) := by
  have alone : Reads operand (Expression combine level) := h.mono fun _ _ d => .tighter higher d
  induction rounds with
  | zero => exact alone
  | succ rounds ih =>
      rw [unaryWithin]
      refine .choose fun tok => ?_
      cases found : level.op? tok.kind with
      | none => exact .inl alone
      | some op =>
          have sign := (Level.op?_oneSided sides).1 found
          refine .inr ⟨sign.isInner, _, fun _ _ _ => rfl, ih.bind fun e used derived => ?_⟩
          exact .pure (by simpa using .oneSided sign derived)

theorem reads_unaryChain (sides : level.isTwoSided = false) (higher : level ≠ .primary)
    (h : Reads operand (Expression combine level.tighter)) :
    Reads (unaryChain level.op? operand) (Expression combine level) := by
  intro toks ending n e r ends ran
  rw [unaryChain, outcome_bind_of_ok (outcome_bound toks ending n)] at ran
  exact reads_unaryWithin sides higher h _ ends ran

theorem reads_parenthesized {inner : Read Expr}
    (h : Reads inner (Expression combine .disjunction)) {opening : Token}
    (kind : opening.kind = .lParen) {toks : List Token} {ending : LineEnd} {n : Int} {e : Expr}
    {r : Reading} (ends : ending.Closes)
    (ran : outcome (parenthesized inner opening) ⟨⟨toks, ending⟩, n⟩ = (.ok e, r)) :
    ∃ used rest, toks = used ++ rest ∧
      r = ⟨⟨rest, ending⟩, parensAfter n (opening :: used)⟩ ∧
      Expression combine .primary (opening :: used) e := by
  rw [parenthesized, outcome_bind_of_ok (outcome_openParen toks ending n)] at ran
  obtain ⟨e', r₁, ran₁, ran₂⟩ := outcome_bind_eq_ok.1 ran
  obtain ⟨used, rest, rfl, rfl, derived⟩ := h ends ran₁
  cases rest with
  | nil =>
      cases ending with
      | error error => simp [outcome_bind] at ran₂
      | token stop =>
          have last := ends stop rfl
          rw [outcome_bind_of_ok (outcome_next_nil stop _)] at ran₂
          split at ran₂
          next closes => simp [closes, Kind.isEnd] at last
          next => simp at ran₂
  | cons closing rest =>
      rw [outcome_bind_of_ok (outcome_next_cons closing rest ending _)] at ran₂
      split at ran₂
      next closes =>
        rw [outcome_bind_of_ok (outcome_closeParen rest ending _)] at ran₂
        cases ran₂
        refine ⟨used ++ [closing], rest, by simp, ?_, .parens kind derived closes⟩
        simp [parensAfter_open kind, parensAfter_close closes]
      next => simp at ran₂

theorem reads_primary {inner : Read Expr} (h : Reads inner (Expression combine .disjunction)) :
    Reads (primary inner) (Expression combine .primary) := by
  intro toks ending n e r ends ran
  cases toks with
  | nil =>
      cases ending with
      | error error => simp [primary, outcome_bind] at ran
      | token stop =>
          have last := ends stop rfl
          rw [primary, outcome_bind_of_ok (outcome_next_nil stop n)] at ran
          cases kind : stop.kind <;> simp only [kind, Kind.isEnd, Bool.false_eq_true] at last
          all_goals
            simp only [kind, Kind.isKeyword, Bool.false_eq_true, if_false] at ran
            exact (outcome_unexpected_ne _ _ _ _ _ ran).elim
  | cons tok toks =>
      rw [primary, outcome_bind_of_ok (outcome_next_cons tok toks ending n)] at ran
      have alone {e : Expr} (inner : tok.kind.isInner = true)
          (derived : Expression combine .primary [tok] e) :
          ∃ used rest, tok :: toks = used ++ rest ∧
            (⟨⟨toks, ending⟩, n⟩ : Reading) = ⟨⟨rest, ending⟩, parensAfter n used⟩ ∧
            Expression combine .primary used e :=
        ⟨[tok], toks, rfl, by rw [parensAfter_inner inner, parensAfter_nil], derived⟩
      split at ran
      next kind =>
        split at ran
        next value reads =>
          cases ran
          exact alone (by rw [kind]; rfl) (.number kind reads)
        next => simp at ran
      next kind =>
        cases ran
        exact alone (by rw [kind]; rfl) (.string kind)
      next kind =>
        cases ran
        exact alone (by rw [kind]; rfl) (.logical kind)
      next kind =>
        rw [outcome_bind_of_ok (outcome_isAt toks ending n .lParen)] at ran
        split at ran
        · simp at ran
        · cases ran
          exact alone (by rw [kind]; rfl) (.name kind)
      next kind =>
        obtain ⟨used, rest, rfl, rfl, derived⟩ := reads_parenthesized h kind ends ran
        exact ⟨tok :: used, rest, rfl, rfl, derived⟩
      next =>
        split at ran
        · simp at ran
        · exact (outcome_unexpected_ne _ _ _ _ _ ran).elim

theorem reads_levels {primary : Read Expr} (h : Reads primary (Expression combine .primary)) :
    Reads (levels combine primary) (Expression combine .disjunction) := by
  have signed : Reads _ (Expression combine .sign) := reads_unaryChain rfl (by decide) h
  have product : Reads _ (Expression combine .product) := reads_leftAssoc rfl signed
  have sum : Reads _ (Expression combine .sum) := reads_leftAssoc rfl product
  have comparison : Reads _ (Expression combine .comparison) := reads_leftAssoc rfl sum
  have negation : Reads _ (Expression combine .negation) :=
    reads_unaryChain rfl (by decide) comparison
  have conjunction : Reads _ (Expression combine .conjunction) := reads_leftAssoc rfl negation
  have disjunction : Reads _ (Expression combine .disjunction) := reads_leftAssoc rfl conjunction
  exact disjunction

theorem reads_nested (depth : Nat) :
    Reads (nested combine depth) (Expression combine .disjunction) := by
  induction depth with
  | zero => exact .choose fun tok => .inl (.unexpected _ tok)
  | succ depth ih => exact reads_levels (reads_primary ih)

/-- What is read as an expression is one. -/
theorem reads_expression : Reads (expressionWith combine) (Expression combine .disjunction) := by
  intro toks ending n e r ends ran
  rw [expressionWith, outcome_bind_of_ok (outcome_bound toks ending n)] at ran
  exact reads_nested _ ends ran

/-! ### What has a derivation is read as derived -/

/-- The expressions of a level with fewer than `bound` tokens. A reader of bounded nesting is right
about these. -/
def Within (combine : Combine) (bound : Nat) (level : Level) (toks : List Token) (e : Expr) :
    Prop :=
  Expression combine level toks e ∧ toks.length < bound

section Takes

variable {bound : Nat} {F : Kind → Prop}

/-- Reading an expression of a level with two-sided operators comes to reading on after it with
enough rounds left. The induction follows the operators from the left; the loop has then just read
the left operand. -/
theorem leftAssoc_after (sides : level.isTwoSided = true)
    (h : Takes operand (Within combine bound level.tighter) F)
    (before : ∀ kind op, level.op? kind = some op → F kind) {used : List Token} {e : Expr}
    (derived : Expression combine level used e) (short : used.length < bound)
    (rest : List Token) (stop : Token) (n : Int) (follow : F (front rest stop).kind) :
    ∃ rounds, rest.length < rounds ∧
      outcome (leftAssoc combine level.op? operand) ⟨⟨used ++ rest, .token stop⟩, n⟩ =
        outcome (leftAssocFrom combine level.op? operand rounds e)
          ⟨⟨rest, .token stop⟩, parensAfter n used⟩ := by
  induction derived generalizing rest with
  | number | string | logical | name | parens => cases sides
  | oneSided sign => exact absurd (sign.sides.symm.trans sides) (by decide)
  | tighter _ operand' =>
      refine ⟨rest.length + 1, Nat.lt_succ_self _, ?_⟩
      rw [leftAssoc, outcome_bind_of_ok (h rest stop n ⟨operand', short⟩ follow)]
      rw [outcome_bind_of_ok (outcome_bound rest _ _)]
  | @twoSided level tok op xs ys x y left sign right ihLeft _ =>
      have found := (Level.op?_twoSided sides).2 sign
      have shortLeft : xs.length < bound := by simp at short; omega
      have shortRight : ys.length < bound := by simp at short; omega
      obtain ⟨rounds, enough, ran⟩ :=
        ihLeft sides h before shortLeft (tok :: (ys ++ rest)) (before _ _ found)
      obtain ⟨rounds, rfl⟩ : ∃ k, rounds = k + 1 := ⟨rounds - 1, by omega⟩
      refine ⟨rounds, by simp at enough; omega, ?_⟩
      have taken := h rest stop (parensAfter n xs) ⟨right, shortRight⟩ follow
      rw [List.append_assoc, List.cons_append, ran, leftAssocFrom,
        outcome_bind_of_ok (outcome_peek_cons ..)]
      simp only [found]
      rw [outcome_bind_of_ok (outcome_discard_next_cons ..), outcome_bind_of_ok taken,
        parensAfter_append, parensAfter_inner sign.isInner]

theorem takes_leftAssoc (sides : level.isTwoSided = true)
    (h : Takes operand (Within combine bound level.tighter) F)
    (before : ∀ kind op, level.op? kind = some op → F kind) :
    Takes (leftAssoc combine level.op? operand) (Within combine bound level) fun kind =>
      F kind ∧ level.op? kind = none := by
  intro used e rest stop n derived follow
  obtain ⟨rounds, enough, ran⟩ :=
    leftAssoc_after sides h before derived.1 derived.2 rest stop n follow.1
  obtain ⟨rounds, rfl⟩ : ∃ k, rounds = k + 1 := ⟨rounds - 1, by omega⟩
  rw [ran, leftAssocFrom, outcome_bind_of_ok (outcome_peek_front ..)]
  simp only [follow.2]
  rfl

theorem takes_unaryWithin (sides : level.isTwoSided = false) (higher : level ≠ .primary)
    (h : Takes operand (Within combine bound level.tighter) F)
    (first : ∀ kind, level.tighter.starts kind = true → level.op? kind = none) {used : List Token}
    {e : Expr} (derived : Expression combine level used e) (short : used.length < bound)
    (rest : List Token) (stop : Token) (n : Int) (follow : F (front rest stop).kind)
    {rounds : Nat} (enough : used.length < rounds) :
    outcome (unaryWithin level.op? operand rounds) ⟨⟨used ++ rest, .token stop⟩, n⟩ =
      (.ok e, ⟨⟨rest, .token stop⟩, parensAfter n used⟩) := by
  obtain ⟨rounds, rfl⟩ : ∃ k, rounds = k + 1 := ⟨rounds - 1, by omega⟩
  induction derived generalizing rounds with
  | number | string | logical | name | parens => exact absurd rfl higher
  | twoSided _ sign => exact absurd (sign.sides.symm.trans sides) (by decide)
  | tighter _ operand' =>
      have taken := h rest stop n ⟨operand', short⟩ follow
      obtain ⟨tok, more, rfl, kind⟩ := operand'.starts
      rw [List.cons_append] at taken ⊢
      rw [unaryWithin, outcome_bind_of_ok (outcome_peek_cons ..)]
      simp only [first _ kind]
      exact taken
  | @oneSided level tok op toks e sign operand' ih =>
      have found := (Level.op?_oneSided sides).2 sign
      simp only [List.length_cons] at short enough
      obtain ⟨rounds, rfl⟩ : ∃ k, rounds = k + 1 := ⟨rounds - 1, by omega⟩
      have taken := ih sides higher h first (by omega) rounds (by omega)
      rw [List.cons_append, unaryWithin, outcome_bind_of_ok (outcome_peek_cons ..)]
      simp only [found]
      rw [outcome_bind_of_ok (outcome_discard_next_cons ..), outcome_bind_of_ok taken,
        parensAfter_inner sign.isInner]
      rfl

theorem takes_unaryChain (sides : level.isTwoSided = false) (higher : level ≠ .primary)
    (h : Takes operand (Within combine bound level.tighter) F)
    (first : ∀ kind, level.tighter.starts kind = true → level.op? kind = none) :
    Takes (unaryChain level.op? operand) (Within combine bound level) F := by
  intro used e rest stop n derived follow
  rw [unaryChain, outcome_bind_of_ok (outcome_bound ..)]
  exact takes_unaryWithin sides higher h first derived.1 derived.2 rest stop n follow
    (by simp only [List.length_append]; omega)

theorem takes_primary {inner : Read Expr} (h : Takes inner (Within combine bound .disjunction) F)
    (close : F .rParen) :
    Takes (primary inner) (Within combine (bound + 1) .primary) (· ≠ .lParen) := by
  intro used e rest stop n derived follow
  obtain ⟨derived, short⟩ := derived
  cases derived with
  | number kind reads =>
      rw [List.singleton_append, primary, outcome_bind_of_ok (outcome_next_cons ..)]
      simp [kind, reads, parensAfter_inner, Kind.isInner]
  | string kind =>
      rw [List.singleton_append, primary, outcome_bind_of_ok (outcome_next_cons ..)]
      simp [kind, parensAfter_inner, Kind.isInner]
  | logical kind =>
      rw [List.singleton_append, primary, outcome_bind_of_ok (outcome_next_cons ..)]
      simp [kind, parensAfter_inner, Kind.isInner]
  | name kind =>
      have alone : rest.head?.any (·.kind == .lParen) = false := by
        cases rest with
        | nil => rfl
        | cons tok rest => simpa using follow
      rw [List.singleton_append, primary, outcome_bind_of_ok (outcome_next_cons ..)]
      simp [kind, alone, outcome_bind, parensAfter_inner, Kind.isInner]
  | @parens opening closing toks _ opens inner' closes =>
      have taken := h (closing :: rest) stop (openedParens n)
        ⟨inner', by simp at short; omega⟩ (by simpa [closes] using close)
      rw [List.cons_append, List.append_assoc, List.singleton_append, primary,
        outcome_bind_of_ok (outcome_next_cons ..)]
      simp only [opens]
      rw [parenthesized, outcome_bind_of_ok (outcome_openParen ..), outcome_bind_of_ok taken,
        outcome_bind_of_ok (outcome_next_cons ..)]
      simp only [closes, if_true]
      rw [outcome_bind_of_ok (outcome_closeParen ..)]
      simp [parensAfter_open opens, parensAfter_close closes]
  | oneSided sign => exact absurd rfl sign.higher
  | twoSided _ sign => exact absurd sign.sides (by decide)
  | tighter higher => exact absurd rfl higher

theorem takes_levels {primary : Read Expr}
    (h : Takes primary (Within combine bound .primary) (· ≠ .lParen)) :
    Takes (levels combine primary) (Within combine bound .disjunction)
      fun kind => kind.goesOn = false := by
  have tables {level : Level} (sides : level.isTwoSided = true) {kind : Kind} {op : Op}
      (found : level.op? kind = some op) : TwoSided level kind op :=
    (Level.op?_twoSided sides).1 found
  have signed : Takes _ (Within combine bound .sign) _ :=
    takes_unaryChain rfl (by decide) h
      (by intro kind; cases kind <;> simp [Level.starts, Level.tighter, Level.op?, signOp?])
  have product : Takes _ (Within combine bound .product) _ :=
    takes_leftAssoc rfl signed (by intro _ _ found; cases tables rfl found <;> decide)
  have sum : Takes _ (Within combine bound .sum) _ :=
    takes_leftAssoc rfl product (by intro _ _ found; cases tables rfl found <;> decide)
  have comparison : Takes _ (Within combine bound .comparison) _ :=
    takes_leftAssoc rfl sum (by intro _ _ found; cases tables rfl found <;> decide)
  have negation : Takes _ (Within combine bound .negation) _ :=
    takes_unaryChain rfl (by decide) comparison
      (by intro kind; cases kind <;> simp [Level.starts, Level.tighter, Level.op?, notOp?])
  have conjunction : Takes _ (Within combine bound .conjunction) _ :=
    takes_leftAssoc rfl negation (by intro _ _ found; cases tables rfl found; decide)
  have disjunction : Takes _ (Within combine bound .disjunction) _ :=
    takes_leftAssoc rfl conjunction (by intro _ _ found; cases tables rfl found; decide)
  refine disjunction.weaken fun kind stops => ?_
  have opening : kind ≠ .lParen := by
    rintro rfl
    cases stops
  exact ⟨⟨⟨⟨⟨opening, Level.op?_eq_none rfl stops⟩, Level.op?_eq_none rfl stops⟩,
    Level.op?_eq_none rfl stops⟩, Level.op?_eq_none rfl stops⟩, Level.op?_eq_none rfl stops⟩

theorem takes_nested (depth : Nat) :
    Takes (nested combine depth) (Within combine depth .disjunction)
      fun kind => kind.goesOn = false := by
  induction depth with
  | zero => exact fun _ _ _ _ _ derived => absurd derived.2 (Nat.not_lt_zero _)
  | succ depth ih => exact takes_levels (takes_primary ih rfl)

end Takes

/-- An expression is read as one if the token behind it cannot go on with it. -/
theorem takes_expression :
    Takes (expressionWith combine) (Expression combine .disjunction)
      fun kind => kind.goesOn = false := by
  intro used e rest stop n derived follow
  rw [expressionWith, outcome_bind_of_ok (outcome_bound ..)]
  exact takes_nested _ rest stop n ⟨derived, by simp only [List.length_append]; omega⟩ follow

end Read

end PrgScript
