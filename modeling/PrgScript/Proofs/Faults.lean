import PrgScript.Proofs.Keeps
import PrgScript.Proofs.Reading
import PrgScript.Proofs.Scan
import PrgScript.Script.Command
import PrgScript.Script.Context

/-!
# What faults speak of

Most causes of a fault say what is wrong with a script. Three of them say that
the compiler has lost track: the builder has refused a call, the build could not
be finished, or the branches were miscounted. None of the parts that look at the
script raises one of those three. What they find fault with is a token of the script:
one they have taken or one they look at. `Read.Among` says both of a reader, and is
handed on from the parts of a reader to the whole; the scanner and the context are
looked at below.
-/

namespace PrgScript

open Step

/-- Whether a cause says that the compiler has lost track. -/
def Cause.isInternal : Cause → Bool
  | .countMismatch .. | .buildRefused _ | .buildUnfinished _ => true
  | _ => false

def Fault.isInternal : Fault → Bool
  | .at cause _ => cause.isInternal
  | .scan e => e.cause.isInternal

/-- A line that ends, or stops at an error that speaks of the script. -/
def LineEnd.IsClean (ending : LineEnd) : Prop :=
  ∀ e, ending = .error e → e.cause.isInternal = false

/-! ### Reading -/

section Among

variable (T : Token → Prop) (E : ScriptError → Prop)

/-- A line of tokens that satisfy `T`, which ends with such a token or with an error in `E`. -/
structure Line.Among (line : Line) : Prop where
  tokens : ∀ tok ∈ line.tokens, T tok
  ending : ∀ tok, line.ending = .token tok → T tok
  error : ∀ e, line.ending = .error e → E e

/-- A fault of the script at a token that satisfies `T`, or an error in `E` that scanning has
met. -/
def Fault.Found : Fault → Prop
  | .at cause tok => cause.isInternal = false ∧ T tok
  | .scan e => E e

/-- A reader that finds fault with tokens of its line only. -/
abbrev Read.Among {α : Type} (R : α → Prop) (x : Read α) : Prop :=
  Keeps (fun r : Reading => r.line.Among T E) (Fault.Found T E) R x

/-- The tokens that a command may be warned of. -/
def Command.Names : Command → Prop
  | .declare names => ∀ tok ∈ names, T tok
  | .endFor (some tok) => T tok
  | _ => True

end Among

namespace Read.Among

variable {T : Token → Prop} {E : ScriptError → Prop} {α : Type}

/-- Readers whose value does not matter. -/
abbrev Plain (T : Token → Prop) (E : ScriptError → Prop) (x : Read α) : Prop :=
  Read.Among T E (fun _ => True) x

theorem fault {R : α → Prop} {tok : Token} {cause : Cause} (outer : cause.isInternal = false)
    (mine : T tok) : Read.Among T E R (throw (.at cause tok) : Read α) :=
  Keeps.throw ⟨outer, mine⟩

theorem done (a : α) : Plain T E (pure a : Read α) := Keeps.pure trivial

theorem peek : Read.Among T E T Read.peek := by
  rintro ⟨⟨toks, ending⟩, n⟩ within
  cases toks with
  | cons tok toks =>
      rw [outcome_peek_cons]
      refine ⟨within, fun a same => ?_, fun e same => by cases same⟩
      cases same
      exact within.tokens tok (by simp)
  | nil =>
      cases ending with
      | token tok =>
          rw [outcome_peek_nil]
          refine ⟨within, fun a same => ?_, fun e same => by cases same⟩
          cases same
          exact within.ending tok rfl
      | error e =>
          rw [outcome_peek_error]
          refine ⟨within, (fun a same => by cases same), fun e' same => ?_⟩
          cases same
          exact within.error e rfl

theorem next : Read.Among T E T Read.next := by
  refine peek.bind fun tok mine => Keeps.bind (Keeps.modifyState fun r within => ?_) fun _ _ =>
    Keeps.pure mine
  exact ⟨fun tok mem => within.tokens tok (List.mem_of_mem_tail mem), within.ending, within.error⟩

theorem isAt (kind : Kind) : Plain T E (Read.isAt kind) := Keeps.get.bind fun _ _ => done _

theorem bound : Plain T E Read.bound := Keeps.get.bind fun _ _ => done _

theorem openParen : Plain T E Read.openParen :=
  Keeps.modifyState fun _ within => ⟨within.tokens, within.ending, within.error⟩

theorem closeParen : Plain T E Read.closeParen :=
  Keeps.modifyState fun _ within => ⟨within.tokens, within.ending, within.error⟩

theorem unexpected {R : α → Prop} (wanted : Wanted) {tok : Token} (mine : T tok) :
    Read.Among T E R (Read.unexpected wanted tok : Read α) :=
  Keeps.get.bind fun _ _ => Keeps.ite (fault rfl mine) (fault rfl mine)

theorem eat (kind : Kind) : Plain T E (Read.eat kind) :=
  peek.bind fun _ _ => Keeps.ite (next.discard.bind fun _ _ => done _) (done _)

theorem expect (kind : Kind) (wanted : Wanted) : Read.Among T E T (Read.expect kind wanted) :=
  next.bind fun _ mine => Keeps.ite (Keeps.pure mine) (unexpected wanted mine)

theorem expectEnd : Plain T E Read.expectEnd :=
  peek.bind fun _ mine => Keeps.ite (done _) (unexpected _ mine)

/-! ### Expressions -/

section Expression

variable {combine : Combine} {op? : Kind → Option Op} {operand : Read Expr}

theorem leftAssoc (h : Plain T E operand) : Plain T E (Read.leftAssoc combine op? operand) := by
  have rounds (n : Nat) (left : Expr) : Plain T E (leftAssocFrom combine op? operand n left) := by
    induction n generalizing left with
    | zero => exact done left
    | succ n ih =>
        refine peek.bind fun tok _ => ?_
        cases op? tok.kind with
        | none => exact done left
        | some op => exact next.discard.bind fun _ _ => h.bind fun right _ => ih _
  exact h.bind fun left _ => bound.bind fun n _ => rounds n left

theorem unaryChain (h : Plain T E operand) : Plain T E (Read.unaryChain op? operand) := by
  have rounds (n : Nat) : Plain T E (unaryWithin op? operand n) := by
    induction n with
    | zero => exact h
    | succ n ih =>
        refine peek.bind fun tok _ => ?_
        cases op? tok.kind with
        | none => exact h
        | some op => exact next.discard.bind fun _ _ => ih.bind fun x _ => done _
  exact bound.bind fun n _ => rounds n

theorem primary {inner : Read Expr} (h : Plain T E inner) : Plain T E (Read.primary inner) := by
  refine next.bind fun tok mine => ?_
  split
  · split
    · exact done _
    · exact fault rfl mine
  · exact done _
  · exact done _
  · exact (isAt _).bind fun _ _ => Keeps.ite (fault rfl mine) (done _)
  · exact openParen.bind fun _ _ => h.bind fun e _ => next.bind fun _ _ =>
      Keeps.ite (closeParen.bind fun _ _ => done e) (fault rfl mine)
  · exact Keeps.ite (fault rfl mine) (unexpected _ mine)

theorem levels {primary : Read Expr} (h : Plain T E primary) :
    Plain T E (Read.levels combine primary) :=
  leftAssoc <| leftAssoc <| unaryChain <| leftAssoc <| leftAssoc <| leftAssoc <| unaryChain h

theorem expression : Plain T E Read.expression := by
  have depths (n : Nat) : Plain T E (nested folding n) := by
    induction n with
    | zero => exact peek.bind fun _ mine => unexpected _ mine
    | succ n ih => exact levels (primary ih)
  exact bound.bind fun n _ => depths n

end Expression

/-! ### Statements -/

theorem identifier (role : NameRole) : Read.Among T E T (Read.identifier role) :=
  next.bind fun _ mine =>
    Keeps.ite (fault rfl mine) (Keeps.ite (Keeps.pure mine) (unexpected _ mine))

theorem identifiers (role : NameRole) :
    Read.Among T E (fun toks => ∀ tok ∈ toks, T tok) (Read.identifiers role) := by
  have rounds (n : Nat) :
      Read.Among T E (fun toks => ∀ tok ∈ toks, T tok) (identifiersWithin role n) := by
    induction n with
    | zero => exact Keeps.pure (by simp)
    | succ n ih =>
        refine (identifier role).bind fun tok mine => (eat _).bind fun _ _ => ?_
        refine Keeps.ite (ih.bind fun toks others => Keeps.pure ?_)
          (Keeps.pure (by simpa using mine))
        exact List.forall_mem_cons.2 ⟨mine, others⟩
  exact bound.bind fun n _ => rounds n

theorem assignSign (wanted : Wanted) : Plain T E (Read.assignSign wanted) :=
  next.bind fun _ mine => Keeps.ite (done _) (unexpected _ mine)

/-- Readers of commands that are warned of nothing. -/
abbrev Quiet (T : Token → Prop) (E : ScriptError → Prop) (x : Read Command) : Prop :=
  Read.Among T E (Command.Names T) x

theorem assignment : Quiet T E Read.assignment := by
  refine next.bind fun name mine => (isAt _).bind fun _ _ => ?_
  have rest : Quiet T E (do
      Read.assignSign (.assignAfter name.text)
      return .assign name (← Read.expression)) :=
    (assignSign _).bind fun _ _ => expression.bind fun _ _ => Keeps.pure trivial
  exact Keeps.ite (Keeps.bind (R := fun _ => True) (fault rfl mine) fun _ _ => rest) rest

theorem forHead : Quiet T E Read.forHead := by
  refine (identifier _).bind fun _ _ => (assignSign _).bind fun _ _ => expression.bind fun _ _ => ?_
  refine (expect _ _).discard.bind fun _ _ => expression.bind fun _ _ => (eat _).bind fun _ _ => ?_
  refine Keeps.ite ?_ (Keeps.pure trivial)
  exact (expression.map (Q := fun _ => True) _ fun _ _ => trivial).bind fun _ _ =>
    Keeps.pure trivial

theorem forEnd : Quiet T E Read.forEnd :=
  peek.bind fun _ mine =>
    Keeps.ite (next.discard.bind fun _ _ => Keeps.pure mine) (Keeps.pure trivial)

theorem whileHead : Quiet T E Read.whileHead :=
  (expect _ _).discard.bind fun _ _ => expression.bind fun _ _ => Keeps.pure trivial

theorem color : Plain T E Read.color := by
  refine next.bind fun tok mine => Keeps.ite (unexpected _ mine) ?_
  split
  · exact fault rfl mine
  · exact (eat _).bind fun _ _ => Keeps.ite (done _) (done _)

theorem colorChoice : Quiet T E Read.colorChoice := by
  refine (expect _ _).discard.bind fun _ _ => (expect _ _).discard.bind fun _ _ => ?_
  refine peek.bind fun _ _ => Keeps.ite (Keeps.pure trivial) ?_
  refine color.bind fun _ _ => (eat _).bind fun _ _ => Keeps.ite ?_ (Keeps.pure trivial)
  exact (color.map (Q := fun _ => True) _ fun _ _ => trivial).bind fun _ _ => Keeps.pure trivial

theorem sayAt : Quiet T E Read.sayAt :=
  expression.bind fun _ _ => (expect _ _).discard.bind fun _ _ => expression.bind fun _ _ =>
    (expect _ _).discard.bind fun _ _ => expression.bind fun _ _ => Keeps.pure trivial

theorem printed (newline : Bool) : Quiet T E (Read.printed newline) := by
  have rounds (n : Nat) : Plain T E (expressionsWithin n) := by
    induction n with
    | zero => exact done []
    | succ n ih =>
        exact expression.bind fun e _ => (eat _).bind fun _ _ =>
          Keeps.ite (ih.bind fun _ _ => done _) (done [e])
  exact peek.bind fun _ _ => Keeps.ite (Keeps.pure trivial)
    (bound.bind fun n _ => (rounds n).bind fun _ _ => Keeps.pure trivial)

theorem classHead : Quiet T E Read.classHead := by
  refine (identifier _).bind fun name _ => (expect _ _).discard.bind fun _ _ =>
    next.bind fun base mine => ?_
  split
  next => exact unexpected _ mine
  next widget _ =>
    have ending :
        Quiet T E (do return Command.beginClass name widget (← Read.eat (.keyword .kwEndclass))) :=
      (eat _).bind fun _ _ => Keeps.pure trivial
    refine (eat _).bind fun _ _ => Keeps.ite (openParen.bind fun _ _ => ?_) ending
    refine next.bind fun closing other => Keeps.ite ?_ (closeParen.bind fun _ _ => ending)
    exact Keeps.bind (R := fun _ => True) (fault rfl other)
      fun _ _ => closeParen.bind fun _ _ => ending

theorem propertyLine : Quiet T E Read.propertyLine := by
  refine (expect _ _).discard.bind fun _ _ => next.bind fun name mine => ?_
  have rest : Quiet T E (do
      Read.assignSign (.assignAfterThis name.text)
      return .property name (← Read.expression)) :=
    (assignSign _).bind fun _ _ => expression.bind fun _ _ => Keeps.pure trivial
  exact Keeps.ite (Keeps.bind (R := fun _ => True) (unexpected _ mine) fun _ _ => rest) rest

theorem cannotStart {tok : Token} (mine : T tok) : Quiet T E (Read.cannotStart tok) :=
  next.discard.bind fun _ _ => (isAt _).bind fun _ _ => (isAt _).bind fun _ _ =>
    Keeps.ite (fault rfl mine) (fault rfl mine)

theorem after {x : Read Command} (h : Quiet T E x) : Quiet T E (Read.after x) :=
  next.discard.bind fun _ _ => h

/-- Reading a line finds fault with its tokens only, and gives names that are among them. -/
theorem command : Quiet T E Read.command := by
  have word {c : Command} (h : c.Names T) : Quiet T E (Read.after (return c)) :=
    after (Keeps.pure h)
  refine peek.bind fun tok mine => ?_
  split
  · exact after ((identifiers _).map _ fun _ _ => trivial)
  · exact after ((identifiers _).map _ fun _ names => names)
  · exact assignment
  · exact after (expression.map _ fun _ _ => trivial)
  · exact word trivial
  · exact word trivial
  · exact after forHead
  · exact after forEnd
  · exact after whileHead
  · exact word trivial
  · exact word trivial
  · exact after colorChoice
  · exact after classHead
  · exact after propertyLine
  · exact word trivial
  · exact after sayAt
  · exact after (printed _)
  · exact after (printed _)
  · exact Keeps.ite (cannotStart mine) (unexpected _ mine)

end Read.Among

/-- A fault that may be at any token speaks of the script if scanning has met no other error. -/
theorem Fault.Found.isInternal {e : Fault}
    (h : e.Found (fun _ => True) (·.cause.isInternal = false)) : e.isInternal = false := by
  cases e with
  | «at» cause tok => exact h.1
  | scan e => exact h

/-! ### The context and the scanner -/

theorem Context.found_closing {T : Token → Prop} {E : ScriptError → Prop} {ctx : Context}
    {closing : Closing} {tok : Token} {e : Fault} (mine : T tok)
    (h : ctx.closing closing tok = .error e) : e.Found T E := by
  unfold Context.closing at h
  dsimp only at h
  split at h
  · cases h
    exact ⟨rfl, mine⟩
  · split at h
    · cases h
    · split at h <;> cases h <;> exact ⟨rfl, mine⟩

theorem Context.found_admits {T : Token → Prop} {E : ScriptError → Prop} {ctx : Context}
    {tok : Token} {e : Fault} (mine : T tok) (h : ctx.admits tok = .error e) : e.Found T E := by
  have closing {closing : Closing} (h : discard (ctx.closing closing tok) = .error e) :
      e.Found T E := by
    cases closed : ctx.closing closing tok with
    | error e' =>
        rw [closed] at h
        cases h
        exact found_closing mine closed
    | ok block =>
        rw [closed] at h
        cases h
  unfold Context.admits at h
  split at h
  · split at h
    · cases h; exact ⟨rfl, mine⟩
    · split at h <;> cases h
      exact ⟨rfl, mine⟩
  · split at h
    next closed =>
      cases h
      exact found_closing mine closed
    next => split at h <;> cases h; exact ⟨rfl, mine⟩
  · exact closing h
  · exact closing h
  · exact closing h
  · exact closing h
  · split at h <;> cases h
    exact ⟨rfl, mine⟩
  · split at h <;> cases h
    exact ⟨rfl, mine⟩
  · cases h

namespace Scanner

/-- A faulty lexeme goes wrong at one of its own glyphs, or right behind them. -/
theorem fault_stringRest {d : Dialect} {quote : Char} {count start more : Nat}
    {value : List Char} {gs : List Glyph} {cause : Cause}
    (h : stringRest d quote count value gs = .fault cause start more) :
    cause.isInternal = false ∧ start ≤ more + 1 := by
  fun_induction stringRest d quote count value gs
  all_goals first
    | cases h; done
    | cases h; exact ⟨rfl, by omega⟩
    | rename_i ih; exact ih h

theorem fault_lexeme {d : Dialect} {g : Glyph} {rest : List Glyph} {start more : Nat}
    {cause : Cause} (h : lexeme d g rest = .fault cause start more) :
    cause.isInternal = false ∧ start ≤ more + 1 := by
  unfold lexeme at h
  dsimp only at h
  split at h
  · cases h
  split at h
  · cases h
  split at h
  · unfold number at h
    extract_lets digits taken after total at h
    split at h
    · obtain ⟨rfl, rfl, -⟩ := Lexeme.fault.inj h
      exact ⟨rfl, Nat.zero_le _⟩
    · cases h
  split at h
  · unfold dotWord at h
    dsimp only at h
    split at h
    · split at h <;> cases h
    · cases h
  split at h
  · exact fault_stringRest h
  split at h <;> cases h
  exact ⟨rfl, Nat.zero_le _⟩

theorem Gives.isInternal {file : File} {d : Dialect} {c c' : Cursor} {tok : Token}
    {e : ScriptError} (h : Gives file d c ⟨tok, some e⟩ c') : e.cause.isInternal = false := by
  cases h with
  | badComment found => obtain rfl | ⟨form, -, rfl⟩ := cause_of_skipTrivia found <;> rfl
  | badLexeme skipped ahead lexed => exact (fault_lexeme lexed).1

end Scanner

/-- What stops a scan speaks of the script. -/
theorem TokenStream.isInternal_ofFile {file : File} {d : Dialect} {e : ScriptError} {tok : Token}
    (h : (ofFile file d).ending = .error e tok) : e.cause.isInternal = false := by
  have from_ (fuel : Nat) (c : Cursor) (h : (scanFrom file d fuel c).ending = .error e tok) :
      e.cause.isInternal = false := by
    induction fuel generalizing c with
    | zero => cases h
    | succ fuel ih =>
        rw [scanFrom] at h
        split at h
        next scanned =>
          cases h
          have gives := Scanner.gives_scan file d c
          rw [scanned] at gives
          exact gives.isInternal
        next =>
          split at h
          · cases h
          · exact ih _ h
  exact from_ _ _ h

end PrgScript
