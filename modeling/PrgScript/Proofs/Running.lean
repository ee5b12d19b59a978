import PrgScript.Proofs.FaultLines

/-!
# What can stop a run

A run ends early for one of three reasons. The script and its values are to blame
for most faults: a value of the wrong kind, a name without a value, a division by
zero, a loop that does not move. A console may fail. The rest is the fault of the
program, which has a part that no execution can get past, whatever the variables
are: `Expr.Rejects` and `Stmt.Rejects` say which parts those are and what they are
refused with.

Which faults a statement raises itself is known, so it is enough to look at what each
statement evaluates: `Stmt.Raises.cases`. A program that passes the check has no part left
out or of an unknown kind; all that it can still be refused for is an operator in the wrong
place.
-/

namespace PrgScript

/-- Whether a code blames the script and the values it computes with. -/
def Code.blamesScript : Code → Bool
  | .typeMismatch | .undefinedVar | .divByZero | .zeroStep => true
  | _ => false

namespace Op

def isOneSided : Op → Bool
  | .not | .neg | .pos => true
  | _ => false

def isTwoSided : Op → Bool
  | .not | .neg | .pos | .unknown _ => false
  | _ => true

end Op

/-- Whether a cause says that a part of the program is left out or of an unknown kind. -/
def ExecCause.isIncomplete : ExecCause → Bool
  | .missingOperand | .missingContent | .unknownExpression _ | .unknownStatement _ => true
  | _ => false

/-! ### Expressions -/

theorem Except.bind_eq_error {ε α β : Type} {x : Except ε α} {f : α → Except ε β} {e : ε} :
    (x >>= f) = .error e ↔ x = .error e ∨ ∃ a, x = .ok a ∧ f a = .error e := by
  cases x with
  | error e' => simp [bind, Except.bind]
  | ok a => simp [bind, Except.bind]

namespace Value

variable {v x y : Value} {op : Op} {cause : ExecCause}

theorem blames_of_truth {condition : ConditionOf} (h : v.truth condition = .error cause) :
    cause.code.blamesScript = true := by
  cases v <;> cases h <;> rfl

theorem blames_of_toNumber {place : NumberFor} (h : v.toNumber place = .error cause) :
    cause.code.blamesScript = true := by
  cases v <;> cases h <;> rfl

/-- A one-sided operator fails for its operand, or because it is none. -/
theorem unary_error (h : x.unary op = .error cause) :
    cause.code.blamesScript = true ∨ op.isOneSided = false ∧ cause = .unknownUnary op := by
  cases op with
  | not =>
      rcases Except.bind_eq_error.1 h with failed | ⟨_, _, done⟩
      · exact .inl (blames_of_truth failed)
      · cases done
  | neg | pos =>
      rcases Except.bind_eq_error.1 h with failed | ⟨_, _, done⟩
      · exact .inl (blames_of_toNumber failed)
      · cases done
  | _ =>
      cases h
      exact .inr ⟨rfl, rfl⟩

theorem blames_of_arithmetic {f : Float → Float → Except ExecCause Float}
    (inner : ∀ a b, f a b = .error cause → cause.code.blamesScript = true)
    (h : arithmetic op f x y = .error cause) : cause.code.blamesScript = true := by
  unfold arithmetic at h
  split at h
  next a b =>
    rcases Except.bind_eq_error.1 h with failed | ⟨_, _, done⟩
    · exact inner a b failed
    · cases done
  next =>
    cases h
    rfl

theorem blames_of_equality {test : Value → Value → Bool}
    (h : equality op test x y = .error cause) : cause.code.blamesScript = true := by
  unfold equality at h
  split at h <;> cases h
  rfl

theorem blames_of_compare {f : Ordering → Value}
    (h : (compare op x y >>= fun order => .ok (f order)) = .error cause) :
    cause.code.blamesScript = true := by
  rcases Except.bind_eq_error.1 h with failed | ⟨_, _, done⟩
  · unfold compare at failed
    split at failed <;> cases failed
    rfl
  · cases done

/-- A two-sided operator that needs both operands fails for them, or because it is none. -/
theorem binary_error (needsBoth : op ≠ .and ∧ op ≠ .or) (h : x.binary op y = .error cause) :
    cause.code.blamesScript = true ∨ op.isTwoSided = false ∧ cause = .unknownBinary op := by
  have total (f : Float → Float → Float) (a b : Float)
      (failed : Except.ok (f a b) = (.error cause : Except ExecCause Float)) :
      cause.code.blamesScript = true := by cases failed
  cases op <;> simp only [binary] at h
  case add =>
    split at h
    · cases h
    · exact .inl (blames_of_arithmetic (total _) h)
  case sub | mul => exact .inl (blames_of_arithmetic (total _) h)
  case div =>
    refine .inl (blames_of_arithmetic (fun a b failed => ?_) h)
    split at failed <;> cases failed
    rfl
  case eq | exactEq | ne => exact .inl (blames_of_equality h)
  case lt | le | gt | ge => exact .inl (blames_of_compare h)
  case and => exact absurd rfl needsBoth.1
  case or => exact absurd rfl needsBoth.2
  all_goals
    cases h
    exact .inr ⟨rfl, rfl⟩

end Value

namespace Expr

/-- The expressions that have no value whatever the variables are, and what they are refused
with. -/
inductive Rejects : Expr → ExecCause → Prop
  | unary {op : Op} (wrong : op.isOneSided = false) (operand : Expr) (line : Nat) :
      Rejects (.unary op operand line) (.unknownUnary op)
  | binary {op : Op} (wrong : op.isTwoSided = false) (left right : Expr) (line : Nat) :
      Rejects (.binary op left right line) (.unknownBinary op)
  | missing : Rejects .missing .missingOperand
  | malformed (kind line : Nat) : Rejects (.malformed kind line) (.unknownExpression kind)

/-- The causes that evaluating an expression can fail with: the script is to blame, or something in
the expression has no value. -/
def MayFail (e : Expr) (cause : ExecCause) : Prop :=
  cause.code.blamesScript = true ∨ ∃ x ∈ e.nodes, x.Rejects cause

namespace MayFail

variable {e x y : Expr} {op : Op} {line : Nat} {cause : ExecCause}

theorem own (rejects : e.Rejects cause) : e.MayFail cause := .inr ⟨e, e.mem_nodes, rejects⟩

theorem operand (h : x.MayFail cause) : (unary op x line).MayFail cause := by
  refine h.imp_right ?_
  rintro ⟨node, mem, rejects⟩
  exact ⟨node, List.mem_cons_of_mem _ mem, rejects⟩

theorem left (h : x.MayFail cause) : (binary op x y line).MayFail cause := by
  refine h.imp_right ?_
  rintro ⟨node, mem, rejects⟩
  exact ⟨node, List.mem_cons_of_mem _ (List.mem_append_left _ mem), rejects⟩

theorem right (h : y.MayFail cause) : (binary op x y line).MayFail cause := by
  refine h.imp_right ?_
  rintro ⟨node, mem, rejects⟩
  exact ⟨node, List.mem_cons_of_mem _ (List.mem_append_right _ mem), rejects⟩

end MayFail

end Expr

/-- Both operands are evaluated, except by the two operators that may skip the right one. -/
theorem eval_binary {op : Op} (needsBoth : op ≠ .and ∧ op ≠ .or) (vars : Variables)
    (left right : Expr) (line : Nat) :
    eval vars (.binary op left right line) =
      (do (← eval vars left).binary op (← eval vars right)) := by
  cases op <;> first | rfl | exact absurd rfl needsBoth.1 | exact absurd rfl needsBoth.2

theorem eval_error {vars : Variables} {e : Expr} {cause : ExecCause}
    (h : eval vars e = .error cause) : e.MayFail cause := by
  induction e generalizing cause with
  | number | string | logical => cases h
  | ident name line =>
      unfold eval at h
      split at h <;> cases h
      exact .inl rfl
  | missing =>
      cases h
      exact .own .missing
  | malformed kind line =>
      cases h
      exact .own (.malformed kind line)
  | unary op operand line ih =>
      rcases Except.bind_eq_error.1 h with failed | ⟨a, -, failed⟩
      · exact (ih failed).operand
      · obtain blames | ⟨wrong, rfl⟩ := Value.unary_error failed
        · exact .inl blames
        · exact .own (.unary wrong operand line)
  | binary op left right line ihLeft ihRight =>
      have rightTruth (word : ConditionOf)
          (asked : (do return Value.logical (← (← eval vars right).truth word)) = .error cause) :
          (Expr.binary op left right line).MayFail cause := by
        rcases Except.bind_eq_error.1 asked with failed | ⟨v, -, asked⟩
        · exact (ihRight failed).right
        rcases Except.bind_eq_error.1 asked with failed | ⟨b, -, done⟩
        · exact .inl (Value.blames_of_truth failed)
        · cases done
      by_cases skips : op = .and ∨ op = .or
      · rcases skips with rfl | rfl
        all_goals
          rcases Except.bind_eq_error.1 h with failed | ⟨v, -, asked⟩
          · exact (ihLeft failed).left
          rcases Except.bind_eq_error.1 asked with failed | ⟨b, -, asked⟩
          · exact .inl (Value.blames_of_truth failed)
        · split at asked
          · exact rightTruth _ asked
          · cases asked
        · split at asked
          · cases asked
          · exact rightTruth _ asked
      · have both := not_or.1 skips
        rw [eval_binary both] at h
        rcases Except.bind_eq_error.1 h with failed | ⟨v, -, asked⟩
        · exact (ihLeft failed).left
        rcases Except.bind_eq_error.1 asked with failed | ⟨w, -, failed⟩
        · exact (ihRight failed).right
        · obtain blames | ⟨wrong, rfl⟩ := Value.binary_error both failed
          · exact .inl blames
          · exact .own (.binary wrong left right line)

/-! ### Statements -/

/-- The statements that cannot be executed to their end whatever the variables are, and what they
are refused with. What a statement holds is not its own. -/
inductive Stmt.Rejects : Stmt → ExecCause → Prop
  | expression {s : Stmt} {e x : Expr} {cause : ExecCause} (own : e ∈ s.expressions)
      (inside : x ∈ e.nodes) (rejects : x.Rejects cause) : Rejects s cause
  | content {kind : Nat} (known : 1 ≤ kind ∧ kind ≤ 8) (line : Nat) :
      Rejects (.malformed kind line) .missingContent
  | kind {kind : Nat} (other : ¬(1 ≤ kind ∧ kind ≤ 8)) (line : Nat) :
      Rejects (.malformed kind line) (.unknownStatement kind)

/-- The messages that some call to a console fails with. -/
inductive Console.Fails {σ : Type} (c : Console σ) (message : Text) : Prop
  | say {row col : Int} {text : Text} {s : σ} (failed : c.say row col text s = .error message)
  | print {text : Text} {s : σ} (failed : c.print text s = .error message)
  | setColor {colors : ColorPair} {s : σ} (failed : c.setColor colors s = .error message)

/-! ### What statements raise -/

namespace Expr

variable {e : Expr} {vars : Variables} {cause : ExecCause}

theorem mayFail_of_truthIn {word : ConditionOf} (h : e.truthIn word vars = .error cause) :
    e.MayFail cause := by
  rcases Except.bind_eq_error.1 h with failed | ⟨v, -, failed⟩
  · exact eval_error failed
  · exact .inl (Value.blames_of_truth failed)

theorem mayFail_of_numberIn {place : NumberFor} (h : e.numberIn place vars = .error cause) :
    e.MayFail cause := by
  rcases Except.bind_eq_error.1 h with failed | ⟨v, -, failed⟩
  · exact eval_error failed
  · exact .inl (Value.blames_of_toNumber failed)

theorem mayFail_of_positionIn {place : NumberFor} (h : e.positionIn place vars = .error cause) :
    e.MayFail cause := by
  rcases Except.bind_eq_error.1 h with failed | ⟨v, -, rest⟩
  · exact eval_error failed
  rcases Except.bind_eq_error.1 rest with failed | ⟨x, -, rest⟩
  · exact .inl (Value.blames_of_toNumber failed)
  · split at rest <;> cases rest
    exact .inl rfl

theorem mayFail_of_mapM {es : List Expr} (h : es.mapM (eval vars) = .error cause) :
    ∃ e ∈ es, e.MayFail cause := by
  induction es with
  | nil => cases h
  | cons e es ih =>
      rw [List.mapM_cons] at h
      rcases Except.bind_eq_error.1 h with failed | ⟨v, -, rest⟩
      · exact ⟨e, List.mem_cons_self, eval_error failed⟩
      rcases Except.bind_eq_error.1 rest with failed | ⟨vs, -, done⟩
      · obtain ⟨e', mem, fails⟩ := ih failed
        exact ⟨e', List.mem_cons_of_mem _ mem, fails⟩
      · cases done

end Expr

namespace Variables

variable {vars : Variables} {counter : Text} {cause : ExecCause}

theorem blames_of_counterIn (h : vars.counterIn counter = .error cause) :
    cause.code.blamesScript = true := by
  unfold counterIn at h
  split at h
  · exact Value.blames_of_toNumber h
  · cases h
    rfl

theorem mayFail_of_stepIn {step : Option Expr} (h : vars.stepIn counter step = .error cause) :
    cause.code.blamesScript = true ∨ ∃ e ∈ step, e.MayFail cause := by
  cases step with
  | none => cases h
  | some e =>
      rcases Except.bind_eq_error.1 h with failed | ⟨by_, -, rest⟩
      · exact .inr ⟨e, rfl, Expr.mayFail_of_numberIn failed⟩
      · split at rest <;> cases rest
        exact .inl rfl

end Variables

/-- What a statement raises itself is the script's fault or the console's, or the statement is
refused with it. -/
theorem Stmt.Raises.cases {σ : Type} {c : Console σ} {vars : Variables} {console : σ}
    {cause : ExecCause} {s : Stmt} (raises : s.Raises c vars console cause) :
    cause.code.blamesScript = true ∨
      (∃ message, c.Fails message ∧ cause = .consoleFailed message) ∨ s.Rejects cause := by
  have own {e : Expr} (mem : e ∈ s.expressions) (fails : e.MayFail cause) :
      cause.code.blamesScript = true ∨
        (∃ message, c.Fails message ∧ cause = .consoleFailed message) ∨ s.Rejects cause :=
    fails.imp_right fun ⟨_, inside, rejects⟩ => .inr (.expression mem inside rejects)
  cases s with
  | declare | finish => cases raises
  | assign name e line => exact own List.mem_cons_self (eval_error raises)
  | branch e thenBody elseBody line =>
      exact own List.mem_cons_self (Expr.mayFail_of_truthIn raises)
  | forTo counter start limit step body line =>
      obtain failed | failed | failed | failed := raises
      · exact own (by simp [Stmt.expressions]) (Expr.mayFail_of_numberIn failed)
      · exact own (by simp [Stmt.expressions]) (Expr.mayFail_of_numberIn failed)
      · obtain blames | ⟨e, is, fails⟩ := Variables.mayFail_of_stepIn failed
        · exact .inl blames
        · exact own (by simp [Stmt.expressions, Option.mem_def.1 is]) fails
      · exact .inl (Variables.blames_of_counterIn failed)
  | whileDo e body line => exact own List.mem_cons_self (Expr.mayFail_of_truthIn raises)
  | setColor colors line =>
      obtain ⟨message, failed, same⟩ := raises
      exact .inr (.inl ⟨message, .setColor failed, same⟩)
  | say row col e line =>
      obtain failed | failed | failed | ⟨_, _, _, message, failed, same⟩ := raises
      · exact own (by simp [Stmt.expressions]) (Expr.mayFail_of_positionIn failed)
      · exact own (by simp [Stmt.expressions]) (Expr.mayFail_of_positionIn failed)
      · exact own (by simp [Stmt.expressions]) (eval_error failed)
      · exact .inr (.inl ⟨message, .say failed, same⟩)
  | print es newline line =>
      obtain failed | ⟨_, message, failed, same⟩ := raises
      · obtain ⟨e, mem, fails⟩ := Expr.mayFail_of_mapM failed
        exact own mem fails
      · exact .inr (.inl ⟨message, .print failed, same⟩)
  | malformed kind line =>
      refine .inr (.inr ?_)
      rw [show cause = malformedCause kind from raises, malformedCause]
      split
      next known => exact .content known line
      next other => exact .kind other line

/-! ### Runs and objects -/

namespace Machine

variable {m : Machine} {e : ExecError}

/-- A run fails because the script is to blame, because the console has failed, or because a
statement of the program is refused. -/
theorem run_error {σ : Type} {c : Console σ} {console : σ} {tracer : Trace.Tracer}
    {parent rounds : Nat} {args : List Value}
    (h : (m.run c console tracer parent rounds args).result = .error (.fault e)) :
    e.code.blamesScript = true ∨ (∃ message, c.Fails message ∧ e.cause = .consoleFailed message) ∨
      ∃ s ∈ m.program.statements, s.Rejects e.cause := by
  cases raises_of_run h with
  | tooMany many => exact .inl rfl
  | own enough mem raises =>
      exact raises.cases.imp_right (Or.imp_right fun rejects => ⟨_, mem, rejects⟩)

theorem evalProperties_error {vars : Variables} {ps : List Property} {values : List (Text × Value)}
    (h : evalProperties vars values ps = .error e) :
    e.code.blamesScript = true ∨ ∃ p ∈ ps, ∃ x ∈ p.value.nodes, x.Rejects e.cause := by
  induction ps generalizing values with
  | nil => cases h
  | cons p ps ih =>
      unfold evalProperties at h
      split at h
      next v _ =>
        exact (ih h).imp_right fun ⟨p', mem, found⟩ => ⟨p', List.mem_cons_of_mem _ mem, found⟩
      next cause failed =>
        cases h
        exact (eval_error failed).imp_right fun found => ⟨p, List.mem_cons_self, found⟩

/-- The properties that every object starts with are literals. -/
theorem isConst_of_mem_defaults {base : Widget} {property : Text × Expr}
    (mem : property ∈ base.defaults) : property.2.isConst = true := by
  have all : ∀ property ∈ base.defaults, property.2.isConst = true := by
    cases base <;> simp [Widget.defaults, Widget.textProperty, Widget.countProperty, Expr.isConst]
  exact all property mem

theorem mem_of_class? {name : Text} {d : Class} (h : m.class? name = some d) :
    d ∈ m.program.classes := by
  obtain entered | ⟨-, searched⟩ := Option.or_eq_some_iff.1 h
  · obtain ⟨place, -, there⟩ := Option.bind_eq_some_iff.1 entered
    exact List.mem_of_getElem? there
  · exact List.mem_of_find?_eq_some searched

/-- Building an object fails because the script is to blame, or because something in a property of
its class has no value. -/
theorem instantiate_error {name : Text} (h : m.instantiate name = .error e) :
    e.code.blamesScript = true ∨ ∃ x ∈ m.program.nodes, x.Rejects e.cause := by
  unfold instantiate at h
  split at h
  next =>
    cases h
    exact .inl rfl
  next d found =>
    dsimp only at h
    split at h
    · cases h
    next e' failed =>
      cases h
      refine (evalProperties_error failed).imp_right ?_
      rintro ⟨p, mem, x, inside, rejects⟩
      rcases List.mem_append.1 mem with default | own
      · obtain ⟨property, own, rfl⟩ := List.mem_map.1 default
        have const := isConst_of_mem_defaults own
        generalize property.2 = value at const inside
        cases value <;> cases const <;> cases List.mem_singleton.1 inside <;> cases rejects
      · exact ⟨x, Program.mem_nodes_of_property (mem_of_class? found) own inside, rejects⟩

end Machine

/-! ### Checked programs -/

namespace Program

/-- The causes that say that an operator of a program stands where it cannot. -/
inductive Misuses (p : Program) : ExecCause → Prop
  | unary {op : Op} {operand : Expr} {line : Nat} (mem : .unary op operand line ∈ p.nodes)
      (wrong : op.isOneSided = false) : Misuses p (.unknownUnary op)
  | binary {op : Op} {left right : Expr} {line : Nat} (mem : .binary op left right line ∈ p.nodes)
      (wrong : op.isTwoSided = false) : Misuses p (.unknownBinary op)

variable {p : Program} {cause : ExecCause} (checked : p.fault? = none)

include checked

/-- All that an expression of a checked program can be refused for is an operator. -/
theorem misuses_of_node {x : Expr} (mem : x ∈ p.nodes) (rejects : x.Rejects cause) :
    p.Misuses cause := by
  have sound := ((fault?_eq_none_iff p).1 checked).2.1 x mem
  cases rejects with
  | unary wrong => exact .unary mem wrong
  | binary wrong => exact .binary mem wrong
  | missing | malformed => cases sound

theorem misuses_of_statement {s : Stmt} (mem : s ∈ p.statements) (rejects : s.Rejects cause) :
    p.Misuses cause := by
  have sound := ((fault?_eq_none_iff p).1 checked).1 s mem
  cases rejects with
  | expression own inside rejects =>
      exact misuses_of_node checked (mem_nodes_of_statement mem own inside) rejects
  | content | kind => cases sound

end Program

theorem Program.Misuses.isIncomplete {p : Program} {cause : ExecCause} (h : p.Misuses cause) :
    cause.isIncomplete = false := by
  cases h <;> rfl

theorem ExecCause.isIncomplete_of_blames {cause : ExecCause}
    (blames : cause.code.blamesScript = true) : cause.isIncomplete = false := by
  cases cause <;> first | rfl | cases blames

/-- No run of a checked program and no building of an object comes to a part that is left out or of
an unknown kind. An internal fault is a misplaced operator of the program or, in a run, a failure
of the console. -/
theorem checked_faults (m : Machine) (checked : m.program.fault? = none) :
    (∀ (σ : Type) (c : Console σ) (console : σ) (tracer : Trace.Tracer) (parent rounds : Nat)
      (args : List Value) (e : ExecError),
      (m.run c console tracer parent rounds args).result = .error (.fault e) →
        e.cause.isIncomplete = false ∧
          (e.code = .internalFault → m.program.Misuses e.cause ∨
            ∃ message, c.Fails message ∧ e.cause = .consoleFailed message)) ∧
    ∀ (name : Text) (e : ExecError), m.instantiate name = .error e →
      e.cause.isIncomplete = false ∧ (e.code = .internalFault → m.program.Misuses e.cause) := by
  constructor
  · intro σ c console tracer parent rounds args e failed
    obtain blames | ⟨message, fails, same⟩ | ⟨s, mem, rejects⟩ := Machine.run_error failed
    · refine ⟨ExecCause.isIncomplete_of_blames blames, fun internal => ?_⟩
      rw [internal] at blames
      cases blames
    · exact ⟨by rw [same]; rfl, fun _ => .inr ⟨message, fails, same⟩⟩
    · have misuses := Program.misuses_of_statement checked mem rejects
      exact ⟨misuses.isIncomplete, fun _ => .inl misuses⟩
  · intro name e failed
    obtain blames | ⟨x, mem, rejects⟩ := Machine.instantiate_error failed
    · refine ⟨ExecCause.isIncomplete_of_blames blames, fun internal => ?_⟩
      rw [internal] at blames
      cases blames
    · have misuses := Program.misuses_of_node checked mem rejects
      exact ⟨misuses.isIncomplete, fun _ => misuses⟩

/-- A sum of one operand passes the check, and a run that comes to it ends in an internal fault. -/
theorem checked_faults_one_operand :
    let p : Program := { name := "sum", body := [.assign "x" (.unary .add (.string "a" 1) 1) 1] }
    let e : ExecError := ⟨.unknownUnary .add, 1⟩
    let ran := Machine.run { program := p } Console.down () {} 0 1 []
    p.fault? = none ∧ ran.result = .error (.fault e) ∧ e.code = .internalFault ∧
      e.cause.isIncomplete = false ∧
      (p.Misuses e.cause ∨
        ∃ message, Console.down.Fails message ∧ e.cause = .consoleFailed message) := by
  intro p e ran
  have checked : p.fault? = none := rfl
  have ended : ran.result = .error (.fault e) := rfl
  have found := (checked_faults { program := p } checked).1 _ _ _ _ _ _ _ e ended
  exact ⟨checked, ended, rfl, found.1, found.2 rfl⟩

end PrgScript
