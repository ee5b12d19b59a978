import PrgScript.Proofs.Running
import PrgScript.Proofs.Twin
import PrgScript.Proofs.View

/-!
# Runs of programs that look the same

A view overlooks how names are written and on which lines statements stand. Variables are
kept under keys that do not depend on how their names are written, so a program
and what a view shows of it run in lock step: they make the same calls to the
console and leave the same variables, and where one of them stops the other one
stops for a cause that looks the same, on a line that looks the same.

The trace of a run does not matter for any of this. A view that overlooks nothing
therefore compares two runs of one program under different tracers.
-/

namespace PrgScript

open Step

/-! ### Causes and states -/

namespace ExecCause

/-- A cause as it is seen. The name of a variable may be part of it. -/
def seen (v : View) : ExecCause → ExecCause
  | .undefinedVariable name => .undefinedVariable (v.name name)
  | .zeroStep counter => .zeroStep (v.name counter)
  | .notNumeric (.forCounter name) kind => .notNumeric (.forCounter (v.name name)) kind
  | cause => cause

theorem seen_seen (v : View) (cause : ExecCause) : (cause.seen v).seen v = cause.seen v := by
  cases cause with
  | undefinedVariable | zeroStep => simp only [seen, View.name_name]
  | notNumeric place => cases place <;> simp only [seen, View.name_name]
  | _ => rfl

theorem code_seen (v : View) (cause : ExecCause) : (cause.seen v).code = cause.code := by
  cases cause with
  | notNumeric place => cases place <;> rfl
  | _ => rfl

end ExecCause

def Stop.seen (v : View) : Stop → Stop
  | .fault e => .fault ⟨e.cause.seen v, v.line e.line⟩
  | .outOfFuel => .outOfFuel

/-- What a view shows of a running script: everything but the trace. -/
def Session.seen {σ : Type} (v : View) (s : Session σ) : Variables × Nat × σ × Nat :=
  (s.vars, s.steps, s.console, v.line s.line)

/-! ### Expressions -/

/-- The places in a statement that need a number, the counter of a loop apart. -/
def NumberFor.isPlain : NumberFor → Bool
  | .forCounter _ => false
  | _ => true

section Eval

variable (v : View)

theorem Variables.key_name (name : Text) : key (v.name name) = key name :=
  Text.upper_of_upperASCII (v.upperASCII_name name)

theorem Except.mapError_bind {ε α β : Type} (g : ε → ε) (x : Except ε α) (f : α → Except ε β) :
    (x >>= f).mapError g = (x.mapError g >>= fun a => (f a).mapError g) := by
  cases x <;> rfl

theorem Value.truth_seen (word : ConditionOf) (x : Value) :
    (x.truth word).mapError (ExecCause.seen v) = x.truth word := by
  cases x <;> rfl

theorem Value.unary_seen (x : Value) (op : Op) :
    (x.unary op).mapError (ExecCause.seen v) = x.unary op := by
  cases op <;> cases x <;> rfl

theorem Value.binary_seen (x : Value) (op : Op) (y : Value) :
    (x.binary op y).mapError (ExecCause.seen v) = x.binary op y := by
  cases op with
  | div =>
      cases x with
      | number a =>
          cases y with
          | number b =>
              simp only [binary, arithmetic]
              split <;> rfl
          | _ => rfl
      | _ => rfl
  | eq | exactEq | ne =>
      simp only [binary, equality]
      split <;> rfl
  | _ => cases x <;> cases y <;> rfl

/-- What is seen of an expression has the same value, or is wrong for a cause that looks the
same. -/
theorem eval_seen (vars : Variables) (e : Expr) :
    eval vars (e.seen v) = (eval vars e).mapError (ExecCause.seen v) := by
  induction e with
  | ident name line =>
      simp only [Expr.seen, eval, Variables.get?, Variables.key_name]
      split <;> rfl
  | unary op x line ih =>
      simp only [Expr.seen, eval, ih, Except.mapError_bind, Value.unary_seen]
  | binary op x y line ihLeft ihRight =>
      have choice {b : Bool} {r r' : Except ExecCause Value} :
          (if b then r else r').mapError (ExecCause.seen v) =
            if b then r.mapError (ExecCause.seen v) else r'.mapError (ExecCause.seen v) := by
        cases b <;> rfl
      cases op with
      | and | or =>
          simp only [Expr.seen, eval, ihLeft, ihRight, Except.mapError_bind, Value.truth_seen,
            choice]
          rfl
      | _ =>
          rw [Expr.seen, eval_binary (by simp), eval_binary (by simp), ihLeft, ihRight]
          simp only [Except.mapError_bind, Value.binary_seen]
  | _ => rfl

end Eval

/-! ### Steps -/

/-- Two steps of executions that look the same. -/
abbrev Exec.Alike {σ α : Type} (v : View) (R : α → α → Prop) (x y : Exec σ α) : Prop :=
  Twin (InvImage Eq (Session.seen v)) (InvImage Eq (Stop.seen v)) R x y

namespace Exec.Alike

variable {σ α : Type} {v : View}

section State

variable {s s' : Session σ} (same : InvImage Eq (Session.seen v) s s')

include same

theorem vars_eq : s.vars = s'.vars := congrArg (·.1) same

theorem steps_eq : s.steps = s'.steps := congrArg (·.2.1) same

theorem console_eq : s.console = s'.console := congrArg (·.2.2.1) same

theorem line_eq : v.line s.line = v.line s'.line := congrArg (·.2.2.2) same

end State

theorem fail {R : α → α → Prop} {cause cause' : ExecCause} (same : cause.seen v = cause'.seen v) :
    Alike v R (Exec.fail cause : Exec σ α) (Exec.fail cause') := by
  refine .bind .get fun s s' states => .throw ?_
  simp only [InvImage, Stop.seen, same, line_eq states]

theorem require (r : Except ExecCause α) :
    Alike v Eq (Exec.require r : Exec σ α) (Exec.require (r.mapError (ExecCause.seen v))) := by
  cases r with
  | ok a => exact .pure rfl
  | error cause => exact fail (ExecCause.seen_seen v cause).symm

/-- A result that has no name of a variable in it. -/
theorem require_same {r : Except ExecCause α} (nameless : r.mapError (ExecCause.seen v) = r) :
    Alike v Eq (Exec.require r : Exec σ α) (Exec.require r) := by
  have alike := require (σ := σ) (v := v) r
  rwa [nameless] at alike

theorem value (e : Expr) : Alike v Eq (Exec.value e : Exec σ Value) (Exec.value (e.seen v)) := by
  refine .bind .get fun s s' states => ?_
  rw [eval_seen, vars_eq states]
  exact require _

theorem condition (word : ConditionOf) (e : Expr) :
    Alike v Eq (Exec.condition word e : Exec σ Bool) (Exec.condition word (e.seen v)) := by
  refine (value e).bind fun x x' same => ?_
  subst same
  exact require_same (Value.truth_seen v word x)

variable {place : NumberFor} {body body' : Exec σ Flow} {line line' : Nat}

theorem toNumber (plain : place.isPlain = true) (x : Value) :
    Alike v Eq (Exec.require (x.toNumber place) : Exec σ Float)
      (Exec.require (x.toNumber place)) := by
  refine require_same ?_
  cases x with
  | number => rfl
  | _ => cases place <;> first | rfl | cases plain

theorem number (plain : place.isPlain = true) (e : Expr) :
    Alike v Eq (Exec.number place e : Exec σ Float) (Exec.number place (e.seen v)) := by
  refine (value e).bind fun x x' same => ?_
  subst same
  exact toNumber plain x

theorem setVariable (name : Text) (x : Value) :
    Alike v Eq (Exec.setVariable name x : Exec σ Unit) (Exec.setVariable (v.name name) x) := by
  refine .modifyState fun s s' states => ?_
  have line := line_eq states
  simp only [InvImage, Session.seen, Variables.set, Variables.key_name, vars_eq states,
    steps_eq states, console_eq states, line]

theorem setLine (same : v.line line = v.line line') :
    Alike v Eq (Exec.setLine line : Exec σ Unit) (Exec.setLine line') := by
  refine .modifyState fun s s' states => ?_
  simp only [InvImage, Session.seen, vars_eq states, steps_eq states, console_eq states, same]

theorem call (f : σ → Except Text σ) :
    Alike v Eq (Exec.call f : Exec σ Unit) (Exec.call f) := by
  refine .bind .get fun s s' states => ?_
  rw [console_eq states]
  cases f s'.console with
  | error message => exact fail rfl
  | ok console =>
      refine .modifyState fun t t' states => ?_
      have line := line_eq states
      simp only [InvImage, Session.seen, vars_eq states, steps_eq states, line]

theorem enter {s s' : Stmt} (lines : v.line s.line = v.line s'.line) :
    Alike v Eq (Exec.enter s : Exec σ Unit) (Exec.enter s') := by
  refine .modifyState fun t t' states => ?_
  simp only [InvImage, Session.seen, vars_eq states, steps_eq states, console_eq states, lines]

theorem position (plain : place.isPlain = true) (e : Expr) :
    Alike v Eq (Exec.position place e : Exec σ Nat) (Exec.position place (e.seen v)) := by
  refine (value e).bind fun x x' same => ?_
  subst same
  refine (toNumber plain x).bind fun n n' same => ?_
  subst same
  exact .ite Iff.rfl (fail rfl) (.pure rfl)

theorem values (es : List Expr) :
    Alike v Eq (Exec.values es : Exec σ (List Value)) (Exec.values (es.map (Expr.seen v))) := by
  induction es with
  | nil => exact .pure rfl
  | cons e es ih =>
      refine (value e).bind fun x x' same => ih.bind fun xs xs' sames => .pure ?_
      rw [same, sames]

theorem whileLoop {test test' : Exec σ Bool} (tests : Alike v Eq test test')
    (bodies : Alike v Eq body body') (lines : v.line line = v.line line') (rounds : Nat) :
    Alike v Eq (Exec.whileLoop test body line rounds)
      (Exec.whileLoop test' body' line' rounds) := by
  induction rounds with
  | zero => exact .throw rfl
  | succ rounds ih =>
      refine tests.bind fun holds holds' same => ?_
      subst same
      refine .ite Iff.rfl ?_ (.pure rfl)
      refine bodies.bind fun flow flow' same => ?_
      subst same
      cases flow with
      | leave => exact .pure rfl
      | next => exact (setLine lines).bind fun _ _ _ => ih

theorem counterValue (counter : Text) :
    Alike v Eq (Exec.counterValue counter : Exec σ Float)
      (Exec.counterValue (v.name counter)) := by
  refine .bind .get fun s s' states => ?_
  rw [vars_eq states, Variables.get?, Variables.get?, Variables.key_name]
  cases List.lookup (Variables.key counter) s'.vars with
  | none => exact fail (by simp only [ExecCause.seen, View.name_name])
  | some x =>
      cases x with
      | number n => exact .pure rfl
      | _ => exact fail (by simp only [ExecCause.seen, View.name_name])

theorem forLoop (counter : Text) (limit step : Float) (bodies : Alike v Eq body body')
    (lines : v.line line = v.line line') (rounds : Nat) :
    Alike v Eq (Exec.forLoop counter limit step body line rounds)
      (Exec.forLoop (v.name counter) limit step body' line' rounds) := by
  induction rounds with
  | zero => exact .throw rfl
  | succ rounds ih =>
      refine (counterValue counter).bind fun n n' same => ?_
      subst same
      refine .ite Iff.rfl (.pure rfl) ?_
      refine bodies.bind fun flow flow' same => ?_
      subst same
      cases flow with
      | leave => exact .pure rfl
      | next =>
          refine (setLine lines).bind fun _ _ _ => ?_
          refine (counterValue counter).bind fun m m' same => ?_
          subst same
          exact (setVariable counter _).bind fun _ _ _ => ih

theorem countLoop (counter : Text) (start limit : Expr) (step : Option Expr)
    (bodies : Alike v Eq body body') (lines : v.line line = v.line line') (rounds : Nat) :
    Alike v Eq (Exec.countLoop counter start limit step body line rounds)
      (Exec.countLoop (v.name counter) (start.seen v) (limit.seen v) (step.map (Expr.seen v)) body'
        line' rounds) := by
  refine (number rfl start).bind fun first first' same => ?_
  subst same
  refine (number rfl limit).bind fun last last' same => ?_
  subst same
  have zero : Alike v Eq (Exec.fail (.zeroStep counter) : Exec σ Unit)
      (Exec.fail (.zeroStep (v.name counter))) :=
    fail (by simp only [ExecCause.seen, View.name_name])
  have loop (by_ : Float) := (setVariable (v := v) counter (.number first)).bind fun _ _ _ =>
    forLoop counter last by_ bodies lines rounds
  cases step with
  | none =>
      exact .bind (R := Eq) (.pure rfl) fun by_ _ same =>
        same ▸ .optional Iff.rfl zero (loop by_)
  | some e =>
      exact (number rfl e).bind fun by_ _ same => same ▸ .optional Iff.rfl zero (loop by_)

theorem declare (names : List Text) :
    Alike v Eq (Exec.declare names : Exec σ Unit) (Exec.declare (names.map v.name)) := by
  induction names with
  | nil => exact .pure rfl
  | cons name names ih => exact (setVariable name _).bind fun _ _ _ => ih

theorem bindParams (names : List Text) (args : List Value) :
    Alike v Eq (Exec.bindParams names args : Exec σ Unit)
      (Exec.bindParams (names.map v.name) args) := by
  induction names generalizing args with
  | nil => exact .pure rfl
  | cons name names ih =>
      cases args with
      | nil => exact (setVariable name _).bind fun _ _ _ => ih []
      | cons x args => exact (setVariable name x).bind fun _ _ _ => ih args

theorem announce (classes classes' : List Class) :
    Alike v Eq (Exec.announce classes : Exec σ Unit) (Exec.announce classes') := by
  refine .modifyState fun t t' states => ?_
  have line := line_eq states
  simp only [InvImage, Session.seen, vars_eq states, steps_eq states, console_eq states, line]

/-! ### Statements and programs -/

variable (c : Console σ) (rounds : Nat)

/-- A statement, given that what it holds runs alike. -/
theorem stmt (s : Stmt)
    (inner : ∀ body ∈ s.bodies, Alike v Eq (Exec.block c rounds body)
      (Exec.block c rounds (Stmt.seenAll v body))) :
    Alike v Eq (Exec.stmt c rounds s) (Exec.stmt c rounds (s.seen v)) := by
  have same (line : Nat) : v.line line = v.line (v.line line) := (v.line_line line).symm
  have entered (s : Stmt) {x y : Exec σ Flow} (rest : Alike v Eq x y) :
      Alike v Eq (Exec.enter s >>= fun _ => x) (Exec.enter (s.seen v) >>= fun _ => y) := by
    refine (enter ?_).bind fun _ _ _ => rest
    cases s <;> exact same _
  cases s with
  | declare names line =>
      exact entered _ ((declare names).bind fun _ _ _ => .pure rfl)
  | assign name e line =>
      refine entered _ ((value e).bind fun x _ same => ?_)
      subst same
      exact (setVariable name x).bind fun _ _ _ => .pure rfl
  | branch e thenBody elseBody line =>
      refine entered _ ((condition .ifWord e).bind fun holds _ same => ?_)
      subst same
      exact .ite Iff.rfl (inner thenBody (by simp [Stmt.bodies]))
        (inner elseBody (by simp [Stmt.bodies]))
  | forTo counter start limit step body line =>
      have bodies := inner body (by simp [Stmt.bodies])
      exact entered _ (countLoop counter start limit step bodies (same line) rounds)
  | whileDo e body line =>
      have bodies := inner body (by simp [Stmt.bodies])
      exact entered _ (whileLoop (condition .doWhile e) bodies (same line) rounds)
  | setColor colors line =>
      exact entered _ ((call _).bind fun _ _ _ => .pure rfl)
  | say row col e line =>
      refine entered _ ((position rfl row).bind fun r _ same => ?_)
      subst same
      refine (position rfl col).bind fun k _ same => ?_
      subst same
      refine (value e).bind fun x _ same => ?_
      subst same
      exact (call _).bind fun _ _ _ => .pure rfl
  | print es newline line =>
      refine entered _ ((values es).bind fun xs _ same => ?_)
      subst same
      exact (call _).bind fun _ _ _ => .pure rfl
  | finish line => exact entered _ (.pure rfl)
  | malformed kind line =>
      refine entered _ ?_
      split
      · exact fail rfl
      · exact fail rfl

/-- A block and what is seen of it. The induction goes through the statements and what they hold. -/
theorem block (ss : List Stmt) :
    Alike v Eq (Exec.block c rounds ss) (Exec.block c rounds (Stmt.seenAll v ss)) := by
  induction ss using Stmt.block_induction with
  | nil => exact .pure rfl
  | cons s inner ss ih =>
      simp only [Stmt.seenAll, Exec.block]
      refine (stmt c rounds s inner).bind fun flow _ same => ?_
      subst same
      cases flow with
      | leave => exact .pure rfl
      | next => exact ih

theorem programSeen (p : Program) (args : List Value) :
    Alike v Eq (Exec.program c rounds p args) (Exec.program c rounds (p.seen v) args) := by
  have counts : (p.seen v).params.length = p.params.length := List.length_map _
  refine .optional (by rw [counts]) (fail ?_) ?_
  · rw [counts]
    rfl
  · refine (bindParams p.params args).bind fun _ _ _ => ?_
    refine (announce p.classes _).bind fun _ _ _ => ?_
    exact (block c rounds p.body).discard

/-- Programs that look the same run alike. -/
theorem program {p p' : Program} (same : p.seen v = p'.seen v) (args : List Value) :
    Alike v Eq (Exec.program c rounds p args) (Exec.program c rounds p' args) := by
  have first := programSeen (v := v) c rounds p args
  have second := programSeen (v := v) c rounds p' args
  rw [← same] at second
  exact first.trans (fun _ => rfl) (fun _ _ _ => Eq.trans) (fun _ _ _ => Eq.trans)
    (fun _ _ _ => Eq.trans)
    (second.symm (fun _ _ => Eq.symm) (fun _ _ => Eq.symm) fun _ _ => Eq.symm)

end Exec.Alike

/-- Machines for programs that look the same do the same: they make the same calls to a console,
execute as many statements, leave the same variables and end alike. -/
theorem Machine.run_alike {v : View} {m m' : Machine} (same : m.program.seen v = m'.program.seen v)
    {σ : Type} (c : Console σ) (console : σ) (tracer tracer' : Trace.Tracer)
    (parent parent' rounds : Nat) (args : List Value) :
    let ran := m.run c console tracer parent rounds args
    let ran' := m'.run c console tracer' parent' rounds args
    Ends (InvImage Eq (Stop.seen v)) Eq ran.result ran'.result ∧
      ran.console = ran'.console ∧ ran.machine.steps = ran'.machine.steps ∧
      ran.machine.vars = ran'.machine.vars := by
  obtain ⟨ends, states⟩ := Exec.Alike.program c rounds same args
    { tracer := (tracer.beginSpan .unit ("exec:" ++ m.program.name) parent).2, console }
    { tracer := (tracer'.beginSpan .unit ("exec:" ++ m'.program.name) parent').2, console } rfl
  exact ⟨ends, Exec.Alike.console_eq states, Exec.Alike.steps_eq states,
    Exec.Alike.vars_eq states⟩

end PrgScript
