import PrgScript.Machine.Basic
import PrgScript.Proofs.Parts
import PrgScript.Proofs.Step

/-!
# The line of a fault

A session remembers one line. A statement sets it when it is entered, the statements inside set
it in their turn, and a loop sets it back behind each round. `Placed` is an interpreter that
remembers no line: whoever evaluates something or calls the console says on which line, which is
always the line of the statement at hand. It keeps no trace either.

`Follows` compares the two. What is known of the remembered line before a step and after it is
part of the comparison: after a statement nothing is known, and whatever is evaluated next has
been preceded by something that sets the line. At the same time it collects what can be said of the
faults. `Stmt.Raises` says which faults are a statement's own.
-/

namespace PrgScript

open Step

/-! ### What statements evaluate -/

namespace Expr

def truthIn (word : ConditionOf) (e : Expr) (vars : Variables) : Except ExecCause Bool := do
  (← eval vars e).truth word

def numberIn (place : NumberFor) (e : Expr) (vars : Variables) : Except ExecCause Float := do
  (← eval vars e).toNumber place

def positionIn (place : NumberFor) (e : Expr) (vars : Variables) : Except ExecCause Nat := do
  let v ← eval vars e
  let x ← v.toNumber place
  if x < 0 || x != x.floor || Exec.largestPosition < x then .error (.badPosition place v.text)
  else return x.toUInt64.toNat

end Expr

namespace Variables

def counterIn (counter : Text) (vars : Variables) : Except ExecCause Float :=
  match vars.get? counter with
  | some v => v.toNumber (.forCounter counter)
  | none => .error (.undefinedVariable counter)

/-- The step of a loop, which must not be zero. -/
def stepIn (counter : Text) (step : Option Expr) (vars : Variables) : Except ExecCause Float := do
  let by_ ← match step with
    | some e => e.numberIn .forStep vars
    | none => return 1
  if by_ == 0 then .error (.zeroStep counter) else return by_

def declare (names : List Text) (vars : Variables) : Variables :=
  names.foldl (fun vars name => vars.set name .initial) vars

/-- The variables of a script that is called with arguments. -/
def bindParams : List Text → List Value → Variables → Variables
  | [], _, vars => vars
  | name :: names, args, vars => bindParams names args.tail (vars.set name (args.headD .initial))

end Variables

theorem Exec.outcome_bindParams {σ : Type} (names : List Text) (args : List Value)
    (s : Session σ) :
    outcome (bindParams names args) s =
      (.ok (), { s with vars := s.vars.bindParams names args }) := by
  induction names generalizing args s with
  | nil => rfl
  | cons name names ih =>
      cases args with
      | nil => exact ih [] { s with vars := s.vars.set name .initial }
      | cons v vs => exact ih vs { s with vars := s.vars.set name v }

/-- What is wrong with a statement that cannot be executed. -/
def malformedCause (kind : Nat) : ExecCause :=
  if 1 ≤ kind ∧ kind ≤ 8 then .missingContent else .unknownStatement kind

/-- A call to a console fails with a message, and this is the fault of the script that it gives. -/
def CallFails {σ : Type} (called : Except Text σ) (cause : ExecCause) : Prop :=
  ∃ message, called = .error message ∧ cause = .consoleFailed message

/-- The causes that a statement raises itself, with the variables and the console as they are at
that moment. What the statements inside raise is not its own. -/
def Stmt.Raises {σ : Type} (c : Console σ) (vars : Variables) (console : σ) (cause : ExecCause) :
    Stmt → Prop
  | .declare .. | .finish .. => False
  | .assign _ e _ => eval vars e = .error cause
  | .branch e _ _ _ => e.truthIn .ifWord vars = .error cause
  | .forTo counter start limit step _ _ =>
    start.numberIn .forStart vars = .error cause ∨ limit.numberIn .forLimit vars = .error cause ∨
      vars.stepIn counter step = .error cause ∨ vars.counterIn counter = .error cause
  | .whileDo e _ _ => e.truthIn .doWhile vars = .error cause
  | .setColor colors _ => CallFails (c.setColor colors console) cause
  | .say row col e _ =>
    row.positionIn .sayRow vars = .error cause ∨ col.positionIn .sayColumn vars = .error cause ∨
      eval vars e = .error cause ∨ ∃ r k text, CallFails (c.say r k text console) cause
  | .print es _ _ =>
    es.mapM (eval vars) = .error cause ∨ ∃ text, CallFails (c.print text console) cause
  | .malformed kind _ => cause = malformedCause kind

/-- The faults of a program that is called with arguments: there are too many of them, which is a
fault of no line, or one of its statements at any depth raises something itself, on its own line. -/
inductive Program.Raises {σ : Type} (c : Console σ) (p : Program) (args : List Value) :
    ExecError → Prop
  | tooMany (many : p.params.length < args.length) :
      Raises c p args ⟨.tooManyArguments p.name p.params.length args.length, 0⟩
  | own {s : Stmt} {vars : Variables} {console : σ} {cause : ExecCause}
      (enough : args.length ≤ p.params.length) (mem : s ∈ p.statements)
      (raises : s.Raises c vars console cause) : Raises c p args ⟨cause, s.line⟩

/-! ### An interpreter without a line -/

/-- What a running script has reached, without its line and its trace. -/
structure Scene (σ : Type) where
  vars : Variables := []
  steps : Nat := 0
  console : σ

def Session.scene {σ : Type} (s : Session σ) : Scene σ :=
  { vars := s.vars, steps := s.steps, console := s.console }

/-- A step of an execution that remembers no line. -/
abbrev Placed (σ : Type) := ExceptT Stop (StateM (Scene σ))

namespace Placed

variable {σ α : Type}

def fail (line : Nat) (cause : ExecCause) : Placed σ α := throw (.fault ⟨cause, line⟩)

/-- Evaluates something for the statement on a line. -/
def evaluate (line : Nat) (f : Variables → Except ExecCause α) : Placed σ α := do
  match f (← get).vars with
  | .ok a => return a
  | .error cause => fail line cause

theorem outcome_evaluate (line : Nat) (f : Variables → Except ExecCause α) (t : Scene σ) :
    outcome (evaluate line f) t =
      ((f t.vars).mapError fun cause => .fault ⟨cause, line⟩, t) := by
  rw [evaluate, outcome_bind_of_ok (outcome_get t)]
  cases f t.vars <;> rfl

def call (line : Nat) (f : σ → Except Text σ) : Placed σ Unit := do
  match f (← get).console with
  | .ok console => modify fun s => { s with console }
  | .error message => fail line (.consoleFailed message)

def change (f : Variables → Variables) : Placed σ Unit :=
  modify fun s => { s with vars := f s.vars }

def count : Placed σ Unit := modify fun s => { s with steps := s.steps + 1 }

def whileLoop (condition : Placed σ Bool) (body : Placed σ Flow) : Nat → Placed σ Flow
  | 0 => throw .outOfFuel
  | rounds + 1 => do
    if ← condition then
      match ← body with
      | .leave => return .leave
      | .next => whileLoop condition body rounds
    else return .next

def forLoop (line : Nat) (counter : Text) (limit step : Float) (body : Placed σ Flow) :
    Nat → Placed σ Flow
  | 0 => throw .outOfFuel
  | rounds + 1 => do
    if Exec.hasPassed step limit (← evaluate line (Variables.counterIn counter)) then return .next
    else
      match ← body with
      | .leave => return .leave
      | .next =>
        let current ← evaluate line (Variables.counterIn counter)
        change (·.set counter (.number (current + step)))
        forLoop line counter limit step body rounds

mutual

/-- Executes a statement: what it evaluates itself is on its own line. -/
def stmt (c : Console σ) (rounds : Nat) (s : Stmt) : Placed σ Flow :=
  match s with
  | .declare names _ => do
    count
    change (.declare names)
    return .next
  | .assign name e line => do
    count
    let v ← evaluate line (eval · e)
    change (·.set name v)
    return .next
  | .branch e thenBody elseBody line => do
    count
    if ← evaluate line (e.truthIn .ifWord) then block c rounds thenBody
    else block c rounds elseBody
  | .forTo counter start limit step body line => do
    count
    let first ← evaluate line (start.numberIn .forStart)
    let last ← evaluate line (limit.numberIn .forLimit)
    let by_ ← evaluate line (Variables.stepIn counter step)
    change (·.set counter (.number first))
    forLoop line counter last by_ (block c rounds body) rounds
  | .whileDo e body line => do
    count
    whileLoop (evaluate line (e.truthIn .doWhile)) (block c rounds body) rounds
  | .setColor colors line => do
    count
    call line (c.setColor colors)
    return .next
  | .say row col e line => do
    count
    let r ← evaluate line (row.positionIn .sayRow)
    let k ← evaluate line (col.positionIn .sayColumn)
    let v ← evaluate line (eval · e)
    call line (c.say r k v.text)
    return .next
  | .print es newline line => do
    count
    let vs ← evaluate line fun vars => es.mapM (eval vars)
    call line (c.print (Exec.printedText vs newline))
    return .next
  | .finish _ => do
    count
    return .leave
  | .malformed kind line => do
    count
    fail line (malformedCause kind)

def block (c : Console σ) (rounds : Nat) : List Stmt → Placed σ Flow
  | [] => return .next
  | s :: ss => do
    match ← stmt c rounds s with
    | .leave => return .leave
    | .next => block c rounds ss

end

/-- Executes a program with arguments. Too many of them are a fault of no line. -/
def program (c : Console σ) (rounds : Nat) (p : Program) (args : List Value) : Placed σ Unit := do
  if p.params.length < args.length then
    fail 0 (.tooManyArguments p.name p.params.length args.length)
  change (.bindParams p.params args)
  discard (block c rounds p.body)

end Placed

/-! ### Steps that only evaluate -/

namespace Exec

variable {σ α β : Type}

theorem fail_bind (cause : ExecCause) (f : α → Exec σ β) : fail cause >>= f = fail cause := rfl

/-- The step of a loop, which must not be zero. -/
def stepValue (counter : Text) (step : Option Expr) : Exec σ Float := do
  let by_ ← match step with
    | some e => number .forStep e
    | none => pure 1
  if by_ == 0 then fail (.zeroStep counter) else return by_

theorem countLoop_eq (counter : Text) (start limit : Expr) (step : Option Expr)
    (body : Exec σ Flow) (line rounds : Nat) :
    countLoop counter start limit step body line rounds = (do
      let first ← number .forStart start
      let last ← number .forLimit limit
      let by_ ← stepValue counter step
      setVariable counter (.number first)
      forLoop counter last by_ body line rounds) := by
  have joined (by_ : Float) (rest : Float → Exec σ Flow) :
      (if by_ == 0 then fail (.zeroStep counter) >>= fun (_ : Unit) => rest by_ else rest by_) =
        (if by_ == 0 then fail (.zeroStep counter) else pure by_) >>= rest := by
    split
    · simp only [fail_bind]
    · rw [pure_bind]
  cases step with
  | some e => simp only [countLoop, stepValue, bind_assoc, ← joined]
  | none => simp only [countLoop, stepValue, bind_assoc, ← joined]

/-- A step does nothing but evaluate something of the variables. If that fails, it is a fault on
the remembered line. -/
def Evaluates (x : Exec σ α) (f : Variables → Except ExecCause α) : Prop :=
  ∀ s, outcome x s = ((f s.vars).mapError fun cause => .fault ⟨cause, s.line⟩, s)

namespace Evaluates

theorem require (r : Except ExecCause α) : Evaluates (Exec.require r : Exec σ α) fun _ => r := by
  intro s
  cases r <;> rfl

theorem bind {x : Exec σ α} {g : α → Exec σ β} {f : Variables → Except ExecCause α}
    {h : α → Variables → Except ExecCause β} (first : Evaluates x f)
    (rest : ∀ a, Evaluates (g a) (h a)) :
    Evaluates (x >>= g) fun vars => f vars >>= fun a => h a vars := by
  intro s
  have ended := first s
  change _ = ((f s.vars >>= fun a => h a s.vars).mapError _, s)
  cases read : f s.vars with
  | ok a =>
      rw [read] at ended
      rw [outcome_bind_of_ok ended, rest a s]
      rfl
  | error cause =>
      rw [read] at ended
      rw [outcome_bind_of_error ended]
      rfl

theorem value (e : Expr) : Evaluates (Exec.value e : Exec σ Value) (eval · e) := by
  intro s
  rw [Exec.value, outcome_bind_of_ok (outcome_get s)]
  exact require (eval s.vars e) s

theorem condition (word : ConditionOf) (e : Expr) :
    Evaluates (Exec.condition word e : Exec σ Bool) (e.truthIn word) :=
  (value e).bind fun v => require (v.truth word)

theorem number (place : NumberFor) (e : Expr) :
    Evaluates (Exec.number place e : Exec σ Float) (e.numberIn place) :=
  (value e).bind fun v => require (v.toNumber place)

theorem position (place : NumberFor) (e : Expr) :
    Evaluates (Exec.position place e : Exec σ Nat) (e.positionIn place) := by
  refine (value e).bind fun v => (require (v.toNumber place)).bind fun x => ?_
  intro s
  split <;> rfl

theorem values (es : List Expr) :
    Evaluates (Exec.values es : Exec σ (List Value)) fun vars => es.mapM (eval vars) := by
  induction es with
  | nil => exact fun _ => rfl
  | cons e es ih =>
      simp only [List.mapM_cons]
      exact (value e).bind fun v => ih.bind fun vs => require (.ok (v :: vs))

theorem counterValue (counter : Text) :
    Evaluates (Exec.counterValue counter : Exec σ Float) (Variables.counterIn counter) := by
  intro s
  rw [Exec.counterValue, outcome_bind_of_ok (outcome_get s), Variables.counterIn]
  cases s.vars.get? counter with
  | some v => exact require _ s
  | none => rfl

theorem stepValue (counter : Text) (step : Option Expr) :
    Evaluates (Exec.stepValue counter step : Exec σ Float) (Variables.stepIn counter step) := by
  have nonzero (by_ : Float) :
      Evaluates (if by_ == 0 then fail (.zeroStep counter) else Pure.pure by_ : Exec σ Float)
        fun _ => if by_ == 0 then .error (.zeroStep counter) else .ok by_ := by
    intro s
    split <;> rfl
  cases step with
  | some e => exact (number .forStep e).bind nonzero
  | none => exact (require (.ok 1)).bind nonzero

end Evaluates

end Exec

/-! ### The two interpreters side by side -/

/-- The line of a session is the one that is known, if any is. -/
def Session.IsAt {σ : Type} (s : Session σ) (known : Option Nat) : Prop :=
  ∀ line ∈ known, s.line = line

/-- Two steps have ended alike, on the line `after` if they have ended well, and a fault is one
of `F`. -/
structure EndAlike {σ α : Type} (F : ExecError → Prop) (after : Option Nat)
    (ended : Except Stop α × Session σ) (placed : Except Stop α × Scene σ) : Prop where
  same : placed = (ended.1, ended.2.scene)
  line : ∀ a, ended.1 = .ok a → ended.2.IsAt after
  faults : ∀ e, ended.1 = .error (.fault e) → F e

namespace EndAlike

variable {σ α : Type} {F : ExecError → Prop} {after : Option Nat} {s : Session σ}

theorem ok (a : α) (at_ : s.IsAt after) : EndAlike F after (.ok a, s) (.ok a, s.scene) :=
  ⟨rfl, fun _ _ => at_, by simp⟩

theorem fault {e : ExecError} (raised : F e) :
    EndAlike F after ((.error (.fault e) : Except Stop α), s) (.error (.fault e), s.scene) :=
  ⟨rfl, by simp, fun e' same => by cases same; exact raised⟩

end EndAlike

/-- A step and its counterpart without a line end alike from every state on the line `before`. -/
def Follows {σ α : Type} (F : ExecError → Prop) (before after : Option Nat) (x : Exec σ α)
    (y : Placed σ α) : Prop :=
  ∀ s : Session σ, s.IsAt before → EndAlike F after (outcome x s) (outcome y s.scene)

namespace Follows

variable {σ α β : Type} {F : ExecError → Prop} {before after known : Option Nat} {line : Nat}
  {x : Exec σ α} {y : Placed σ α}

theorem pure (a : α) : Follows F known known (Pure.pure a : Exec σ α) (Pure.pure a) :=
  fun _ at_ => .ok a at_

theorem bind {f : α → Exec σ β} {g : α → Placed σ β} (first : Follows F before known x y)
    (rest : ∀ a, Follows F known after (f a) (g a)) :
    Follows F before after (x >>= f) (y >>= g) := by
  intro s at_
  have alike := first s at_
  rw [outcome_bind, outcome_bind, alike.same]
  cases ended : outcome x s with
  | mk result s' =>
      rw [ended] at alike
      cases result with
      | ok a => exact rest a s' (alike.line a rfl)
      | error stop => exact ⟨rfl, by simp, fun e same => alike.faults e (by simpa using same)⟩

/-- What is known of the line may be forgotten. -/
theorem forget (follows : Follows F before after x y) : Follows F before none x y :=
  fun s at_ => { follows s at_ with line := by simp [Session.IsAt] }

theorem fail {cause : ExecCause} (raised : F ⟨cause, line⟩) :
    Follows F (some line) after (Exec.fail cause : Exec σ α) (Placed.fail line cause) := by
  intro s at_
  obtain rfl : s.line = line := at_ line rfl
  exact .fault raised

theorem outOfFuel : Follows F before after (throw .outOfFuel : Exec σ α) (throw .outOfFuel) :=
  fun _ _ => ⟨rfl, by simp, by simp⟩

/-- An evaluation on the remembered line is one on the line that is named. -/
theorem evaluate {f : Variables → Except ExecCause α} (evaluates : x.Evaluates f)
    (raised : ∀ vars (_ : σ) cause, f vars = .error cause → F ⟨cause, line⟩) :
    Follows F (some line) (some line) x (Placed.evaluate line f) := by
  intro s at_
  obtain rfl : s.line = line := at_ line rfl
  rw [evaluates s, Placed.outcome_evaluate, show s.scene.vars = s.vars from rfl]
  cases read : f s.vars with
  | ok a => exact .ok a at_
  | error cause => exact .fault (raised s.vars s.console cause read)

theorem call {f : σ → Except Text σ}
    (raised : ∀ (_ : Variables) console cause, CallFails (f console) cause → F ⟨cause, line⟩) :
    Follows F (some line) (some line) (Exec.call f) (Placed.call line f) := by
  intro s at_
  obtain rfl : s.line = line := at_ line rfl
  rw [Exec.call, Placed.call, outcome_bind_of_ok (outcome_get s),
    outcome_bind_of_ok (outcome_get s.scene), show s.scene.console = s.console from rfl]
  cases called : f s.console with
  | ok console => exact .ok () at_
  | error message => exact .fault (raised s.vars s.console _ ⟨message, called, rfl⟩)

theorem setVariable (name : Text) (v : Value) :
    Follows F known known (Exec.setVariable name v : Exec σ Unit)
      (Placed.change (·.set name v)) :=
  fun _ at_ => .ok () at_

theorem enter (s : Stmt) :
    Follows F before (some s.line) (Exec.enter s : Exec σ Unit) Placed.count :=
  fun _ _ => .ok () (by simp [Session.IsAt])

/-- A step that needs to know nothing of the line may stand anywhere. -/
theorem of_unknown (follows : Follows F none after x y) : Follows F before after x y :=
  fun s _ => follows s (by simp [Session.IsAt])

/-- A loop sets its line back, whatever the statements inside have left there. -/
theorem setLine_bind (follows : Follows F (some line) after x y) :
    Follows F before after (Exec.setLine line >>= fun _ => x) y :=
  fun s _ => follows { s with line } (by simp [Session.IsAt])

theorem whileLoop {test : Exec σ Bool} {test' : Placed σ Bool} {body : Exec σ Flow}
    {body' : Placed σ Flow} (tests : Follows F (some line) (some line) test test')
    (inner : Follows F none none body body') (rounds : Nat) :
    Follows F (some line) none (Exec.whileLoop test body line rounds)
      (Placed.whileLoop test' body' rounds) := by
  induction rounds with
  | zero => exact outOfFuel
  | succ rounds ih =>
      rw [Exec.whileLoop, Placed.whileLoop]
      refine tests.bind fun holds => ?_
      cases holds with
      | false => exact (pure _).forget
      | true =>
          refine inner.of_unknown.bind fun flow => ?_
          cases flow with
          | leave => exact pure _
          | next => exact ih.setLine_bind

theorem forLoop {counter : Text} (limit step : Float) {body : Exec σ Flow} {body' : Placed σ Flow}
    (raised : ∀ (vars : Variables) (_ : σ) cause, vars.counterIn counter = .error cause →
      F ⟨cause, line⟩)
    (inner : Follows F none none body body') (rounds : Nat) :
    Follows F (some line) none (Exec.forLoop counter limit step body line rounds)
      (Placed.forLoop line counter limit step body' rounds) := by
  have reads : Follows F (some line) (some line) (Exec.counterValue counter : Exec σ Float) _ :=
    evaluate (.counterValue counter) raised
  induction rounds with
  | zero => exact outOfFuel
  | succ rounds ih =>
      rw [Exec.forLoop, Placed.forLoop]
      refine reads.bind fun current => ?_
      split
      · exact (pure _).forget
      · refine inner.of_unknown.bind fun flow => ?_
        cases flow with
        | leave => exact pure _
        | next =>
            apply setLine_bind
            exact reads.bind fun next => (setVariable counter _).bind fun _ => ih

theorem declare (names : List Text) :
    Follows F known known (Exec.declare names : Exec σ Unit)
      (Placed.change (Variables.declare names)) := by
  have declared (s : Session σ) : outcome (Exec.declare names) s =
      (.ok (), { s with vars := s.vars.declare names }) := by
    induction names generalizing s with
    | nil => rfl
    | cons name names ih => exact ih { s with vars := s.vars.set name .initial }
  intro s at_
  rw [declared s]
  exact .ok () at_

theorem bindParams (names : List Text) (args : List Value) :
    Follows F known known (Exec.bindParams names args : Exec σ Unit)
      (Placed.change (Variables.bindParams names args)) := by
  intro s at_
  rw [Exec.outcome_bindParams]
  exact .ok () at_

theorem discard (follows : Follows F before after x y) :
    Follows F before after (Functor.discard x) (Functor.discard y) := by
  have same := follows.bind fun _ => pure ()
  rwa [bind_pure_comp, bind_pure_comp] at same

/-- Neither the table of classes nor the trace is compared. -/
theorem announce_bind (classes : List Class) (follows : Follows F before after x y) :
    Follows F before after (Exec.announce classes >>= fun _ => x) y := by
  intro s at_
  exact follows { s with classes := _, tracer := _ } at_

/-- One statement. Its own evaluations come before anything inside it, or behind a line that has
been set back. -/
theorem stmt {c : Console σ} {rounds : Nat} (s : Stmt)
    (own : ∀ vars console cause, s.Raises c vars console cause → F ⟨cause, s.line⟩)
    (inner : ∀ body ∈ s.bodies,
      Follows F none none (Exec.block c rounds body) (Placed.block c rounds body)) :
    Follows F none none (Exec.stmt c rounds s) (Placed.stmt c rounds s) := by
  cases s with
  | declare names line =>
      rw [Exec.stmt, Placed.stmt]
      refine (enter _).bind fun _ => (declare names).bind fun _ => ?_
      exact (pure _).forget
  | assign name e line =>
      rw [Exec.stmt, Placed.stmt]
      refine (enter _).bind fun _ => (evaluate (.value e) own).bind fun v => ?_
      exact (setVariable name v).bind fun _ => (pure _).forget
  | branch e thenBody elseBody line =>
      rw [Exec.stmt, Placed.stmt]
      refine (enter _).bind fun _ => (evaluate (.condition .ifWord e) own).bind fun holds => ?_
      cases holds with
      | true => exact (inner thenBody (by simp [Stmt.bodies])).of_unknown
      | false => exact (inner elseBody (by simp [Stmt.bodies])).of_unknown
  | forTo counter start limit step body line =>
      rw [Exec.stmt, Placed.stmt, Exec.countLoop_eq]
      refine (enter _).bind fun _ => ?_
      refine (evaluate (.number .forStart start) fun _ console _ failed =>
        own _ console _ (.inl failed)).bind fun first => ?_
      refine (evaluate (.number .forLimit limit) fun _ console _ failed =>
        own _ console _ (.inr (.inl failed))).bind fun last => ?_
      refine (evaluate (.stepValue counter step) fun _ console _ failed =>
        own _ console _ (.inr (.inr (.inl failed)))).bind fun by_ => ?_
      refine (setVariable counter (.number first)).bind fun _ => ?_
      exact forLoop last by_ (fun _ console _ failed =>
        own _ console _ (.inr (.inr (.inr failed)))) (inner body (by simp [Stmt.bodies]))
        rounds
  | whileDo e body line =>
      rw [Exec.stmt, Placed.stmt]
      refine (enter _).bind fun _ => ?_
      exact whileLoop (evaluate (.condition .doWhile e) own) (inner body (by simp [Stmt.bodies]))
        rounds
  | setColor colors line =>
      rw [Exec.stmt, Placed.stmt]
      exact (enter _).bind fun _ => (call own).bind fun _ => (pure _).forget
  | say row col e line =>
      rw [Exec.stmt, Placed.stmt]
      refine (enter _).bind fun _ => ?_
      refine (evaluate (.position .sayRow row) fun _ console _ failed =>
        own _ console _ (.inl failed)).bind fun r => ?_
      refine (evaluate (.position .sayColumn col) fun _ console _ failed =>
        own _ console _ (.inr (.inl failed))).bind fun k => ?_
      refine (evaluate (.value e) fun _ console _ failed =>
        own _ console _ (.inr (.inr (.inl failed)))).bind fun v => ?_
      refine (call fun vars console _ failed =>
        own vars console _ (.inr (.inr (.inr ⟨r, k, v.text, failed⟩)))).bind fun _ => ?_
      exact (pure _).forget
  | print es newline line =>
      rw [Exec.stmt, Placed.stmt]
      refine (enter _).bind fun _ => ?_
      refine (evaluate (.values es) fun _ console _ failed =>
        own _ console _ (.inl failed)).bind fun vs => ?_
      refine (call fun vars console _ failed =>
        own vars console _ (.inr ⟨_, failed⟩)).bind fun _ => ?_
      exact (pure _).forget
  | finish line =>
      rw [Exec.stmt, Placed.stmt]
      exact (enter _).bind fun _ => (pure _).forget
  | malformed kind line =>
      rw [Exec.stmt, Placed.stmt]
      refine (enter _).bind fun _ => ?_
      intro s at_
      exact fail (own s.vars s.console _ rfl) s at_

/-- Statements one after another: before each of them nothing is known of the line. -/
theorem block {c : Console σ} {rounds : Nat} {ss : List Stmt}
    (own : ∀ s ∈ Stmt.partsOf ss, ∀ vars console cause, s.Raises c vars console cause →
      F ⟨cause, s.line⟩) :
    Follows F none none (Exec.block c rounds ss) (Placed.block c rounds ss) := by
  induction ss using Stmt.block_induction with
  | nil =>
      rw [Exec.block, Placed.block]
      exact pure _
  | cons s inner ss ih =>
      rw [Stmt.partsOf, Stmt.parts_eq, List.cons_append, List.forall_mem_cons,
        List.forall_mem_append, List.forall_mem_flatMap] at own
      obtain ⟨head, inside, behind⟩ := own
      rw [Exec.block, Placed.block]
      refine (stmt s head fun body mem => inner body mem (inside body mem)).bind fun flow => ?_
      cases flow with
      | leave => exact pure _
      | next => exact ih behind

theorem program (c : Console σ) (rounds : Nat) (p : Program) (args : List Value) :
    Follows (p.Raises c args) (some 0) none (Exec.program c rounds p args)
      (Placed.program c rounds p args) := by
  rw [Exec.program, Placed.program]
  by_cases many : p.params.length < args.length
  · simp only [if_pos many]
    exact fail (.tooMany many)
  · simp only [if_neg many]
    refine (bindParams p.params args).bind fun _ => announce_bind p.classes ?_
    refine discard (of_unknown (block fun s mem vars console cause raises => ?_))
    exact .own (Nat.le_of_not_lt many) mem raises

end Follows

/-- A fault of a run is raised by a statement of its program, or by its arguments. -/
theorem Machine.raises_of_run {σ : Type} {m : Machine} {c : Console σ} {console : σ}
    {tracer : Trace.Tracer} {parent rounds : Nat} {args : List Value} {e : ExecError}
    (failed : (m.run c console tracer parent rounds args).result = .error (.fault e)) :
    m.program.Raises c args e :=
  (Follows.program c rounds m.program args _ (by simp [Session.IsAt])).faults e failed

/-- Every run comes to what it comes to without a remembered line, where each evaluation and each
call to the console is given the line of its statement. So a fault is on the line of the
statement that raises it, or on none if there are too many arguments. -/
theorem run_places_faults {σ : Type} (m : Machine) (c : Console σ) (console : σ)
    (tracer : Trace.Tracer) (parent rounds : Nat) (args : List Value) :
    let ran := m.run c console tracer parent rounds args
    let placed := outcome (Placed.program c rounds m.program args) { console }
    (ran.result = placed.1 ∧ ran.machine.vars = placed.2.vars ∧
      ran.machine.steps = placed.2.steps ∧ ran.console = placed.2.console) ∧
      ∀ e, ran.result = .error (.fault e) → m.program.Raises c args e := by
  intro ran placed
  let start : Session σ :=
    { tracer := (tracer.beginSpan .unit ("exec:" ++ m.program.name) parent).2, console }
  have alike := Follows.program c rounds m.program args start (by simp [Session.IsAt, start])
  have same : placed = _ := alike.same
  refine ⟨?_, alike.faults⟩
  rw [same]
  exact ⟨rfl, rfl, rfl, rfl⟩

/-- A condition on line 2 that is tested again behind a statement on line 3. -/
theorem run_places_faults_retested :
    let p : Program :=
      { name := "retest"
        body :=
          [.assign "go" (.logical true 1) 1,
            .whileDo (.ident "go" 2) [.assign "go" (.string "no" 3) 3] 2] }
    let e : ExecError := ⟨.notLogical .doWhile .character, 2⟩
    (Machine.run { program := p } Console.down () {} 0 5 []).result = .error (.fault e) ∧
      p.Raises Console.down [] e := by
  intro p e
  have failed : (Machine.run { program := p } Console.down () {} 0 5 []).result =
      .error (.fault e) := rfl
  exact ⟨failed, (run_places_faults { program := p } Console.down () {} 0 5 []).2 e failed⟩

end PrgScript
