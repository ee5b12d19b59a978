import PrgScript.Machine.Basic
import PrgScript.Proofs.Parts
import PrgScript.Proofs.Step

/-!
# Properties that all of an execution has

Whatever a machine does is put together from a few primitive steps: it reads or sets a
variable, remembers a line, enters a statement, calls the console, announces classes, or
stops. `Exec.Serial` says of a property of steps that sequences inherit it and that what
evaluates expressions has it. Loops then have it if their bodies have, by induction on the
bound, and blocks if each statement has that holds only such blocks, by induction on the
statements. `Exec.Steady` adds entering a statement and calling the console, so that only
setting the variables that are named is left to show. `Exec.Closed` is about properties that
setting any variable has, and so whole programs. `Exec.Leaves` is the frame property: a step
leaves a part of the state alone.
-/

namespace PrgScript.Exec

variable {σ : Type}

/-- A property of steps that sequences inherit, and that the primitive steps have which evaluate
expressions or stop. -/
structure Serial (P : ∀ {α : Type}, Exec σ α → Prop) : Prop where
  pure {α : Type} (a : α) : P (pure a : Exec σ α)
  bind {α β : Type} {x : Exec σ α} {f : α → Exec σ β} : P x → (∀ a, P (f a)) → P (x >>= f)
  outOfFuel {α : Type} : P (throw .outOfFuel : Exec σ α)
  fail {α : Type} (cause : ExecCause) : P (Exec.fail cause : Exec σ α)
  readVariables : P (do return (← get).vars : Exec σ Variables)
  setLine (line : Nat) : P (setLine line : Exec σ Unit)

/-- A property of steps that sequences inherit, and that the primitive steps have which neither
set a variable nor announce classes. -/
structure Steady (P : ∀ {α : Type}, Exec σ α → Prop) : Prop extends Serial @P where
  call (f : σ → Except Text σ) : P (call f : Exec σ Unit)
  enter (s : Stmt) : P (enter s : Exec σ Unit)

/-- A property of steps that the primitive steps have and that sequences inherit. -/
structure Closed (P : ∀ {α : Type}, Exec σ α → Prop) : Prop extends Steady @P where
  setVariable (name : Text) (v : Value) : P (setVariable name v : Exec σ Unit)
  announce (classes : List Class) : P (announce classes : Exec σ Unit)

namespace Serial

variable {P : ∀ {α : Type}, Exec σ α → Prop} (serial : Serial @P)

include serial

/-- A step that looks at the variables. -/
theorem reading {α : Type} {f : Variables → Exec σ α} (each : ∀ vars, P (f vars)) :
    P (do f (← get).vars) := by
  have sequence := serial.bind serial.readVariables each
  simpa only [bind_assoc, pure_bind] using sequence

theorem discarding {α : Type} {x : Exec σ α} (kept : P x) : P (discard x) := by
  have ended := serial.bind kept fun _ => serial.pure ()
  rwa [bind_pure_comp] at ended

theorem require {α : Type} (r : Except ExecCause α) : P (Exec.require r : Exec σ α) := by
  cases r with
  | ok a => exact serial.pure a
  | error cause => exact serial.fail cause

theorem value (e : Expr) : P (Exec.value e : Exec σ Value) :=
  serial.reading (f := fun vars => Exec.require (eval vars e)) fun _ => serial.require _

theorem condition (word : ConditionOf) (e : Expr) : P (Exec.condition word e : Exec σ Bool) :=
  serial.bind (serial.value e) fun _ => serial.require _

theorem number (place : NumberFor) (e : Expr) : P (Exec.number place e : Exec σ Float) :=
  serial.bind (serial.value e) fun _ => serial.require _

theorem position (place : NumberFor) (e : Expr) : P (Exec.position place e : Exec σ Nat) := by
  refine serial.bind (serial.value e) fun v => serial.bind (serial.require _) fun x => ?_
  split
  · exact serial.fail _
  · exact serial.pure _

theorem values (es : List Expr) : P (Exec.values es : Exec σ (List Value)) := by
  induction es with
  | nil => exact serial.pure []
  | cons e es ih =>
      exact serial.bind (serial.value e) fun _ => serial.bind ih fun _ => serial.pure _

theorem counterValue (counter : Text) : P (Exec.counterValue counter : Exec σ Float) := by
  have looked : (Exec.counterValue counter : Exec σ Float) = (get >>= fun s =>
      (s.vars.get? counter).elim (Exec.fail (.undefinedVariable counter)) fun v =>
        Exec.require (v.toNumber (.forCounter counter))) := by
    unfold Exec.counterValue
    congr 1
    funext s
    cases s.vars.get? counter <;> rfl
  rw [looked]
  refine serial.reading (f := fun vars => (vars.get? counter).elim _ _) fun vars => ?_
  cases vars.get? counter with
  | none => exact serial.fail _
  | some v => exact serial.require _

theorem declare {names : List Text}
    (assigned : ∀ name ∈ names, ∀ v, P (Exec.setVariable name v : Exec σ Unit)) :
    P (Exec.declare names : Exec σ Unit) := by
  induction names with
  | nil => exact serial.pure ()
  | cons name names ih =>
      rw [List.forall_mem_cons] at assigned
      exact serial.bind (assigned.1 _) fun _ => ih assigned.2

theorem bindParams (assigned : ∀ name v, P (Exec.setVariable name v : Exec σ Unit))
    (names : List Text) (args : List Value) : P (Exec.bindParams names args : Exec σ Unit) := by
  induction names generalizing args with
  | nil => exact serial.pure ()
  | cons name names ih =>
      cases args with
      | nil => exact serial.bind (assigned name _) fun _ => ih []
      | cons v args => exact serial.bind (assigned name v) fun _ => ih args

/-! ### Loops -/

variable {test : Exec σ Bool} {body : Exec σ Flow}

theorem whileLoop (tested : P test) (inner : P body) (line rounds : Nat) :
    P (Exec.whileLoop test body line rounds) := by
  induction rounds with
  | zero => exact serial.outOfFuel
  | succ rounds ih =>
      refine serial.bind tested fun holds => ?_
      cases holds with
      | false => exact serial.pure _
      | true =>
          refine serial.bind inner fun flow => ?_
          cases flow with
          | leave => exact serial.pure _
          | next => exact serial.bind (serial.setLine line) fun _ => ih

section Counted

variable (inner : P body) {counter : Text}
  (assigned : ∀ v, P (Exec.setVariable counter v : Exec σ Unit))

include inner assigned

theorem forLoop (limit step : Float) (line rounds : Nat) :
    P (Exec.forLoop counter limit step body line rounds) := by
  induction rounds with
  | zero => exact serial.outOfFuel
  | succ rounds ih =>
      refine serial.bind (serial.counterValue counter) fun current => ?_
      split
      · exact serial.pure _
      · refine serial.bind inner fun flow => ?_
        cases flow with
        | leave => exact serial.pure _
        | next =>
            refine serial.bind (serial.setLine line) fun _ => ?_
            refine serial.bind (serial.counterValue counter) fun _ => ?_
            exact serial.bind (assigned _) fun _ => ih

theorem countLoop (start limit : Expr) (step : Option Expr) (line rounds : Nat) :
    P (Exec.countLoop counter start limit step body line rounds) := by
  refine serial.bind (serial.number _ start) fun first => ?_
  refine serial.bind (serial.number _ limit) fun last => ?_
  have loop (by_ : Float) : P (do
      if by_ == 0 then Exec.fail (.zeroStep counter)
      Exec.setVariable counter (.number first)
      Exec.forLoop counter last by_ body line rounds) := by
    have rest := serial.bind (assigned (.number first)) fun _ =>
      serial.forLoop inner assigned last by_ line rounds
    split
    · exact serial.bind (serial.fail _) fun _ => rest
    · exact rest
  cases step with
  | none => exact serial.bind (serial.pure _) loop
  | some e => exact serial.bind (serial.number _ e) loop

end Counted

/-! ### Statements -/

variable (c : Console σ) (rounds : Nat)

/-- A statement that does not choose colours, given that entering it, showing texts, setting its
variables and what it holds have the property. -/
theorem stmt {s : Stmt} (other : ∀ colors line, s ≠ .setColor colors line)
    (entered : P (Exec.enter s : Exec σ Unit))
    (shows : ∀ row col t, P (Exec.call (c.say row col t)))
    (prints : ∀ t, P (Exec.call (c.print t)))
    (assigned : ∀ name ∈ s.sets, ∀ v, P (Exec.setVariable name v : Exec σ Unit))
    (inner : ∀ body ∈ s.bodies, P (Exec.block c rounds body)) :
    P (Exec.stmt c rounds s) := by
  cases s with
  | declare names line =>
      refine serial.bind entered fun _ => ?_
      exact serial.bind (serial.declare assigned) fun _ => serial.pure _
  | assign name e line =>
      refine serial.bind entered fun _ => serial.bind (serial.value e) fun v => ?_
      exact serial.bind (assigned name (by simp [Stmt.sets]) v) fun _ => serial.pure _
  | branch e thenBody elseBody line =>
      refine serial.bind entered fun _ => serial.bind (serial.condition _ e) fun holds => ?_
      split
      · exact inner thenBody (by simp [Stmt.bodies])
      · exact inner elseBody (by simp [Stmt.bodies])
  | forTo counter start limit step body line =>
      have held := inner body (by simp [Stmt.bodies])
      have set := assigned counter (by simp [Stmt.sets])
      refine serial.bind entered fun _ => ?_
      exact serial.countLoop held set start limit step line rounds
  | whileDo e body line =>
      have held := inner body (by simp [Stmt.bodies])
      refine serial.bind entered fun _ => ?_
      exact serial.whileLoop (serial.condition _ e) held line rounds
  | setColor colors line => exact absurd rfl (other colors line)
  | say row col e line =>
      refine serial.bind entered fun _ => serial.bind (serial.position _ row) fun r => ?_
      refine serial.bind (serial.position _ col) fun k => serial.bind (serial.value e) fun v => ?_
      exact serial.bind (shows r k v.text) fun _ => serial.pure _
  | print es newline line =>
      refine serial.bind entered fun _ => serial.bind (serial.values es) fun vs => ?_
      exact serial.bind (prints _) fun _ => serial.pure _
  | finish line => exact serial.bind entered fun _ => serial.pure _
  | malformed kind line => exact serial.bind entered fun _ => serial.fail _

/-- A block, if every statement anywhere in it has the property once the blocks have that it
holds. -/
theorem block (ss : List Stmt)
    (each : ∀ s ∈ Stmt.partsOf ss, (∀ body ∈ s.bodies, P (Exec.block c rounds body)) →
      P (Exec.stmt c rounds s)) : P (Exec.block c rounds ss) := by
  induction ss using Stmt.block_induction with
  | nil => exact serial.pure _
  | cons s inner ss ih =>
      rw [Stmt.partsOf, Stmt.parts_eq, List.cons_append, List.forall_mem_cons,
        List.forall_mem_append, List.forall_mem_flatMap] at each
      obtain ⟨own, held, rest⟩ := each
      have first := own fun body mem => inner body mem (held body mem)
      refine serial.bind first fun flow => ?_
      cases flow with
      | leave => exact serial.pure _
      | next => exact ih rest

end Serial

namespace Steady

variable {P : ∀ {α : Type}, Exec σ α → Prop} (steady : Steady @P)
  (c : Console σ) (rounds : Nat)

include steady

/-- A statement, given that setting its variables and what it holds have the property. -/
theorem stmt (s : Stmt)
    (assigned : ∀ name ∈ s.sets, ∀ v, P (Exec.setVariable name v : Exec σ Unit))
    (inner : ∀ body ∈ s.bodies, P (Exec.block c rounds body)) :
    P (Exec.stmt c rounds s) := by
  by_cases paints : ∃ colors line, s = .setColor colors line
  · obtain ⟨colors, line, rfl⟩ := paints
    refine steady.bind (steady.enter _) fun _ => ?_
    exact steady.bind (steady.call _) fun _ => steady.pure _
  · refine steady.toSerial.stmt c rounds ?_ (steady.enter s) (fun _ _ _ => steady.call _)
      (fun _ => steady.call _) assigned inner
    intro colors line same
    exact paints ⟨colors, line, same⟩

/-- A block, if setting the variables has the property that are named anywhere in it. -/
theorem block (ss : List Stmt) (assigned : ∀ s ∈ Stmt.partsOf ss, ∀ name ∈ s.sets,
    ∀ v, P (Exec.setVariable name v : Exec σ Unit)) : P (Exec.block c rounds ss) :=
  steady.toSerial.block c rounds ss fun s mem inner =>
    steady.stmt c rounds s (assigned s mem) inner

end Steady

/-! ### What a step leaves alone -/

/-- A step leaves a part of the state alone, however it ends. -/
def Leaves {α β : Type} (part : Session σ → β) (x : Exec σ α) : Prop :=
  ∀ s, part (Step.outcome x s).2 = part s

namespace Leaves

variable {γ : Type} {part : Session σ → γ}

theorem bind {α β : Type} {x : Exec σ α} {f : α → Exec σ β} (first : Leaves part x)
    (rest : ∀ a, Leaves part (f a)) : Leaves part (x >>= f) := by
  intro s
  have after := first s
  rw [Step.outcome_bind]
  cases ended : Step.outcome x s with
  | mk result s' =>
      rw [ended] at after
      cases result with
      | ok a => exact (rest a s').trans after
      | error e => exact after

/-- What depends on the variables and the classes alone is left alone by every step that sets
neither. -/
theorem steady
    (only : ∀ s s' : Session σ, s'.vars = s.vars → s'.classes = s.classes → part s' = part s) :
    Steady (fun {α} (x : Exec σ α) => Leaves part x) where
  pure _ _ := rfl
  bind := bind
  outOfFuel _ := rfl
  fail _ _ := rfl
  readVariables _ := rfl
  setLine _ s := only s _ rfl rfl
  call f s := by
    cases called : f s.console with
    | ok console => simpa [call, Step.outcome_bind, called] using only s { s with console } rfl rfl
    | error message => simp [call, fail, Step.outcome_bind, called]
  enter _ s := only s _ rfl rfl

end Leaves

/-! ### Programs -/

namespace Closed

variable {P : ∀ {α : Type}, Exec σ α → Prop} (closed : Closed @P)

include closed

/-- A property of the primitive steps is one of every program. -/
theorem program (c : Console σ) (rounds : Nat) (p : Program) (args : List Value) :
    P (Exec.program c rounds p args) := by
  have run : P (do
      Exec.bindParams p.params args
      Exec.announce p.classes
      discard (Exec.block c rounds p.body)) := by
    refine closed.bind (closed.bindParams closed.setVariable p.params args) fun _ => ?_
    refine closed.bind (closed.announce p.classes) fun _ => ?_
    refine closed.discarding (closed.toSteady.block c rounds p.body ?_)
    exact fun _ _ name _ => closed.setVariable name
  unfold Exec.program
  split
  · exact closed.bind (closed.fail _) fun _ => run
  · exact run

end Closed

end PrgScript.Exec
