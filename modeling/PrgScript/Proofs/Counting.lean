import PrgScript.Proofs.Primitives
import PrgScript.Proofs.Step

/-!
# Counting loops

The counter of a loop is a variable like any other: the loop reads it before each round to
see whether it has passed the limit, and again behind the round to move it on. If nothing in
the body sets the counter, both readings find what the loop has written itself. The numbers
that the counter goes through are then those of `progression`, which depends on the start and
the step alone.

`Exec.Spares` is the frame argument: a step leaves the value of a variable alone. Everything that
does not set a variable does, so a block does if no statement in it sets the variable. `Rounds`
says which states the body is started in, with the counter at the numbers of a given sequence,
and `LoopEnds` how a loop can end after them.
-/

namespace PrgScript

open Step

/-! ### Variables -/

namespace Variables

variable (vars : Variables) {name other : Text} (v : Value)

@[simp] theorem get?_set_self : (vars.set name v).get? name = some v := by
  rw [get?, set, Table.lookup_put, if_pos rfl]

theorem get?_set_of_ne (differ : key name ≠ key other) :
    (vars.set name v).get? other = vars.get? other := by
  rw [get?, set, Table.lookup_put, if_neg differ.symm]
  rfl

end Variables

/-! ### What leaves a variable alone -/

namespace Exec

variable {σ α β : Type}

/-- A step leaves the value of a variable alone. -/
def Spares (name : Text) (x : Exec σ α) : Prop := Leaves (·.vars.get? name) x

namespace Spares

variable {name : Text}

theorem setVariable {other : Text} (differ : Variables.key other ≠ Variables.key name) (v : Value) :
    Spares name (Exec.setVariable other v : Exec σ Unit) :=
  fun s => s.vars.get?_set_of_ne v differ

theorem steady : Steady (fun {α} (x : Exec σ α) => Spares name x) :=
  Leaves.steady fun _ _ vars _ => by rw [vars]

/-- A block in which no statement sets a variable leaves it alone. -/
theorem block (c : Console σ) (rounds : Nat) {ss : List Stmt}
    (untouched : ∀ s ∈ Stmt.partsOf ss, ∀ other ∈ s.sets,
      Variables.key other ≠ Variables.key name) :
    Spares name (Exec.block c rounds ss) :=
  steady.block c rounds ss fun s mem other set v => setVariable (untouched s mem other set) v

end Spares

end Exec

/-! ### Rounds -/

/-- The numbers of a counter that starts at `first` and is moved on by `by_`. -/
def progression (first by_ : Float) : Nat → Float
  | 0 => first
  | k + 1 => progression first by_ k + by_

namespace Session

variable {σ : Type}

def setNumber (s : Session σ) (name : Text) (x : Float) : Session σ :=
  { s with vars := s.vars.set name (.number x) }

/-- The loop at `line` has started its body `n` times and is in the last state, with `counter` at
`v n`: each round has started with the counter at its number of the sequence, and has not left the
script. -/
inductive Rounds (body : Exec σ Flow) (counter : Text) (line : Nat) (v : Nat → Float)
    (s : Session σ) : Nat → Session σ → Prop
  | start : Rounds body counter line v s 0 (s.setNumber counter (v 0))
  | round {n : Nat} {t u : Session σ} (before : Rounds body counter line v s n t)
      (ends : outcome body t = (.ok .next, u)) :
      Rounds body counter line v s (n + 1) ({ u with line }.setNumber counter (v (n + 1)))

/-- How a loop with a bound on its rounds ends when it has got to the state `t` in `n` rounds. -/
inductive LoopEnds (body : Exec σ Flow) (bound : Nat) (hasPassed : Bool) (n : Nat)
    (t : Session σ) : Except Stop Flow × Session σ → Prop
  | passed (within : n < bound) (passed : hasPassed = true) :
      LoopEnds body bound hasPassed n t (.ok .next, t)
  /-- The next round leaves the script or stops. -/
  | broken (within : n < bound) (goesOn : hasPassed = false)
      (stopped : (outcome body t).1 ≠ .ok .next) :
      LoopEnds body bound hasPassed n t (outcome body t)
  | exhausted (used : n = bound) : LoopEnds body bound hasPassed n t (.error .outOfFuel, t)

theorem Rounds.get?_counter {body : Exec σ Flow} {counter : Text} {line : Nat} {v : Nat → Float}
    {s t : Session σ} {n : Nat} (rounds : Rounds body counter line v s n t) :
    t.vars.get? counter = some (.number (v n)) := by
  cases rounds with
  | start | round => exact Variables.get?_set_self _ _

end Session

/-! ### The loop -/

namespace Exec

open Session

variable {σ : Type} {counter : Text} {s : Session σ}

theorem outcome_counterValue {x : Float} (h : s.vars.get? counter = some (.number x)) :
    outcome (counterValue counter) s = (.ok x, s) := by
  simp [counterValue, outcome_bind, h, Value.toNumber, require]

theorem outcome_number {e : Expr} {x : Float} (place : NumberFor)
    (h : eval s.vars e = .ok (.number x)) : outcome (number place e) s = (.ok x, s) := by
  simp [number, value, outcome_bind, h, Value.toNumber, require]

/-- One round: the counter is found as it was written, so that it is moved on by one step. -/
theorem outcome_forLoop_round {limit by_ x : Float} {body : Exec σ Flow} {u : Session σ}
    (spares : Spares counter body) (reads : s.vars.get? counter = some (.number x))
    (goesOn : hasPassed by_ limit x = false) (ends : outcome body s = (.ok .next, u))
    (line left : Nat) :
    outcome (forLoop counter limit by_ body line (left + 1)) s =
      outcome (forLoop counter limit by_ body line left)
        ({ u with line }.setNumber counter (x + by_)) := by
  have kept : u.vars.get? counter = some (.number x) := by
    have same : (outcome body s).2.vars.get? counter = s.vars.get? counter := spares s
    rwa [ends, reads] at same
  have moved : ({ u with line } : Session σ).vars.get? counter = some (.number x) := kept
  rw [forLoop, outcome_bind_of_ok (outcome_counterValue reads)]
  simp only [goesOn, Bool.false_eq_true, if_false]
  rw [outcome_bind_of_ok ends, setLine, outcome_bind_of_ok (outcome_modify _ _),
    outcome_bind_of_ok (outcome_counterValue moved), setVariable,
    outcome_bind_of_ok (outcome_modify _ _)]
  rfl

variable {a b by_ : Float} {body : Exec σ Flow} {line : Nat}

/-- A loop that has got through some rounds goes on to the first number that has passed the limit,
unless a round breaks it or its bound is used up. The induction is on the rounds that are left. -/
theorem forLoop_rounds (spares : Spares counter body) (left : Nat) {k : Nat} {t : Session σ}
    (reached : Rounds body counter line (progression a by_) s k t)
    (before : ∀ j < k, hasPassed by_ b (progression a by_ j) = false) :
    ∃ n t', Rounds body counter line (progression a by_) s n t' ∧
      (∀ j < n, hasPassed by_ b (progression a by_ j) = false) ∧
      LoopEnds body (k + left) (hasPassed by_ b (progression a by_ n)) n t'
        (outcome (forLoop counter b by_ body line left) t) := by
  induction left generalizing k t with
  | zero => exact ⟨k, t, reached, before, .exhausted rfl⟩
  | succ left ih =>
      have reads := reached.get?_counter
      cases passed : hasPassed by_ b (progression a by_ k) with
      | true =>
          refine ⟨k, t, reached, before, ?_⟩
          rw [forLoop, outcome_bind_of_ok (outcome_counterValue reads), if_pos passed]
          exact .passed (by omega) passed
      | false =>
          by_cases ends : (outcome body t).1 = .ok .next
          · have ended : outcome body t = (.ok .next, (outcome body t).2) := Prod.ext ends rfl
            have all : ∀ j < k + 1, hasPassed by_ b (progression a by_ j) = false := by
              intro j less
              rcases Nat.lt_succ_iff_lt_or_eq.1 less with earlier | rfl
              · exact before j earlier
              · exact passed
            rw [outcome_forLoop_round spares reads passed ended, Nat.add_comm left,
              ← Nat.add_assoc]
            exact ih (.round reached ended) all
          · refine ⟨k, t, reached, before, ?_⟩
            have stops : outcome (forLoop counter b by_ body line (left + 1)) t =
                outcome body t := by
              rw [forLoop, outcome_bind_of_ok (outcome_counterValue reads),
                if_neg (by simp [passed]), outcome_bind]
              cases ended : outcome body t with
              | mk result u =>
                  rw [ended] at ends
                  cases result with
                  | error => rfl
                  | ok flow =>
                      cases flow with
                      | leave => rfl
                      | next => exact absurd rfl ends
            rw [stops]
            exact .broken (by omega) passed ends

/-- Start, limit and step are evaluated once, before the counter is set. -/
theorem outcome_countLoop {start limit : Expr} {step : Option Expr}
    (first : eval s.vars start = .ok (.number a)) (last : eval s.vars limit = .ok (.number b))
    (stride : step.elim (by_ = 1) fun e => eval s.vars e = .ok (.number by_))
    (moves : (by_ == 0) = false) (rounds : Nat) :
    outcome (countLoop counter start limit step body line rounds) s =
      outcome (forLoop counter b by_ body line rounds) (s.setNumber counter a) := by
  rw [countLoop, outcome_bind_of_ok (outcome_number .forStart first),
    outcome_bind_of_ok (outcome_number .forLimit last)]
  have loop : outcome (do
      if by_ == 0 then fail (.zeroStep counter)
      setVariable counter (.number a)
      forLoop counter b by_ body line rounds) s =
      outcome (forLoop counter b by_ body line rounds) (s.setNumber counter a) := by
    simp only [moves, Bool.false_eq_true, if_false]
    exact outcome_bind_of_ok (outcome_modify _ s)
  cases step with
  | none =>
      obtain rfl : by_ = 1 := stride
      exact loop
  | some e => exact (outcome_bind_of_ok (outcome_number .forStep stride)).trans loop

end Exec

/-- A counting loop whose body does not set the counter goes through an arithmetic progression: its
body is started once for each number before the first one that has passed the limit, with the
counter at that number, and then the loop ends with the counter at the first one that has. Start,
limit and step are those from before the first round. Only a round that leaves the script or stops,
or the bound on the rounds, ends the loop earlier. -/
theorem forTo_progression {σ : Type} (c : Console σ) (rounds : Nat) {counter : Text}
    {start limit : Expr} {step : Option Expr} {body : List Stmt} {line : Nat} {s : Session σ}
    {a b by_ : Float} (first : eval s.vars start = .ok (.number a))
    (last : eval s.vars limit = .ok (.number b))
    (stride : step.elim (by_ = 1) fun e => eval s.vars e = .ok (.number by_))
    (moves : (by_ == 0) = false)
    (untouched : ∀ x ∈ Stmt.partsOf body, ∀ name ∈ x.sets,
      Variables.key name ≠ Variables.key counter) :
    let loop : Stmt := .forTo counter start limit step body line
    let inner := Exec.block c rounds body
    let v := progression a by_
    let entered := (outcome (Exec.enter loop) s).2
    (∀ k t, Session.Rounds inner counter line v entered k t →
      t.vars.get? counter = some (.number (v k))) ∧
      ∃ n t, Session.Rounds inner counter line v entered n t ∧
        (∀ k < n, Exec.hasPassed by_ b (v k) = false) ∧
        Session.LoopEnds inner rounds (Exec.hasPassed by_ b (v n)) n t
          (outcome (Exec.stmt c rounds loop) s) := by
  intro loop inner v entered
  refine ⟨fun k t reached => reached.get?_counter, ?_⟩
  have counted : outcome (Exec.stmt c rounds loop) s =
      outcome (Exec.forLoop counter b by_ inner line rounds) (entered.setNumber counter a) := by
    have enters : outcome (Exec.enter loop) s = (.ok (), entered) := rfl
    rw [Exec.stmt, outcome_bind_of_ok enters]
    exact Exec.outcome_countLoop (s := entered) first last stride moves rounds
  have progress := Exec.forLoop_rounds (b := b) (.block c rounds untouched) rounds
    (.start : Session.Rounds inner counter line v entered 0 _) (by simp)
  rw [Nat.zero_add] at progress
  rw [counted]
  exact progress

/-- A loop to a limit that its own body lowers below the start. -/
theorem forTo_progression_lowered_limit :
    let s : Session Unit := { vars := [("N", .number 2)], console := () }
    let body : List Stmt := [.assign "n" (.number 0 2) 2]
    let loop : Stmt := .forTo "i" (.number 1 1) (.ident "n" 1) none body 1
    let inner := Exec.block Console.down 5 body
    let v := progression 1 1
    eval s.vars (.ident "n" 1) = .ok (.number 2) ∧
      (∀ x ∈ Stmt.partsOf body, ∀ name ∈ x.sets, Variables.key name ≠ Variables.key "i") ∧
      ∃ n t, Session.Rounds inner "i" 1 v (outcome (Exec.enter loop) s).2 n t ∧
        (∀ k < n, Exec.hasPassed 1 2 (v k) = false) ∧
        Session.LoopEnds inner 5 (Exec.hasPassed 1 2 (v n)) n t
          (outcome (Exec.stmt Console.down 5 loop) s) := by
  intro s body loop inner v
  have last : eval s.vars (.ident "n" 1) = .ok (.number 2) := rfl
  have untouched : ∀ x ∈ Stmt.partsOf body, ∀ name ∈ x.sets,
      Variables.key name ≠ Variables.key "i" := by
    intro x mem name set
    obtain rfl : x = .assign "n" (.number 0 2) 2 := List.mem_singleton.1 mem
    obtain rfl : name = "n" := List.mem_singleton.1 set
    decide
  have progress := @forTo_progression Unit Console.down 5 "i" (.number 1 1) (.ident "n" 1) none body
    1 s 1 2 1 rfl last rfl (by decide) untouched
  exact ⟨last, untouched, progress.2⟩

end PrgScript
