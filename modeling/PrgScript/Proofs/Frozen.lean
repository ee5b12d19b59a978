import PrgScript.Proofs.Misuse

/-!
# Builds that have ended

Ending a build hands its program over, and the builder keeps hold of it. There is no gate
that every later call has to pass: a call that writes a line is stopped over the line, and
the others find the header written, no block open or no class open. `Ended` collects what
they find. It is kept by every call, and by what the holder of the program may do to it,
which is to add lines and to seal it.

One call gets through. A declaration of no variables has no line to be stopped over, and
is added to the body of the program, sealed or not.
-/

namespace PrgScript.Builder

open Step

/-- A build that has ended: no line can be written, and nothing is open. -/
structure Ended (b : Builder) : Prop where
  finished : b.finished = true
  header : b.hasHeader = true
  frames : b.frames = []
  openClass : b.openClass = none

/-- Whether a call declares no variables, and so writes no line. -/
def Call.declaresNothing : Call → Bool
  | .declare [] _ => true
  | _ => false

/-- What can happen to a build that has ended: a call, or what the holder of its program does. -/
inductive Event where
  | call (c : Call)
  | append (line : Text)
  | close

/-- The state after an event. A sealed program takes no line from its holder. -/
def next (b : Builder) : Event → Builder
  | .call c => (b.call c).2
  | .append line => { b with compiled := (b.compiled.append line).toOption.getD b.compiled }
  | .close => { b with compiled := b.compiled.close }

def follow (b : Builder) (evs : List Event) : Builder := evs.foldl next b

/-- Once a build has ended, nothing is open. -/
theorem Sound.ended {missing : Nat} {b : Builder} (sound : b.Sound missing)
    (finished : b.finished = true) : b.Ended where
  finished := finished
  header := (sound.closed finished).2
  frames := (sound.closed finished).1
  openClass := by
    have none := sound.openClass
    simpa [(sound.closed finished).1] using none

/-- A build that could be ended has ended. -/
theorem Sound.ended_finish {missing : Nat} {b : Builder} (sound : b.Sound missing)
    (done : (b.call .finish).1 = .ok ()) : (b.call .finish).2.Ended := by
  obtain ⟨missing', -, after⟩ := sound.call .finish
  refine after.ended ?_
  simp only [call_eq, perform] at done ⊢
  obtain ⟨-, ends⟩ | ⟨e, -, refused⟩ := sound.finish_cases
  · rw [outcome_discard_of_ok ends]
  · rw [outcome_discard_of_error refused] at done
    cases done

namespace Ended

variable {b : Builder} (ended : b.Ended)

include ended

theorem outcome_emit (text : Text) : outcome (emit text) b = (.error .programSealed, b) := by
  simp [emit, outcome_bind, ended.finished]

/-- A step that begins with a line is stopped there. -/
theorem outcome_emit_bind {α : Type} (text : Text) (rest : Unit → Build α) :
    outcome (emit text >>= rest) b = (.error .programSealed, b) :=
  outcome_bind_of_error (ended.outcome_emit text)

/-- Every call but one is refused with nothing changed. -/
theorem refuses {c : Call} (declares : c.declaresNothing = false) :
    ∃ e, b.call c = (.error e, b) := by
  simp only [call_eq]
  cases c with
  | setParams => simp [perform, setParams, outcome_bind, ended.header]
  | declare names line =>
      cases names with
      | nil => cases declares
      | cons name names =>
          exact ⟨_, outcome_bind_of_error (ended.outcome_emit_bind _ _)⟩
  | assign | beginIf | beginFor | beginWhile | setColor | say | print | finishScript =>
      exact ⟨_, ended.outcome_emit_bind _ _⟩
  | beginElse => simp [perform, beginElse, outcome_bind, ended.frames]
  | endIf | endFor | endWhile => simp [perform, closeBlock, pop, outcome_bind, ended.frames]
  | beginClass name base line =>
      cases valid : base.isValid with
      | false => simp [perform, beginClass, valid]
      | true =>
          simp [perform, beginClass, valid, outcome_bind, ended.openClass, ended.outcome_emit]
  | classProperty => simp [perform, classProperty, outcome_bind, ended.openClass]
  | endClass => simp [perform, endClass, outcome_bind, ended.openClass]
  | finish =>
      have refused : outcome Builder.finish b = (.error .programSealed, b) := by
        simp [Builder.finish, outcome_bind, ended.finished]
      exact ⟨_, outcome_discard_of_error refused⟩

/-- A declaration of no variables is added to the body. -/
theorem call_declare_nil (line : Nat) :
    b.call (.declare [] line) = (.ok (), b.addToBody (.declare [] line)) := by
  have added : b.addStmt (.declare [] line) = b.addToBody (.declare [] line) := by
    simp only [addStmt, ended.frames]
  rw [call_eq, ← added]
  rfl

theorem call (c : Call) : (b.call c).2.Ended := by
  cases declares : c.declaresNothing with
  | false =>
      obtain ⟨e, refused⟩ := ended.refuses declares
      rw [refused]
      exact ended
  | true =>
      obtain ⟨line, rfl⟩ : ∃ line, c = .declare [] line := by
        cases c with
        | declare names line =>
            cases names with
            | nil => exact ⟨line, rfl⟩
            | cons => cases declares
        | _ => cases declares
      rw [ended.call_declare_nil]
      exact ⟨ended.finished, ended.header, ended.frames, ended.openClass⟩

theorem next (ev : Event) : (b.next ev).Ended := by
  cases ev with
  | call c => exact ended.call c
  | append | close => exact ⟨ended.finished, ended.header, ended.frames, ended.openClass⟩

theorem follow (evs : List Event) : (b.follow evs).Ended := by
  induction evs generalizing b with
  | nil => exact ended
  | cons ev evs ih => exact ih (ended.next ev)

end Ended

/-- After a build has ended, whatever has happened since, every call is refused and leaves the
builder and its program as they were, unless it declares no variables. Such a call succeeds and
adds its statement to the body of the program. -/
theorem finished_refuses_calls (name : Text) (before : List Call)
    (done : (((start name).after before).call .finish).1 = .ok ()) (later : List Event) :
    let b := (((start name).after before).call .finish).2.follow later
    (∀ c : Call, c.declaresNothing = false → ∃ e, b.call c = (.error e, b)) ∧
      ∀ line, b.call (.declare [] line) = (.ok (), b.addToBody (.declare [] line)) := by
  intro b
  obtain ⟨missing, -, sound⟩ := (sound_start name).after before
  have ended : b.Ended := (sound.ended_finish done).follow later
  exact ⟨fun c => ended.refuses, ended.call_declare_nil⟩

/-- A build with a loop, ended and sealed, that then is asked for a further line and for nothing. -/
theorem finished_refuses_calls_sealed :
    let before : List Call := [.beginWhile (.logical true 1) 1, .finish, .endWhile]
    let b := (((start "u").after before).call .finish).2.follow
      [.append "note", .close, .call (.declare [] 4), .append "late"]
    (((start "u").after before).call .finish).1 = .ok () ∧
      b.compiled.isSealed = true ∧ b.compiled.lines.length = 5 ∧
      ∃ e, b.call (.finishScript 5) = (.error e, b) :=
  ⟨rfl, rfl, rfl, (finished_refuses_calls "u"
    [.beginWhile (.logical true 1) 1, .finish, .endWhile] rfl
    [.append "note", .close, .call (.declare [] 4), .append "late"]).1 _ rfl⟩

/-- A program that is finished and sealed still gets a statement from a declaration of nothing. -/
theorem sealed_takes_empty_declaration :
    let b := (((start "u").call .finish).2).next .close
    b.compiled.isSealed = true ∧ b.compiled.program.body.length = 0 ∧
      (b.call (.declare [] 2)).1 = .ok () ∧
      (b.call (.declare [] 2)).2.compiled.program.body = [.declare [] 2] :=
  ⟨rfl, rfl, rfl, rfl⟩

end PrgScript.Builder
