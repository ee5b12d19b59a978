import Mathlib.Data.List.Basic
import Mathlib.Logic.Equiv.Basic
import PrgScript.Proofs.Primitives
import PrgScript.Proofs.Step

/-!
# Tracing is observation only

What a step of an execution records are points, and which ones does not depend on the
tracer: `Exec.Records` says that a step does the same under every tracer and hands each
of them the same notes, one in the scope of statements for each statement it counts. The
primitive steps are of this kind, so whole programs are.

A run therefore has one list of events, `Machine.events`, and a tracer keeps those that
its level lets through. A finer level lets more of them through, so the events at a level
are those at any finer one, less what the level leaves out. The number of the span that a
run opens depends on how many spans there have been; `renumber` counts the numbers anew in
the order of their first appearance, and does not see any other difference.
-/

namespace PrgScript

open Step

namespace Trace

/-! ### Levels -/

/-- How fine a level is. A level that is none of the five records as much as `off`. -/
def Level.rank : Level → Nat
  | .off | .unknown => 0
  | .error => 1
  | .phase => 2
  | .detail => 3
  | .debug => 4

/-- A finer level lets through what a coarser one does. -/
theorem Level.emits_of_rank_le {l l' : Level} (finer : l.rank ≤ l'.rank) {s : Scope}
    (emits : l.emits s = true) : l'.emits s = true := by
  have coarse : s.code ≤ Scope.pass.code → s.code ≤ Scope.unit.code := fun h =>
    Nat.le_trans h (by decide)
  cases l <;> cases l' <;> simp_all [Level.rank, Level.emits]
  grind

/-! ### Counting span numbers anew -/

/-- The numbers seen so far with another one. Zero is no number of a span. -/
def noteNumber (seen : List Nat) (n : Nat) : List Nat :=
  if n = 0 ∨ n ∈ seen then seen else seen ++ [n]

/-- The place of a number among those seen, counted from one. -/
def placeOf (seen : List Nat) (n : Nat) : Nat := if n = 0 then 0 else seen.idxOf n + 1

/-- Events with their span numbers counted anew, after those seen before. -/
def renumberAfter (seen : List Nat) : List Event → List Event
  | [] => []
  | ev :: evs =>
    let seen := noteNumber (noteNumber seen ev.span) ev.parent
    { ev with span := placeOf seen ev.span, parent := placeOf seen ev.parent } ::
      renumberAfter seen evs

/-- Events with their span numbers counted anew in the order of first appearance. -/
def renumber (evs : List Event) : List Event := renumberAfter [] evs

def Event.relabel (f : Nat → Nat) (ev : Event) : Event :=
  { ev with span := f ev.span, parent := f ev.parent }

section Relabel

variable {f : Nat → Nat} (injective : Function.Injective f) (zero : f 0 = 0)

include injective zero

theorem noteNumber_map (seen : List Nat) (n : Nat) :
    noteNumber (seen.map f) (f n) = (noteNumber seen n).map f := by
  simp only [noteNumber, injective.eq_iff' zero,
    List.mem_map_of_injective injective]
  split <;> simp

theorem placeOf_map (seen : List Nat) (n : Nat) :
    placeOf (seen.map f) (f n) = placeOf seen n := by
  have place : (seen.map f).idxOf (f n) = seen.idxOf n := by
    induction seen with
    | nil => rfl
    | cons m seen ih =>
        simp only [List.map_cons, List.idxOf_cons, ih, beq_iff_eq, injective.eq_iff, cond_eq_ite]
  simp only [placeOf, injective.eq_iff' zero, place]

/-- Counting anew does not see how the spans are numbered. -/
theorem renumber_relabel (evs : List Event) :
    renumber (evs.map (Event.relabel f)) = renumber evs := by
  suffices ∀ seen, renumberAfter (seen.map f) (evs.map (Event.relabel f)) =
      renumberAfter seen evs from this []
  induction evs with
  | nil => exact fun _ => rfl
  | cons ev evs ih =>
      intro seen
      simp only [List.map_cons, renumberAfter, Event.relabel, noteNumber_map injective zero,
        placeOf_map injective zero, ih]

end Relabel

/-! ### What a tracer keeps -/

/-- A point before it is recorded. -/
structure Note where
  scope : Scope
  name : Text
  detail : Text

def Note.event (n : Note) : Event :=
  { kind := .point, scope := n.scope, name := n.name, detail := n.detail }

namespace Tracer

variable (t : Tracer)

def kept (evs : List Event) : List Event := evs.filter fun ev => t.level.emits ev.scope

/-- Records notes as points, one after another. -/
def record (notes : List Note) : Tracer :=
  notes.foldl (fun t n => t.point n.scope n.name n.detail) t

theorem record_append (notes notes' : List Note) :
    t.record (notes ++ notes') = (t.record notes).record notes' :=
  List.foldl_append

@[simp] theorem emit_level (ev : Event) : (t.emit ev).level = t.level := by
  unfold emit
  split <;> rfl

@[simp] theorem point_level (scope : Scope) (name detail : Text) :
    (t.point scope name detail).level = t.level :=
  t.emit_level _

@[simp] theorem record_level (notes : List Note) : (t.record notes).level = t.level := by
  induction notes generalizing t with
  | nil => rfl
  | cons n notes ih => exact (ih _).trans (t.point_level _ _ _)

@[simp] theorem beginSpan_level (scope : Scope) (name : Text) (parent : Nat) :
    (t.beginSpan scope name parent).2.level = t.level := by
  unfold beginSpan
  split
  · simp
  · rfl

theorem emit_events (ev : Event) :
    (t.emit ev).events.toList = t.events.toList ++ t.kept [ev] := by
  unfold emit
  split <;> simp_all [kept]

theorem kept_cons (ev : Event) (evs : List Event) :
    t.kept (ev :: evs) = t.kept [ev] ++ t.kept evs :=
  List.filter_append [ev] evs

theorem record_events (notes : List Note) :
    (t.record notes).events.toList = t.events.toList ++ t.kept (notes.map Note.event) := by
  induction notes generalizing t with
  | nil => simp [record, kept]
  | cons n notes ih =>
      have first : (t.point n.scope n.name n.detail).events.toList =
          t.events.toList ++ t.kept [n.event] := t.emit_events n.event
      have rest := ih (t.point n.scope n.name n.detail)
      rw [List.map_cons, kept_cons, ← List.append_assoc, ← first]
      simpa only [kept, point_level, record, List.foldl_cons] using rest

def beginning (scope : Scope) (name : Text) (parent id : Nat) : Event :=
  { kind := .spanBegin, scope, span := id, parent, name }

def ending (scope : Scope) (name : Text) (parent id : Nat) (detail : Text) (extra : Extras) :
    Event :=
  { kind := .spanEnd, scope, span := id, parent, name, detail, extra }

theorem beginSpan_events (scope : Scope) (name : Text) (parent : Nat) :
    (t.beginSpan scope name parent).2.events.toList =
      t.events.toList ++ t.kept [beginning scope name parent (t.spans + 1)] := by
  unfold beginSpan
  split
  next => exact emit_events _ _
  next silent => simp [kept, beginning, silent]

/-- A span that was not recorded has no end either. -/
theorem endSpan_events {t' : Tracer} (same : t'.level = t.level) (scope : Scope) (name : Text)
    (parent : Nat) (key value detail : Text) :
    (t'.endSpan ((t.beginSpan scope name parent).1.withExtra key value) detail).events.toList =
      t'.events.toList ++
        t.kept [ending scope name parent (t.spans + 1) detail [(key, value)]] := by
  unfold beginSpan
  split
  next =>
    simpa [endSpan, kept, same, Span.withExtra, Span.isLive, ending, Extras.insert] using
      t'.emit_events _
  next silent => simp [endSpan, Span.withExtra, Span.isLive, kept, ending, silent]

end Tracer

end Trace

/-! ### What a step records -/

namespace Exec

variable {σ α β : Type}

open Trace

/-- A step does the same under every tracer and hands each of them the same notes, one in the
scope of statements for each statement that it counts. -/
def Records (x : Exec σ α) : Prop :=
  ∀ s, ∃ notes : List Note,
    (∀ t, outcome x { s with tracer := t } =
      ((outcome x s).1, { (outcome x s).2 with tracer := t.record notes })) ∧
    (outcome x s).2.steps = s.steps + notes.countP (·.scope == .stmt)

namespace Records

/-- A step that leaves the tracer and the count alone. -/
theorem silent {x : Exec σ α}
    (same : ∀ s t, outcome x { s with tracer := t } =
      ((outcome x s).1, { (outcome x s).2 with tracer := t }))
    (count : ∀ s, (outcome x s).2.steps = s.steps) : Records x :=
  fun s => ⟨[], same s, count s⟩

theorem bind {x : Exec σ α} {f : α → Exec σ β} (first : Records x) (rest : ∀ a, Records (f a)) :
    Records (x >>= f) := by
  intro s
  obtain ⟨notes, same, count⟩ := first s
  cases ended : outcome x s with
  | mk result s' =>
      rw [ended] at same count
      cases result with
      | error e =>
          refine ⟨notes, fun t => ?_, ?_⟩
          · rw [outcome_bind_of_error (same t), outcome_bind_of_error ended]
          · rw [outcome_bind_of_error ended]
            exact count
      | ok a =>
          obtain ⟨notes', same', count'⟩ := rest a s'
          refine ⟨notes ++ notes', fun t => ?_, ?_⟩
          · rw [outcome_bind_of_ok (same t), outcome_bind_of_ok ended, Tracer.record_append]
            exact same' (t.record notes)
          · rw [outcome_bind_of_ok ended, count', List.countP_append, ← Nat.add_assoc]
            exact congrArg (· + _) count

theorem call (f : σ → Except Text σ) : Records (Exec.call f) := by
  refine silent (fun s t => ?_) fun s => ?_
  · cases called : f s.console <;> simp [Exec.call, fail, outcome_bind, called]
  · cases called : f s.console <;> simp [Exec.call, fail, outcome_bind, called]

theorem enter (s : Stmt) : Records (Exec.enter s : Exec σ Unit) := by
  intro state
  exact ⟨[⟨.stmt, Stmt.kindName s.kind, "line " ++ Text.ofNat s.line⟩], fun t => rfl, rfl⟩

theorem announce (classes : List Class) : Records (Exec.announce classes : Exec σ Unit) := by
  intro state
  refine ⟨classes.map fun c => ⟨.unit, "class", c.name ++ " extends " ++ c.base.name⟩,
    fun t => ?_, ?_⟩
  · simp [Exec.announce, Tracer.record, List.foldl_map]
  · have none : Scope.unit ≠ Scope.stmt := by decide
    simp [Exec.announce, List.countP_map, Function.comp_def, none]

/-- Whatever a machine does, it records in this way. -/
theorem closed : Closed (@Records σ) where
  pure _ := silent (fun _ _ => rfl) fun _ => rfl
  bind := bind
  outOfFuel := silent (fun _ _ => rfl) fun _ => rfl
  fail _ := silent (fun _ _ => rfl) fun _ => rfl
  readVariables := silent (fun _ _ => rfl) fun _ => rfl
  setVariable _ _ := silent (fun _ _ => rfl) fun _ => rfl
  setLine _ := silent (fun _ _ => rfl) fun _ => rfl
  call := call
  enter := enter
  announce := announce

end Records

end Exec

/-! ### Runs -/

namespace Machine

open Trace

variable {σ : Type}

/-- The notes that a run adds after its program has ended. -/
def closingNotes (result : Except Stop Unit) : List Note :=
  match result with
  | .ok _ => []
  | .error _ => [⟨.error, "exec-failed", resultText result⟩]

def opening (m : Machine) (parent id : Nat) : Event :=
  Tracer.beginning .unit ("exec:" ++ m.program.name) parent id

def closing (m : Machine) (parent id : Nat) (result : Except Stop Unit) (steps : Nat) : Event :=
  Tracer.ending .unit ("exec:" ++ m.program.name) parent id (resultText result)
    [("steps", Text.ofNat steps)]

/-- All events of a run with the notes of its program, whatever a tracer keeps of them. -/
def events (m : Machine) (parent id : Nat) (notes : List Note) (result : Except Stop Unit)
    (steps : Nat) : List Event :=
  [m.opening parent id] ++ (notes ++ closingNotes result).map Note.event ++
    [m.closing parent id result steps]

/-- A run in terms of the outcome of its program. -/
theorem run_of_outcome (m : Machine) {c : Console σ} {console : σ} {rounds : Nat}
    {args : List Value} {t : Tracer} {parent : Nat} {notes : List Note}
    {result : Except Stop Unit} {s : Session σ}
    (ended : outcome (Exec.program c rounds m.program args)
        { tracer := (t.beginSpan .unit ("exec:" ++ m.program.name) parent).2, console } =
      (result, { s with
        tracer := (t.beginSpan .unit ("exec:" ++ m.program.name) parent).2.record notes })) :
    m.run c console t parent rounds args =
      { machine := ⟨m.program, s.vars, s.steps, s.classes⟩
        console := s.console
        tracer := (((t.beginSpan .unit ("exec:" ++ m.program.name) parent).2.record notes).record
          (closingNotes result)).endSpan
            ((t.beginSpan .unit ("exec:" ++ m.program.name) parent).1.withExtra "steps"
              (Text.ofNat s.steps)) (resultText result)
        result } := by
  unfold outcome at ended
  simp only [run, ended]
  cases result <;> rfl

/-- A run does the same under every tracer, and the tracer keeps what its level lets through. -/
theorem run_observed (m : Machine) (c : Console σ) (console : σ) (rounds : Nat)
    (args : List Value) :
    ∃ (ended : Machine) (left : σ) (result : Except Stop Unit) (notes : List Note),
      ended.steps = notes.countP (·.scope == .stmt) ∧
      ∀ t parent, let ran := m.run c console t parent rounds args
        ran.machine = ended ∧ ran.console = left ∧ ran.result = result ∧
        ran.tracer.events.toList =
          t.events.toList ++ t.kept (m.events parent (t.spans + 1) notes result ended.steps) := by
  obtain ⟨notes, same, count⟩ :=
    Exec.Records.closed.program c rounds m.program args { console }
  cases ended : outcome (Exec.program c rounds m.program args) { console } with
  | mk result s =>
      rw [ended] at same count
      refine ⟨⟨m.program, s.vars, s.steps, s.classes⟩, s.console, result,
        notes, ?_, fun t parent => ?_⟩
      · simpa using count
      · have run_eq :=
          m.run_of_outcome (same (t.beginSpan .unit ("exec:" ++ m.program.name) parent).2)
        simp only [run_eq, true_and]
        rw [t.endSpan_events (by simp), Tracer.record_events, Tracer.record_events,
          t.beginSpan_events]
        simp only [events, List.map_append, Tracer.kept, List.filter_append, Tracer.record_level,
          Tracer.beginSpan_level, List.append_assoc]
        rfl

theorem events_relabel (m : Machine) {f : Nat → Nat} (zero : f 0 = 0) {parent : Nat}
    (same : f parent = parent) (id : Nat) (notes : List Note) (result : Except Stop Unit)
    (steps : Nat) :
    (m.events parent id notes result steps).map (Event.relabel f) =
      m.events parent (f id) notes result steps := by
  have points (notes : List Note) :
      (notes.map Note.event).map (Event.relabel f) = notes.map Note.event := by
    rw [List.map_map]
    refine List.map_congr_left fun n _ => ?_
    simp [Event.relabel, Note.event, zero]
  simp only [events, List.map_append, points, List.map_cons, List.map_nil]
  simp [Event.relabel, opening, closing, Tracer.beginning, Tracer.ending, same]

/-- The points of statements are those that the program has noted. -/
theorem countP_events (m : Machine) (parent id : Nat) (notes : List Note)
    (result : Except Stop Unit) (steps : Nat) :
    (m.events parent id notes result steps).countP
        (fun ev => ev.kind == .point && ev.scope == .stmt) =
      notes.countP (·.scope == .stmt) := by
  have failure : (closingNotes result).countP (·.scope == .stmt) = 0 := by
    cases result <;> rfl
  have each (notes : List Note) : (notes.map Note.event).countP
      (fun ev => ev.kind == .point && ev.scope == .stmt) = notes.countP (·.scope == .stmt) := by
    rw [List.countP_map]
    rfl
  rw [events, List.countP_append, List.countP_append, each, List.countP_append, failure,
    List.countP_singleton, List.countP_singleton]
  simp [opening, closing, Tracer.beginning, Tracer.ending]

/-- Where runs are recorded, a run begins and ends with the events of its span. -/
theorem kept_events (m : Machine) {t : Tracer} (recorded : t.level.emits .unit = true)
    (parent id : Nat) (notes : List Note) (result : Except Stop Unit) (steps : Nat) :
    t.kept (m.events parent id notes result steps) =
      [m.opening parent id] ++ t.kept ((notes ++ closingNotes result).map Note.event) ++
        [m.closing parent id result steps] := by
  have first : t.level.emits (m.opening parent id).scope = true := recorded
  have last : t.level.emits (m.closing parent id result steps).scope = true := recorded
  simp only [events, Tracer.kept, List.filter_append, List.filter_singleton, first, last, cond_true]

end Machine

/-- Events of spans that are numbered otherwise are those of a finer record. -/
theorem Trace.renumber_kept {evs evs' : List Trace.Event} {l l' : Trace.Level}
    (finer : l.rank ≤ l'.rank) {f : Nat → Nat} (injective : Function.Injective f) (zero : f 0 = 0)
    (relabelled : evs' = evs.map (Trace.Event.relabel f)) :
    Trace.renumber (evs.filter fun ev => l.emits ev.scope) =
      Trace.renumber
        ((evs'.filter fun ev => l'.emits ev.scope).filter fun ev => l.emits ev.scope) := by
  have less (ev : Trace.Event) :
      (l.emits ev.scope && l'.emits ev.scope) = l.emits ev.scope := by
    cases emits : l.emits ev.scope with
    | false => rfl
    | true => exact Trace.Level.emits_of_rank_le finer emits
  simp only [List.filter_filter, less]
  rw [relabelled, List.filter_map, Trace.renumber_relabel injective zero]
  rfl

/-- Tracing changes nothing about a run, and a level only leaves events out: at a coarser level
they are those of the finer one that the coarser one lets through, up to the numbers of the
spans. From the level of single runs on, a run is one span, its end the last event, with points in
between; at the finest level each counted statement is one of them. -/
theorem run_levels_filter {σ : Type} (m : Machine) (c : Console σ) (console : σ)
    (args : List Value) (rounds : Nat) {l l' : Trace.Level} (finer : l.rank ≤ l'.rank)
    {spans spans' parent : Nat} (known : parent ≤ spans) (known' : parent ≤ spans') :
    let ran := m.run c console { level := l, spans } parent rounds args
    let ran' := m.run c console { level := l', spans := spans' } parent rounds args
    let events := ran.tracer.events.toList
    let events' := ran'.tracer.events.toList
    ran.console = ran'.console ∧ ran.machine = ran'.machine ∧ ran.result = ran'.result ∧
      Trace.renumber events = Trace.renumber (events'.filter fun ev => l.emits ev.scope) ∧
      (l = .debug →
        events.countP (fun ev => ev.kind == .point && ev.scope == .stmt) = ran.machine.steps) ∧
      (l = .detail ∨ l = .debug → ∃ points,
        events = [m.opening parent (spans + 1)] ++ points ++
          [m.closing parent (spans + 1) ran.result ran.machine.steps] ∧
        ∀ ev ∈ points, ev.kind = .point) := by
  intro ran ran' events events'
  obtain ⟨ended, left, result, notes, count, observed⟩ := m.run_observed c console rounds args
  obtain ⟨machine, sameConsole, sameResult, kept⟩ := observed { level := l, spans } parent
  obtain ⟨machine', console', result', kept'⟩ := observed { level := l', spans := spans' } parent
  simp only [List.nil_append] at kept kept'
  have steps : ran.machine.steps = ended.steps := congrArg Machine.steps machine
  refine ⟨sameConsole.trans console'.symm, machine.trans machine'.symm,
    sameResult.trans result'.symm, ?_, ?_, ?_⟩
  · -- The swap of the two numbers leaves zero and the parent alone.
    let f := Equiv.swap (spans + 1) (spans' + 1)
    have zero : f 0 = 0 := Equiv.swap_apply_of_ne_of_ne (by omega) (by omega)
    have same : f parent = parent := Equiv.swap_apply_of_ne_of_ne (by omega) (by omega)
    have relabelled := m.events_relabel zero same (spans + 1) notes result ended.steps
    rw [show f (spans + 1) = spans' + 1 from Equiv.swap_apply_left _ _] at relabelled
    have renumbered := Trace.renumber_kept finer f.injective zero relabelled.symm
    rw [show events = _ from kept, show events' = _ from kept']
    exact renumbered
  · rintro rfl
    have all : events = m.events parent (spans + 1) notes result ended.steps :=
      kept.trans (List.filter_eq_self.2 fun _ _ => rfl)
    rw [all, m.countP_events, steps, count]
  · intro fine
    have recorded : l.emits .unit = true := by
      rcases fine with rfl | rfl <;> rfl
    have framed := kept.trans (m.kept_events recorded parent (spans + 1) notes result ended.steps)
    rw [steps, show ran.result = result from sameResult]
    refine ⟨_, framed, fun ev mem => ?_⟩
    obtain ⟨n, -, rfl⟩ := List.mem_map.1 (List.mem_filter.1 mem).1
    rfl

/-- A run of one statement against a console that is down, seen at two levels. -/
theorem run_levels_filter_down :
    let m : Machine := { program := { name := "t", body := [.print [] true 1] } }
    let ran := m.run Console.down () { level := .phase, spans := 3 } 2 1 []
    let ran' := m.run Console.down () { level := .debug, spans := 7 } 2 1 []
    Trace.Level.phase.rank ≤ Trace.Level.debug.rank ∧
      ran.machine.steps = 1 ∧ ran'.tracer.events.size = 4 ∧
      Trace.renumber ran.tracer.events.toList =
        Trace.renumber (ran'.tracer.events.toList.filter
          fun ev => Trace.Level.phase.emits ev.scope) := by
  refine ⟨by decide, rfl, rfl, ?_⟩
  have filtered := @run_levels_filter Unit
    { program := { name := "t", body := [.print [] true 1] } } Console.down () [] 1
    .phase .debug (by decide) 3 7 2 (by decide) (by decide)
  exact filtered.2.2.2.1

end PrgScript
