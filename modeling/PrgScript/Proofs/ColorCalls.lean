import PrgScript.Proofs.ColorLines
import PrgScript.Proofs.Tracing

/-!
# The colours that a run chooses

A statement that chooses colours makes one call to the console and one point of the trace, and
nothing else does either. `Session.Painted` says which choices lie between two states of a run,
and `Exec.Adds` which ones a step can make: through branches and loops only choices of the
statements that they hold, and, where there are none, the choices of the statements in order up
to where the run ends.

With the lines that the statements come from, each call is the choice of a line of the script,
made on top of the colours that the lines written before it leave. `color_calls_of_lines` puts
this together. It is the line written before that decides on a background that is not chosen, and
not the call made before: they are the same as long as no line is left out or repeated.
-/

namespace PrgScript

open Step Trace

/-! ### Calls and points -/

def ConsoleCall.colors? : ConsoleCall → Option ColorPair
  | .color colors => some colors
  | _ => none

namespace Recorder

/-- The colours that a recorder was told to use, in order. -/
def colors (r : Recorder) : List ColorPair := r.calls.toList.filterMap ConsoleCall.colors?

theorem calls_putLine (r : Recorder) (cs : List Char) : (r.putLine cs).calls = r.calls := by
  unfold putLine
  dsimp only
  split <;> rfl

theorem calls_putLines (r : Recorder) (lines : List (List Char)) :
    (r.putLines lines).calls = r.calls := by
  induction lines generalizing r with
  | nil => rfl
  | cons line lines ih =>
      cases lines with
      | nil => exact r.calls_putLine line
      | cons next lines => exact (ih _).trans (r.calls_putLine line)

theorem colors_push {r r' : Recorder} (call : ConsoleCall) (told : r'.calls = r.calls.push call) :
    r'.colors = r.colors ++ call.colors?.toList := by
  rw [colors, colors, told, Array.toList_push, List.filterMap_append, List.filterMap_cons]
  cases call.colors? <;> rfl

theorem colors_say (row col : Int) (t : Text) (r : Recorder) :
    (r.say row col t).colors = r.colors :=
  (colors_push (.say row col t) (calls_putLines _ _)).trans (List.append_nil _)

theorem colors_print (t : Text) (r : Recorder) : (r.print t).colors = r.colors :=
  (colors_push (.print t) (calls_putLines _ _)).trans (List.append_nil _)

theorem colors_setColor (colors : ColorPair) (r : Recorder) :
    (r.setColor colors).colors = r.colors ++ [colors] :=
  colors_push (.color colors) rfl

end Recorder

namespace Trace

/-- What an event tells about a statement that chooses colours: its line. -/
def Event.colorPoint? (ev : Event) : Option Text :=
  if ev.scope = .stmt ∧ ev.name = "color" then some ev.detail else none

namespace Tracer

variable {t : Tracer}

/-- The lines of the statements that chose colours, as the trace tells them. -/
def colorPoints (t : Tracer) : List Text := t.events.toList.filterMap Event.colorPoint?

/-- At the finest level every event is kept. -/
theorem colorPoints_emit (debug : t.level = .debug) (ev : Event) :
    (t.emit ev).colorPoints = t.colorPoints ++ ev.colorPoint?.toList := by
  have emits : t.level.emits ev.scope = true := by
    rw [debug]
    rfl
  have kept : t.kept [ev] = [ev] := by
    rw [Tracer.kept, List.filter_singleton, emits]
    rfl
  rw [colorPoints, emit_events, kept, List.filterMap_append, List.filterMap_cons]
  cases ev.colorPoint? <;> rfl

theorem colorPoints_point (debug : t.level = .debug) (scope : Scope) (name detail : Text) :
    (t.point scope name detail).colorPoints =
      t.colorPoints ++ if scope = .stmt ∧ name = "color" then [detail] else [] := by
  refine (colorPoints_emit debug _).trans (congrArg (t.colorPoints ++ ·) ?_)
  unfold Event.colorPoint?
  dsimp only
  split <;> rfl

/-- Other events than those of statements tell nothing about colours. -/
theorem colorPoints_emit_other {ev : Event} (other : ev.scope ≠ .stmt) :
    (t.emit ev).colorPoints = t.colorPoints := by
  unfold emit
  split
  · have silent : ev.colorPoint? = none := if_neg fun h => other h.1
    simp [colorPoints, silent]
  · rfl

theorem colorPoints_beginSpan {scope : Scope} (other : scope ≠ .stmt) (name : Text) (parent : Nat) :
    (t.beginSpan scope name parent).2.colorPoints = t.colorPoints := by
  unfold beginSpan
  split
  · exact colorPoints_emit_other other
  · rfl

theorem colorPoints_endSpan {t' : Tracer} {scope : Scope} (other : scope ≠ .stmt) (name : Text)
    (parent : Nat) (key value detail : Text) :
    (t'.endSpan ((t.beginSpan scope name parent).1.withExtra key value) detail).colorPoints =
      t'.colorPoints := by
  unfold beginSpan
  split
  · exact colorPoints_emit_other other
  · rfl

theorem colorPoints_record_other {notes : List Note} (other : ∀ n ∈ notes, n.scope ≠ .stmt) :
    (t.record notes).colorPoints = t.colorPoints := by
  induction notes generalizing t with
  | nil => rfl
  | cons n notes ih =>
      rw [List.forall_mem_cons] at other
      exact (ih other.2).trans (colorPoints_emit_other other.1)

end Tracer

end Trace

/-! ### What a step chooses -/

/-- The text by which the trace tells a line. -/
def lineText (line : Nat) : Text := "line " ++ Text.ofNat line

/-- One state of a run comes from another by choosing colours: the calls and the points between
the two are those of the choices. -/
structure Session.Painted (s : Session Recorder) (made : List (ColorPair × Nat))
    (s' : Session Recorder) : Prop where
  level : s'.tracer.level = .debug
  calls : s'.console.colors = s.console.colors ++ made.map (·.1)
  points : s'.tracer.colorPoints = s.tracer.colorPoints ++ made.map fun m => lineText m.2

namespace Session.Painted

variable {s s' s'' : Session Recorder} {made made' : List (ColorPair × Nat)}

theorem unchanged (debug : s.tracer.level = .debug) (console : s'.console.colors = s.console.colors)
    (tracer : s'.tracer = s.tracer) : s.Painted [] s' :=
  ⟨by rw [tracer, debug], by simp [console], by simp [tracer]⟩

theorem append (first : s.Painted made s') (rest : s'.Painted made' s'') :
    s.Painted (made ++ made') s'' := by
  refine ⟨rest.level, ?_, ?_⟩
  · rw [rest.calls, first.calls, List.map_append, List.append_assoc]
  · rw [rest.points, first.points, List.map_append, List.append_assoc]

end Session.Painted

namespace Exec

variable {α β : Type} {R R' R'' : List (ColorPair × Nat) → Prop}

/-- A step that makes choices of a kind when all events are kept, however it ends. -/
def Adds (R : List (ColorPair × Nat) → Prop) (x : Exec Recorder α) : Prop :=
  ∀ s : Session Recorder, s.tracer.level = .debug →
    ∃ made, R made ∧ s.Painted made (outcome x s).2

namespace Adds

variable {x : Exec Recorder α}

/-- A step that tells neither the console about colours nor the tracer about anything. -/
theorem silent (nothing : R []) (console : ∀ s, (outcome x s).2.console.colors = s.console.colors)
    (tracer : ∀ s, (outcome x s).2.tracer = s.tracer) : Adds R x :=
  fun s debug => ⟨[], nothing, .unchanged debug (console s) (tracer s)⟩

theorem mono (h : Adds R x) (weaker : ∀ made, R made → R' made) : Adds R' x := by
  intro s debug
  obtain ⟨made, kind, painted⟩ := h s debug
  exact ⟨made, weaker made kind, painted⟩

/-- The choices of a step and those of what follows it, if it goes on. -/
theorem sequence {f : α → Exec Recorder β} (first : Adds R x) (rest : ∀ a, Adds R' (f a))
    (stops : ∀ made, R made → R'' made)
    (goesOn : ∀ made made', R made → R' made' → R'' (made ++ made')) : Adds R'' (x >>= f) := by
  intro s debug
  obtain ⟨made, kind, painted⟩ := first s debug
  cases ended : outcome x s with
  | mk result s' =>
      rw [ended] at painted
      cases result with
      | error e =>
          rw [outcome_bind_of_error ended]
          exact ⟨made, stops made kind, painted⟩
      | ok a =>
          rw [outcome_bind_of_ok ended]
          obtain ⟨made', kind', painted'⟩ := rest a s' painted.level
          exact ⟨made ++ made', goesOn made made' kind kind', painted.append painted'⟩

/-- A step without choices before others. -/
theorem after {f : α → Exec Recorder β} (first : Adds (· = []) x) (nothing : R [])
    (rest : ∀ a, Adds R (f a)) : Adds R (x >>= f) := by
  refine first.sequence rest ?_ ?_
  · rintro _ rfl
    exact nothing
  · rintro _ made rfl kind
    exact kind

/-- Sequences keep to a kind of choices that holds of none and of any two together. -/
theorem serial (nothing : R []) (append : ∀ made made', R made → R made' → R (made ++ made')) :
    Serial (fun {α} (x : Exec Recorder α) => Adds R x) where
  pure _ := silent nothing (fun _ => rfl) fun _ => rfl
  bind first rest := first.sequence rest (fun _ kind => kind) append
  outOfFuel := silent nothing (fun _ => rfl) fun _ => rfl
  fail _ := silent nothing (fun _ => rfl) fun _ => rfl
  readVariables := silent nothing (fun _ => rfl) fun _ => rfl
  setLine _ := silent nothing (fun _ => rfl) fun _ => rfl

theorem serial_nothing : Serial (fun {α} (x : Exec Recorder α) => Adds (· = []) x) := by
  refine serial rfl ?_
  rintro _ _ rfl rfl
  rfl

theorem setVariable (nothing : R []) (name : Text) (v : Value) :
    Adds R (Exec.setVariable name v : Exec Recorder Unit) :=
  silent nothing (fun _ => rfl) fun _ => rfl

/-- Entering a statement that chooses no colours. -/
theorem enter {s : Stmt} (nothing : R []) (other : s.colors? = none) (whole : s.isBroken = false) :
    Adds R (Exec.enter s : Exec Recorder Unit) := by
  intro state debug
  have names : ∀ kind ∈ [1, 2, 3, 4, 5, 7, 8, 9],
      Text.ofString (Stmt.kindName kind) ≠ "color" := by decide
  have kind : s.kind ∈ [1, 2, 3, 4, 5, 7, 8, 9] := by
    cases s with
    | setColor => cases other
    | malformed => cases whole
    | _ => simp [Stmt.kind]
  refine ⟨[], nothing, (Tracer.point_level _ _ _ _).trans debug, (List.append_nil _).symm, ?_⟩
  refine (Tracer.colorPoints_point debug _ _ _).trans (congrArg (_ ++ ·) ?_)
  exact if_neg fun h => names _ kind h.2

/-- The statement that chooses colours makes the call and the point. -/
theorem setColor (colors : ColorPair) (line rounds : Nat) :
    Adds (· = [(colors, line)]) (Exec.stmt Recorder.console rounds (.setColor colors line)) := by
  intro state debug
  refine ⟨_, rfl, (Tracer.point_level _ _ _ _).trans debug, Recorder.colors_setColor _ _, ?_⟩
  exact Tracer.colorPoints_point debug _ _ _

theorem announce (classes : List Class) :
    Adds (· = []) (Exec.announce classes : Exec Recorder Unit) := by
  intro state debug
  let notes := classes.map fun c => (⟨.unit, "class", c.name ++ " extends " ++ c.base.name⟩ : Note)
  have noted : (outcome (Exec.announce classes) state).2.tracer = state.tracer.record notes := by
    simp [notes, Exec.announce, Tracer.record, List.foldl_map]
  have other : ∀ n ∈ notes, n.scope ≠ .stmt := by
    intro n mem
    obtain ⟨c, -, rfl⟩ := List.mem_map.1 mem
    exact (by decide : Scope.unit ≠ Scope.stmt)
  refine ⟨[], rfl, ?_, (List.append_nil _).symm, ?_⟩
  · rw [noted, Tracer.record_level, debug]
  · rw [noted, Tracer.colorPoints_record_other other]
    exact (List.append_nil _).symm

variable {rounds : Nat}

/-- A statement that does not choose colours itself makes the choices of what it holds. -/
theorem other {s : Stmt} (nothing : R [])
    (append : ∀ made made', R made → R made' → R (made ++ made')) (other : s.colors? = none)
    (whole : s.isBroken = false)
    (inner : ∀ body ∈ s.bodies, Adds R (Exec.block Recorder.console rounds body)) :
    Adds R (Exec.stmt Recorder.console rounds s) := by
  refine (serial nothing append).stmt _ rounds ?_ (enter nothing other whole) (fun row col t => ?_)
    (fun t => ?_) (fun name _ => setVariable nothing name) inner
  · rintro colors line rfl
    cases other
  · exact silent nothing (fun s => Recorder.colors_say row col t s.console) fun _ => rfl
  · exact silent nothing (fun s => Recorder.colors_print t s.console) fun _ => rfl

theorem colors?_cases (s : Stmt) :
    s.colors? = none ∨ ∃ colors line, s = .setColor colors line := by
  cases s with
  | setColor colors line => exact .inr ⟨colors, line, rfl⟩
  | _ => exact .inl rfl

/-- A block makes choices of the statements anywhere in it only. -/
theorem block {ss : List Stmt} (whole : ∀ s ∈ Stmt.partsOf ss, s.isBroken = false) :
    Adds (· ⊆ Stmt.choices ss) (Exec.block Recorder.console rounds ss) := by
  have nothing : [] ⊆ Stmt.choices ss := List.nil_subset _
  have append : ∀ made made', made ⊆ Stmt.choices ss → made' ⊆ Stmt.choices ss →
      made ++ made' ⊆ Stmt.choices ss := fun _ _ => List.append_subset_of_subset_of_subset
  refine (serial nothing append).block _ rounds ss fun s mem inner => ?_
  obtain plain | ⟨colors, line, rfl⟩ := colors?_cases s
  · exact other nothing append plain (whole s mem) inner
  · refine (setColor colors line rounds).mono ?_
    rintro _ rfl
    exact List.cons_subset.2 ⟨List.mem_filterMap.2 ⟨_, mem, rfl⟩, nothing⟩

/-- A statement that holds no other makes its own choice, if it has one. -/
theorem flat {s : Stmt} (flat : s.bodies = []) (whole : s.isBroken = false) :
    Adds (· = s.colors?.toList) (Exec.stmt Recorder.console rounds s) := by
  obtain plain | ⟨colors, line, rfl⟩ := colors?_cases s
  · rw [plain]
    refine other rfl ?_ plain whole ?_
    · rintro _ _ rfl rfl
      rfl
    · rw [flat]
      exact List.forall_mem_nil _
  · exact setColor colors line rounds

/-- A block without branches and loops makes the choices of its statements in order, up to where
it ends. -/
theorem straight {ss : List Stmt} (flat : ∀ s ∈ ss, s.bodies = [])
    (whole : ∀ s ∈ Stmt.partsOf ss, s.isBroken = false) :
    Adds (· <+: Stmt.choices ss) (Exec.block Recorder.console rounds ss) := by
  induction ss with
  | nil => exact silent List.nil_prefix (fun _ => rfl) fun _ => rfl
  | cons s ss ih =>
      rw [List.forall_mem_cons] at flat
      rw [Stmt.partsOf, Stmt.parts_eq, List.cons_append, List.forall_mem_cons,
        List.forall_mem_append] at whole
      obtain ⟨own_whole, -, rest_whole⟩ := whole
      have own : Stmt.choices (s :: ss) = s.colors?.toList ++ Stmt.choices ss := by
        rw [Stmt.choices_cons, flat.1]
        rfl
      rw [own]
      refine (Adds.flat flat.1 own_whole).sequence (?rest : ∀ flow, Adds (· <+: Stmt.choices ss) _)
        ?_ ?_
      case rest =>
        intro flow
        cases flow with
        | leave => exact silent List.nil_prefix (fun _ => rfl) fun _ => rfl
        | next => exact ih flat.2 rest_whole
      · rintro _ rfl
        exact List.prefix_append _ _
      · rintro _ made rfl first
        exact (List.prefix_append_right_inj _).2 first

/-- A program makes the choices of its body. -/
theorem program {p : Program} (nothing : R [])
    (body : Adds R (Exec.block Recorder.console rounds p.body)) (args : List Value) :
    Adds R (Exec.program Recorder.console rounds p args) := by
  have params := serial_nothing.bindParams (setVariable rfl) p.params args
  have run : Adds R (do
      Exec.bindParams p.params args
      Exec.announce p.classes
      discard (Exec.block Recorder.console rounds p.body)) := by
    refine params.after nothing fun _ => (announce p.classes).after nothing fun _ => ?_
    have ends (_ : Flow) : Adds (· = []) (pure () : Exec Recorder Unit) := serial_nothing.pure ()
    have rest : Adds R (Exec.block Recorder.console rounds p.body >>= fun _ => pure ()) := by
      refine body.sequence ends (fun _ kind => kind) ?_
      rintro made _ kind rfl
      rwa [List.append_nil]
    rw [bind_pure_comp] at rest
    exact rest
  unfold Exec.program
  split
  · exact (serial_nothing.fail _).after nothing fun _ => run
  · exact run

end Adds

end Exec

/-! ### Runs -/

namespace Machine

/-- A run chooses colours as its program does, and the span around it tells nothing about them. -/
theorem run_painted (m : Machine) {R : List (ColorPair × Nat) → Prop} (parent rounds : Nat)
    (args : List Value) (body : Exec.Adds R (Exec.block Recorder.console rounds m.program.body))
    (nothing : R []) :
    let ran := m.run Recorder.console {} { level := .debug } parent rounds args
    ∃ made, R made ∧ ran.console.colors = made.map (·.1) ∧
      ran.tracer.colorPoints = made.map fun m => lineText m.2 := by
  intro ran
  have unit : Scope.unit ≠ Scope.stmt := by decide
  have error : Scope.error ≠ Scope.stmt := by decide
  let tracer : Tracer := { level := .debug }
  let opened := (tracer.beginSpan .unit ("exec:" ++ m.program.name) parent).2
  obtain ⟨made, kind, painted⟩ := Exec.Adds.program nothing body args
    { tracer := opened, console := {} } (Tracer.beginSpan_level _ _ _ _)
  cases ended : outcome (Exec.program Recorder.console rounds m.program args)
      { tracer := opened, console := {} } with
  | mk result s =>
      rw [ended] at painted
      have points : s.tracer.colorPoints = made.map fun m => lineText m.2 := by
        rw [painted.points, Tracer.colorPoints_beginSpan unit]
        rfl
      simp only [outcome, opened, tracer] at ended
      simp only [ran, run, ended, Tracer.colorPoints_endSpan unit]
      refine ⟨made, kind, painted.calls, ?_⟩
      cases result with
      | ok _ => exact points
      | error _ => exact (Tracer.colorPoints_emit_other error).trans points

/-- If the statements of a program choose what the lines of a list do, in order, then a run makes
choices of these lines only, and without branches and loops it makes them from the first on. -/
theorem run_made (m : Machine) (whole : ∀ s ∈ Stmt.partsOf m.program.body, s.isBroken = false)
    {n : Nat} {choice : Fin n → ColorPair × Nat}
    (choices : Stmt.choices m.program.body = (List.finRange n).map choice)
    (parent rounds : Nat) (args : List Value) :
    let ran := m.run Recorder.console {} { level := .debug } parent rounds args
    ∃ made : List (Fin n), ran.console.colors = made.map (fun i => (choice i).1) ∧
      ran.tracer.colorPoints = made.map (fun i => lineText (choice i).2) ∧
      ((∀ s ∈ m.program.body, s.bodies = []) → made <+: List.finRange n) := by
  intro ran
  -- With branches and loops the order of the choices is open, and each is traced back on its own.
  by_cases flat : ∀ s ∈ m.program.body, s.bodies = []
  · obtain ⟨all, first, calls, points⟩ :=
      m.run_painted parent rounds args (Exec.Adds.straight flat whole) List.nil_prefix
    rw [choices, List.prefix_map_iff] at first
    obtain ⟨made, first, rfl⟩ := first
    rw [List.map_map] at calls points
    exact ⟨made, calls, points, fun _ => first⟩
  · obtain ⟨all, some, calls, points⟩ :=
      m.run_painted parent rounds args (Exec.Adds.block whole) (List.nil_subset _)
    have chosen : all ∈ Set.range (List.map choice) := by
      rw [Set.range_list_map]
      intro c mem
      obtain ⟨i, -, same⟩ := List.mem_map.1 (choices ▸ some mem)
      exact ⟨i, same⟩
    obtain ⟨made, rfl⟩ := chosen
    rw [List.map_map] at calls points
    exact ⟨made, calls, points, fun straight => absurd straight flat⟩

end Machine

/-- Whether a call comes from the line written right behind the line of the call before it, or from
the first of all lines if no call was made before. -/
def InTurn {n : Nat} (made : List (Fin n)) (k : Nat) : Prop :=
  (0 :: made.map (·.val + 1))[k]? = (made.map (·.val))[k]?

/-- Lines taken from the first on are in turn. -/
theorem inTurn_of_prefix {n k : Nat} {made : List (Fin n)} (first : made <+: List.finRange n)
    (within : k < made.length) : InTurn made k := by
  have bound := first.length_le
  have numbers := first.map (·.val)
  rw [List.map_coe_finRange_eq_range, List.prefix_iff_eq_take, List.take_range, List.length_map,
    Nat.min_eq_left (by simpa using bound)] at numbers
  have next : made.map (·.val + 1) = (List.range made.length).map Nat.succ := by
    rw [← numbers, List.map_map]
    rfl
  rw [InTurn, next, ← List.range_succ_eq_map, numbers, List.getElem?_range within,
    List.getElem?_range (Nat.lt_succ_of_lt within)]

/-- The colours before each call are those in effect behind the line of the call before it. -/
theorem before_calls {n : Nat} {inEffect : Nat → ColorPair} {made : List (Fin n)} :
    inEffect 0 :: made.map (fun i : Fin n => inEffect (i + 1)) =
      (0 :: made.map (·.val + 1)).map inEffect := by
  rw [List.map_cons, List.map_map]
  rfl

/-- A result of which something can be computed is a result. -/
theorem exists_ok_of_map {ε α β : Type} {result : Except ε α} {f : α → β} {b : β}
    (h : result.toOption.map f = some b) : ∃ a, result = .ok a ∧ f a = b := by
  cases result with
  | ok a => exact ⟨a, rfl, Option.some.inj h⟩
  | error e => cases h

/-- Each call of a run that chooses colours is made by a line of the script, which the trace names,
and carries the colours that this line and the lines written before it leave, whatever branches and
loops are taken. So a line that chooses a foreground only takes its background from the line that
chooses colours right before it in the script, or the default one if there is none. This is the
background of the call before whenever that line made it, and so always in a script without
branches and loops. -/
theorem color_calls_of_lines (file : File) (name : Text) (compiled : Compiled)
    (compiles : (compileIn file .dbase name {}).result = .ok compiled) :
    let lines := file.colorLines
    let inEffect (n : Nat) : ColorPair := ColorLine.after .default (lines.take n)
    lines.Pairwise (·.line < ·.line) ∧ inEffect 0 = .default ∧
    (∀ (i : Fin lines.length) (foreground : Color),
      ((lines.get i).choice = .reset → inEffect (i + 1) = .default) ∧
      ((lines.get i).choice = .choose foreground none →
        inEffect (i + 1) = ⟨foreground, (inEffect i).background⟩) ∧
      ∀ background, (lines.get i).choice = .choose foreground (some background) →
        inEffect (i + 1) = ⟨foreground, background⟩) ∧
    ∀ (m : Machine) (tracer : Tracer) (parent rounds : Nat) (args : List Value),
      m.program = compiled.program →
      let calls := (m.run Recorder.console {} tracer parent rounds args).console.colors
      let traced := (m.run Recorder.console {} { level := .debug } parent rounds args).tracer
      ∃ made : List (Fin lines.length),
        calls = made.map (fun i : Fin lines.length => inEffect (i + 1)) ∧
        traced.colorPoints = made.map (fun i => lineText (lines.get i).line) ∧
        (∀ (k : Nat) (i : Fin lines.length) (foreground : Color) (before : ColorPair),
          made[k]? = some i → (lines.get i).choice = .choose foreground none → InTurn made k →
            (ColorPair.default :: calls)[k]? = some before →
            calls[k]? = some ⟨foreground, before.background⟩) ∧
        ((∀ s ∈ compiled.program.body, s.bodies = []) → ∀ k < made.length, InTurn made k) := by
  intro lines inEffect
  have chosen (i : Fin lines.length) {choice : ColorChoice} (same : (lines.get i).choice = choice) :
      inEffect (i + 1) = Compile.chosen (inEffect i) choice :=
    same ▸ ColorLine.after_take_succ .default lines i
  refine ⟨file.pairwise_colorLines, rfl, fun i _ => ⟨chosen i, chosen i, fun _ => chosen i⟩, ?_⟩
  intro m tracer parent rounds args same calls traced
  have whole : ∀ s ∈ Stmt.partsOf m.program.body, s.isBroken = false := by
    rw [same]
    exact ((Program.fault?_eq_none_iff _).1 (isSound_of_compileIn compiles).fault?).1
  have choices := (choices_of_compileIn compiles).trans (ColorLine.choices_eq .default lines)
  rw [← same] at choices
  obtain ⟨made, colors, points, straight⟩ := m.run_made whole choices parent rounds args
  -- The calls are the same under every tracer.
  obtain ⟨_, left, _, _, -, observed⟩ := m.run_observed Recorder.console {} rounds args
  have console := (observed tracer parent).2.1.trans (observed { level := .debug } parent).2.1.symm
  have calls_eq : calls = made.map fun i : Fin lines.length => inEffect (i + 1) :=
    (congrArg Recorder.colors console).trans colors
  refine ⟨made, calls_eq, points, ?_, ?_⟩
  · intro k i foreground before line choice inTurn previous
    have before_eq : before = inEffect i := by
      rw [calls_eq, show ColorPair.default = inEffect 0 from rfl, before_calls, List.getElem?_map,
        inTurn, List.getElem?_map, line] at previous
      exact (Option.some.inj previous).symm
    rw [calls_eq, List.getElem?_map, line, before_eq]
    exact congrArg some (chosen i choice)
  · intro flat k within
    exact inTurn_of_prefix (straight (same ▸ flat)) within

/-- A choice that is skipped keeps the background, and so does the one after it. -/
theorem color_calls_of_lines_branch :
    let file : File :=
      ⟨0, "demo.prg", "SET COLOR TO W/B\nIF .F.\nSET COLOR TO R+\nENDIF\nSET COLOR TO G\n", 0⟩
    ∃ compiled, (compileIn file .dbase [] {}).result = .ok compiled ∧
      let ran := Machine.run { program := compiled.program } Recorder.console {}
        { level := .debug } 0 1 []
      ran.console.colors = [⟨.white, .blue⟩, ⟨.green, .blue⟩] ∧
      ∃ made : List (Fin file.colorLines.length),
        ran.console.colors = made.map (fun i : Fin file.colorLines.length =>
          ColorLine.after .default (file.colorLines.take (i + 1))) ∧
        ran.tracer.colorPoints = made.map fun i => lineText (file.colorLines.get i).line := by
  intro file
  let run (compiled : Compiled) := Machine.run { program := compiled.program } Recorder.console {}
    { level := .debug } 0 1 []
  have ends : (compileIn file .dbase [] {}).result.toOption.map (fun compiled =>
      (run compiled).console.colors) =
        some [⟨.white, .blue⟩, ⟨.green, .blue⟩] := by
    decide +kernel
  obtain ⟨compiled, compiles, colors⟩ := exists_ok_of_map ends
  obtain ⟨-, -, -, runs⟩ := color_calls_of_lines file [] compiled compiles
  obtain ⟨made, calls, points, -⟩ :=
    runs { program := compiled.program } { level := .debug } 0 1 [] rfl
  exact ⟨compiled, compiles, colors, made, calls, points⟩

/-- The last line takes its background from a line that is not executed, and not from the call
before. -/
theorem background_of_skipped_line :
    let file : File :=
      ⟨0, "demo.prg", "SET COLOR TO W/B\nIF .F.\nSET COLOR TO W/R\nENDIF\nSET COLOR TO G\n", 0⟩
    file.colorLines = [⟨1, .choose .white (some .blue)⟩,
      ⟨3, .choose .white (some .red)⟩, ⟨5, .choose .green none⟩] ∧
    ∃ compiled, (compileIn file .dbase [] {}).result = .ok compiled ∧
      let ran := Machine.run { program := compiled.program } Recorder.console {}
        { level := .debug } 0 1 []
      ran.result.isOk = true ∧ ran.tracer.colorPoints = [lineText 1, lineText 5] ∧
        ran.console.colors = [⟨.white, .blue⟩, ⟨.green, .red⟩] := by
  intro file
  let run (compiled : Compiled) := Machine.run { program := compiled.program } Recorder.console {}
    { level := .debug } 0 1 []
  have ends : (compileIn file .dbase [] {}).result.toOption.map (fun compiled =>
      ((run compiled).result.isOk, (run compiled).tracer.colorPoints,
        (run compiled).console.colors)) =
      some (true, [lineText 1, lineText 5],
        [⟨.white, .blue⟩, ⟨.green, .red⟩]) := by
    decide +kernel
  obtain ⟨compiled, compiles, both⟩ := exists_ok_of_map ends
  obtain ⟨well, both⟩ := Prod.mk.inj both
  obtain ⟨points, colors⟩ := Prod.mk.inj both
  exact ⟨by decide +kernel, compiled, compiles, well, points, colors⟩

end PrgScript
