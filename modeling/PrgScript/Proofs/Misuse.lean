import PrgScript.Proofs.Builder

/-!
# Calls that a builder refuses

A builder may be called in any order. A call that it refuses leaves everything as it was,
with one exception: the end of a class, while another block is innermost, is refused only
after the `end` of the constructor has been written one level further out. Such a call is
`misplaced`. Each one takes a level off the depth that closing the innermost block gives
back, so repeating it drives the depth below zero, where no line can be written any more.

`Sound` is what every sequence of calls keeps. Its stack of open blocks carries the number
of levels that are missing, and nothing else can go wrong: a builder in that state either
still takes lines or refuses every one of them unchanged.
-/

namespace PrgScript.Builder

open Step

/-- The open blocks that are no classes. -/
def openBlocks (b : Builder) : Nat := b.frames.countP (·.block.kind != .classBody)

def openClasses (b : Builder) : Nat := b.frames.countP (·.block.kind == .classBody)

/-- Whether a call ends a class while another block is innermost. -/
def misplaced (b : Builder) : Call → Bool
  | .endClass => b.openClass.isSome && b.frames.head?.any (·.block.kind != .classBody)
  | _ => false

/-- The state after a sequence of calls, refused ones included. -/
def after (b : Builder) (cs : List Call) : Builder := cs.foldl (fun b c => (b.call c).2) b

/-- How many calls of a sequence are misplaced, each in the state that it meets. -/
def misplacements (b : Builder) : List Call → Nat
  | [] => 0
  | c :: cs => (if b.misplaced c then 1 else 0) + (b.call c).2.misplacements cs

/-! ### The stack of open blocks -/

/-- Open blocks, the innermost first, with the number of levels that are missing and the depth of
the next line. A level can get lost inside a class only, and never while the class is innermost. -/
inductive Nested : List Frame → Nat → Int → Prop
  | top : Nested [] 0 1
  | block {frame : Frame} {frames : List Frame} {missing : Nat}
      (kind : frame.block.kind ≠ .classBody) (deep : 0 ≤ frame.depth)
      (around : Nested frames missing frame.depth) :
      Nested (frame :: frames) missing (frame.depth + 1)
  | classBody {frame : Frame} {frames : List Frame} {missing : Nat}
      (kind : frame.block.kind = .classBody) (deep : 0 ≤ frame.depth)
      (outermost : ∀ f ∈ frames, f.block.kind ≠ .classBody)
      (around : Nested frames missing frame.depth) :
      Nested (frame :: frames) missing (frame.depth + 2)
  | slip {frame : Frame} {frames : List Frame} {missing : Nat} {depth : Int}
      (kind : frame.block.kind ≠ .classBody)
      (nested : Nested (frame :: frames) missing depth) :
      Nested (frame :: frames) (missing + 1) (depth - 1)

namespace Nested

variable {frame : Frame} {frames : List Frame} {missing : Nat} {depth : Int}

theorem of_nil (h : Nested [] missing depth) : missing = 0 ∧ depth = 1 := by
  cases h
  exact ⟨rfl, rfl⟩

/-- Every open block counts one level and every open class two, but for the missing ones. -/
theorem depth_add_missing (h : Nested frames missing depth) :
    depth + missing =
      1 + frames.countP (·.block.kind != .classBody) +
        2 * frames.countP (·.block.kind == .classBody) := by
  induction h with
  | top => rfl
  | block kind _ _ ih =>
      have other : (_ != BlockKind.classBody) = true := bne_iff_ne.2 kind
      simp only [List.countP_cons, other, beq_eq_false_iff_ne.2 kind]
      simp only [if_true, Bool.false_eq_true, if_false]
      omega
  | classBody kind _ _ _ ih =>
      simp only [List.countP_cons, kind, bne_self_eq_false, beq_self_eq_true]
      simp only [if_true, Bool.false_eq_true, if_false]
      omega
  | slip _ _ ih => omega

/-- What is left when the innermost block, which is no class, is taken off. -/
theorem of_block (h : Nested (frame :: frames) missing depth)
    (kind : frame.block.kind ≠ .classBody) :
    0 ≤ frame.depth ∧ ∃ missing' ≤ missing, Nested frames missing' frame.depth := by
  generalize whole : frame :: frames = all at h
  induction h with
  | top => cases whole
  | block _ deep around =>
      cases whole
      exact ⟨deep, _, Nat.le_refl _, around⟩
  | classBody isClass =>
      cases whole
      exact (kind isClass).elim
  | slip _ _ ih =>
      obtain ⟨deep, missing', le, around⟩ := ih whole
      exact ⟨deep, missing', Nat.le_succ_of_le le, around⟩

/-- Directly inside a class no level is missing but those that its surroundings lack. -/
theorem of_classBody (h : Nested (frame :: frames) missing depth)
    (kind : frame.block.kind = .classBody) :
    0 ≤ frame.depth ∧ depth = frame.depth + 2 ∧ (∀ f ∈ frames, f.block.kind ≠ .classBody) ∧
      Nested frames missing frame.depth := by
  cases h with
  | block other => exact (other kind).elim
  | classBody _ deep outermost around => exact ⟨deep, rfl, outermost, around⟩
  | slip other => exact (other kind).elim

/-- A block may take statements: only its kind and its depth matter. -/
theorem replace {block : OpenBlock} (h : Nested (frame :: frames) missing depth)
    (same : block.kind = frame.block.kind) :
    Nested ({ frame with block } :: frames) missing depth := by
  generalize whole : frame :: frames = all at h
  induction h with
  | top => cases whole
  | block kind deep around =>
      cases whole
      exact @Nested.block { frame with block } _ _ (by rwa [same]) deep around
  | classBody kind deep outermost around =>
      cases whole
      exact @Nested.classBody { frame with block } _ _ (same.trans kind) deep outermost around
  | slip kind _ ih =>
      cases whole
      exact .slip (by rwa [same]) (ih rfl)

end Nested

/-! ### What every sequence of calls keeps -/

/-- A state that calls can lead to, with the number of levels that are missing. -/
structure Sound (missing : Nat) (b : Builder) : Prop where
  nested : Nested b.frames missing b.depth
  unsealed : b.compiled.isSealed = false
  header : b.frames ≠ [] → b.hasHeader = true
  closed : b.finished = true → b.frames = [] ∧ b.hasHeader = true
  openClass : b.openClass.isSome = true ↔ ∃ frame ∈ b.frames, frame.block.kind = .classBody

/-- How a call should end: refused with nothing changed, or with no further level missing. Only
missing levels break a call down. -/
def Harmless (missing : Nat) (b : Builder) : Except BuildError Unit × Builder → Prop
  | (.ok _, b') => ∃ missing' ≤ missing, b'.Sound missing'
  | (.error e, b') => b' = b ∧ (e = .negativeDepth → b.depth < 0)

theorem sound_start (name : Text) : (start name).Sound 0 where
  nested := .top
  unsealed := rfl
  header := fun some => (some rfl).elim
  closed := fun done => by cases done
  openClass := by simp [start]

namespace Sound

variable {missing : Nat} {b : Builder}

/-- The state takes lines, or refuses each one and stays as it is. -/
theorem live_or_shut (sound : b.Sound missing) :
    b.Live ∨ ∃ e, (e = .negativeDepth → b.depth < 0) ∧
      ∀ text, outcome (emit text) b = (.error e, b) := by
  cases finished : b.finished with
  | true =>
      refine .inr ⟨.programSealed, (fun e => by cases e), fun text => ?_⟩
      simp [emit, outcome_bind, finished]
  | false =>
      by_cases deep : 0 ≤ b.depth
      · exact .inl ⟨finished, sound.unsealed, deep⟩
      · -- Below zero there are open blocks, and then the header stands.
        have some : b.frames ≠ [] := by
          intro none
          have level := (none ▸ sound.nested).of_nil.2
          omega
        have shallow : b.depth < 0 := by omega
        refine .inr ⟨.negativeDepth, fun _ => shallow, fun text => ?_⟩
        simp [emit, ensureHeader, outcome_bind, finished, sound.header some, shallow]

theorem addLine (sound : b.Sound missing) (line : Text) : (b.addLine line).Sound missing := by
  obtain ⟨_, h⟩ := b.withHeader_eq
  simp only [Builder.addLine, h]
  exact ⟨sound.nested, sound.unsealed, fun _ => rfl, fun done => ⟨(sound.closed done).1, rfl⟩,
    sound.openClass⟩

theorem addLines (sound : b.Sound missing) (lines : List Text) :
    (b.addLines lines).Sound missing := by
  induction lines generalizing b with
  | nil => exact sound
  | cons line lines ih => exact ih (sound.addLine line)

theorem addToBody (sound : b.Sound missing) (s : Stmt) : (b.addToBody s).Sound missing :=
  ⟨sound.nested, sound.unsealed, sound.header, sound.closed, sound.openClass⟩

theorem addStmt (sound : b.Sound missing) (s : Stmt) : (b.addStmt s).Sound missing := by
  obtain ⟨compiled, depth, hasHeader, finished, frames, openClass⟩ := b
  cases frames with
  | nil => exact sound.addToBody s
  | cons frame frames =>
      cases added : frame.block.add? s with
      | none => simpa only [Builder.addStmt, added] using sound.addToBody s
      | some block =>
          have same := (OpenBlock.kind_of_add? added).1
          simp only [Builder.addStmt, added]
          refine ⟨sound.nested.replace same, sound.unsealed, fun _ => sound.header (by simp),
            ?_, ?_⟩
          · intro done
            cases (sound.closed done).1
          · simpa [same] using sound.openClass

/-- Opening a block that is no class. -/
theorem push (sound : b.Sound missing) (live : b.Live) {block : OpenBlock}
    (kind : block.kind ≠ .classBody) (line : Text) :
    ((b.addLine line).push block).Sound missing where
  nested := by
    simpa [Builder.push] using @Nested.block ⟨block, b.depth⟩ _ _ kind live.deep sound.nested
  unsealed := (live.addLine line).unsealed
  header := fun _ => addLine_hasHeader b line
  closed := by
    have unfinished := (live.addLine line).unfinished
    simp [Builder.push, unfinished]
  openClass := by simpa [Builder.push, kind] using sound.openClass

/-- Taking off the innermost block, which is no class. -/
theorem pop (sound : b.Sound missing) {frame : Frame} {frames : List Frame}
    (top : b.frames = frame :: frames) (kind : frame.block.kind ≠ .classBody) :
    ∃ missing' ≤ missing, ({ b with frames, depth := frame.depth } : Builder).Sound missing' := by
  obtain ⟨-, missing', le, around⟩ := (top ▸ sound.nested).of_block kind
  have some : b.frames ≠ [] := by simp [top]
  refine ⟨missing', le, around, sound.unsealed, fun _ => sound.header some, ?_, ?_⟩
  · intro done
    exact (some (sound.closed done).1).elim
  · simpa [top, kind] using sound.openClass

/-! ### What a call does -/

/-- A call that writes its line first is refused over that line or not at all. -/
theorem harmless_emit (sound : b.Sound missing) (text : Text) {f : Builder → Builder}
    (kept : b.Live → (f (b.addLine (indentation b.depth ++ text))).Sound missing) :
    Harmless missing b (outcome (do emit text; modify f) b) := by
  rcases sound.live_or_shut with live | ⟨e, deep, shut⟩
  · rw [outcome_bind_of_ok (outcome_emit live text), outcome_modify]
    exact ⟨missing, Nat.le_refl _, kept live⟩
  · rw [outcome_bind_of_error (shut text)]
    exact ⟨rfl, deep⟩

theorem harmless_plain (sound : b.Sound missing) (text : Text) (s : Stmt) :
    Harmless missing b (outcome (do emit text; modify (Builder.addStmt s)) b) :=
  sound.harmless_emit text fun _ => (sound.addLine _).addStmt s

theorem harmless_opening (sound : b.Sound missing) (text : Text) {block : OpenBlock}
    (kind : block.kind ≠ .classBody) :
    Harmless missing b (outcome (do emit text; modify (Builder.push block)) b) :=
  sound.harmless_emit text fun live => sound.push live kind _

theorem harmless_setParams (sound : b.Sound missing) (names : List Text) :
    Harmless missing b (outcome (setParams names) b) := by
  cases header : b.hasHeader with
  | true => simp [setParams, outcome_bind, header, Harmless]
  | false =>
      rw [outcome_setParams header]
      exact ⟨missing, Nat.le_refl _, sound.nested, sound.unsealed, sound.header, sound.closed,
        sound.openClass⟩

/-- With nothing to declare there is no line to be refused. -/
theorem harmless_declare (sound : b.Sound missing) (names : List Text) (line : Nat) :
    Harmless missing b (outcome (declare names line) b) := by
  rcases sound.live_or_shut with live | ⟨e, deep, shut⟩
  · rw [declare, outcome_bind_of_ok (outcome_emitDeclarations live names), outcome_modify]
    exact ⟨missing, Nat.le_refl _, (sound.addLines _).addStmt _⟩
  · cases names with
    | nil => exact ⟨missing, Nat.le_refl _, sound.addStmt _⟩
    | cons name names =>
        rw [declare, emitDeclarations, outcome_bind_of_error (outcome_bind_of_error (shut _))]
        exact ⟨rfl, deep⟩

/-- A builder with an open block takes lines again once its depth is not below zero. -/
theorem live_of_open (sound : b.Sound missing) (some : b.frames ≠ []) {depth : Int}
    (deep : 0 ≤ depth) (frames : List Frame) :
    ({ b with depth, frames } : Builder).Live where
  unfinished := by
    cases finished : b.finished with
    | false => rfl
    | true => exact (some (sound.closed finished).1).elim
  unsealed := sound.unsealed
  deep := deep

theorem harmless_beginElse (sound : b.Sound missing) :
    Harmless missing b (outcome beginElse b) := by
  cases top : b.frames with
  | nil => simp [beginElse, outcome_bind, top, Harmless]
  | cons frame frames =>
      obtain ⟨block, depth⟩ := frame
      cases block with
      | forTo | whileDo | classBody => simp [beginElse, outcome_bind, top, Harmless]
      | branch condition thenBody elseBody inElse line =>
          cases inElse with
          | true => simp [beginElse, outcome_bind, top, Harmless]
          | false =>
              have nested := top ▸ sound.nested
              obtain ⟨deep, missing', le, around⟩ := nested.of_block BlockKind.noConfusion
              rw [outcome_beginElse (sound.live_of_open (by simp [top]) deep b.frames) top]
              have written := sound.addLine (indentation depth ++ "else")
              refine ⟨missing', le, ?_, written.unsealed, fun _ => written.header (by simp [top]),
                ?_, ?_⟩
              · exact @Nested.block ⟨.branch condition thenBody elseBody true line, depth⟩ _ _
                  BlockKind.noConfusion deep around
              · intro done
                have none := (written.closed done).1
                simp [top] at none
              · simpa [top, OpenBlock.kind] using sound.openClass

theorem harmless_closeBlock (sound : b.Sound missing) {kind : BlockKind}
    (other : kind ≠ .classBody) : Harmless missing b (outcome (closeBlock kind) b) := by
  cases top : b.frames with
  | nil => simp [closeBlock, Builder.pop, outcome_bind, top, Harmless]
  | cons frame frames =>
      by_cases same : frame.block.kind = kind
      · obtain ⟨s, closed⟩ : ∃ s, frame.block.stmt? = some s := by
          cases whole : frame.block with
          | branch | forTo | whileDo => exact ⟨_, rfl⟩
          | classBody => simp [← same, whole, OpenBlock.kind] at other
        obtain ⟨deep, -⟩ := (top ▸ sound.nested).of_block (same ▸ other)
        obtain ⟨missing', le, popped⟩ := sound.pop top (same ▸ other)
        rw [outcome_closeBlock top (sound.live_of_open (by simp [top]) deep frames) same closed]
        exact ⟨missing', le, (popped.addLine _).addStmt s⟩
      · simp [closeBlock, Builder.pop, outcome_bind, top, same, Harmless]

theorem harmless_beginClass (sound : b.Sound missing) (name : Text) (base : Widget) (line : Nat) :
    Harmless missing b (outcome (beginClass name base line) b) := by
  cases valid : base.isValid with
  | false => simp [beginClass, valid, Harmless]
  | true =>
      cases openClass : b.openClass with
      | some c => simp [beginClass, outcome_bind, valid, openClass, Harmless]
      | none =>
          have outermost : ∀ frame ∈ b.frames, frame.block.kind ≠ .classBody := by
            simpa [openClass] using sound.openClass
          rcases sound.live_or_shut with live | ⟨e, deep, shut⟩
          · rw [outcome_beginClass live openClass valid]
            have written := sound.addLines
              [indentation b.depth ++ ("class " ++ name ++ " extends " ++ base.name),
                indentation (b.depth + 1) ++ "constructor()",
                indentation (b.depth + 2) ++ "super()"]
            refine ⟨missing, Nat.le_refl _, ?_, written.unsealed, fun _ => ?_, ?_, ?_⟩
            · exact @Nested.classBody ⟨.classBody, b.depth⟩ _ _ rfl live.deep outermost sound.nested
            · simp [Builder.addLines]
            · intro done
              have unfinished := (live.addLines _).unfinished.symm.trans done
              cases unfinished
            · simp [OpenBlock.kind]
          · simpa [beginClass, outcome_bind, valid, openClass, shut, Harmless] using deep

theorem harmless_classProperty (sound : b.Sound missing) (name : Text) (value : Expr)
    (line : Nat) : Harmless missing b (outcome (classProperty name value line) b) := by
  cases openClass : b.openClass with
  | none => simp [classProperty, outcome_bind, openClass, Harmless]
  | some c =>
      rw [classProperty, outcome_bind_of_ok (outcome_get b)]
      simp only [openClass]
      refine sound.harmless_emit _ fun _ => ?_
      have written :=
        sound.addLine (indentation b.depth ++ ("this." ++ name ++ " = " ++ value.text))
      refine ⟨written.nested, written.unsealed, written.header, written.closed, ?_⟩
      simpa [openClass] using sound.openClass

/-- The end of a class is harmless if the class is the innermost block. -/
theorem harmless_endClass (sound : b.Sound missing) (placed : b.misplaced .endClass = false) :
    Harmless missing b (outcome endClass b) := by
  cases openClass : b.openClass with
  | none => simp [endClass, outcome_bind, openClass, Harmless]
  | some c =>
      cases top : b.frames with
      | nil => simpa [top, openClass] using sound.openClass
      | cons frame frames =>
          obtain ⟨block, depth⟩ := frame
          have kind : block.kind = .classBody := by simpa [misplaced, openClass, top] using placed
          obtain rfl : block = .classBody := by
            cases block with
            | classBody => rfl
            | branch | forTo | whileDo => cases kind
          obtain ⟨outer, level, outermost, around⟩ := (top ▸ sound.nested).of_classBody rfl
          simp only at outer level around
          have live : b.Live := sound.live_of_open (by simp [top]) (by omega) b.frames
          rw [outcome_endClass live openClass (by omega) outer top]
          have written := sound.addLines
            [indentation (b.depth - 1) ++ "end", indentation depth ++ "end"]
          refine ⟨missing, Nat.le_refl _, around, written.unsealed, fun _ => ?_, ?_, ?_⟩
          · simp [Builder.addLines]
          · intro done
            have unfinished := (live.addLines _).unfinished.symm.trans done
            cases unfinished
          · simpa using outermost

/-- A build is ended if nothing is open and it has not been ended before. -/
theorem finish_cases (sound : b.Sound missing) :
    (b.frames = [] ∧ outcome finish b =
      (.ok (b.addLine "end").compiled, { b.addLine "end" with finished := true })) ∨
      ∃ e, e ≠ .negativeDepth ∧ outcome finish b = (.error e, b) := by
  cases finished : b.finished with
  | true =>
      refine .inr ⟨.programSealed, BuildError.noConfusion, ?_⟩
      simp [finish, outcome_bind, finished]
  | false =>
      cases top : b.frames with
      | cons frame frames =>
          refine .inr ⟨.blockLeftOpen frame.block.kind, BuildError.noConfusion, ?_⟩
          simp [finish, outcome_bind, finished, top]
      | nil =>
          have level := (top ▸ sound.nested).of_nil.2
          have live : b.Live := ⟨finished, sound.unsealed, by omega⟩
          exact .inl ⟨rfl, outcome_finish live top⟩

theorem harmless_finish (sound : b.Sound missing) :
    Harmless missing b (outcome (discard finish) b) := by
  obtain ⟨top, done⟩ | ⟨e, other, refused⟩ := sound.finish_cases
  · rw [outcome_discard_of_ok done]
    have written := sound.addLine "end"
    refine ⟨missing, Nat.le_refl _, written.nested, written.unsealed, written.header, ?_,
      written.openClass⟩
    simp [top]
  · rw [outcome_discard_of_error refused]
    exact ⟨rfl, fun same => (other same).elim⟩

/-- Every call that is not misplaced is harmless. -/
theorem harmless_call (sound : b.Sound missing) {c : Call} (placed : b.misplaced c = false) :
    Harmless missing b (b.call c) := by
  rw [call_eq]
  cases c with
  | setParams names => exact sound.harmless_setParams names
  | declare names line => exact sound.harmless_declare names line
  | assign | setColor | say | print | finishScript => exact sound.harmless_plain _ _
  | beginIf | beginFor | beginWhile => exact sound.harmless_opening _ BlockKind.noConfusion
  | beginElse => exact sound.harmless_beginElse
  | endIf | endFor | endWhile => exact sound.harmless_closeBlock BlockKind.noConfusion
  | beginClass name base line => exact sound.harmless_beginClass name base line
  | classProperty name value line => exact sound.harmless_classProperty name value line
  | endClass => exact sound.harmless_endClass placed
  | finish => exact sound.harmless_finish

end Sound

/-! ### The misplaced end of a class -/

section Misplaced

variable {missing : Nat} {b : Builder}

theorem misplaced_inv {c : Call} (h : b.misplaced c = true) :
    c = .endClass ∧ (∃ opened, b.openClass = some opened) ∧
      ∃ frame frames, b.frames = frame :: frames ∧ frame.block.kind ≠ .classBody := by
  cases c with
  | endClass =>
      cases top : b.frames with
      | nil => simp [misplaced, top] at h
      | cons frame frames =>
          simp only [misplaced, top, List.head?_cons, Option.any_some, Bool.and_eq_true,
            bne_iff_ne, Option.isSome_iff_exists] at h
          exact ⟨rfl, h.1, frame, frames, rfl, h.2⟩
  | _ => cases h

/-- A misplaced call writes the `end` of the constructor before it is refused, and the depth stays
one level further out. -/
theorem call_of_misplaced (sound : b.Sound missing) {c : Call} (h : b.misplaced c = true)
    (deep : 0 < b.depth) :
    ∃ kind, b.call c =
      (.error (.endOfOther .classBody kind),
        { b.addLine (indentation (b.depth - 1) ++ "end") with depth := b.depth - 1 }) := by
  obtain ⟨rfl, ⟨opened, openClass⟩, frame, frames, top, kind⟩ := misplaced_inv h
  have outer : ({ b with depth := b.depth - 1 } : Builder).Live :=
    sound.live_of_open (by simp [top]) (by omega) b.frames
  obtain ⟨compiled, depth, hasHeader, finished, _, _⟩ := b
  subst openClass top
  refine ⟨frame.block.kind, ?_⟩
  simp only [call_eq, perform, endClass, outcome_bind, outcome_get, outcome_modify,
    outcome_emit outer]
  simp only [pop, outcome_bind, outcome_get, addLine_frames, if_neg kind, outcome_throw]
  cases hasHeader <;> rfl

/-- At depth zero the line cannot be written, and the depth is lowered all the same. -/
theorem call_of_misplaced_of_le (sound : b.Sound missing) {c : Call} (h : b.misplaced c = true)
    (shallow : b.depth ≤ 0) :
    b.call c = (.error .negativeDepth, { b with depth := b.depth - 1 }) := by
  obtain ⟨rfl, ⟨opened, openClass⟩, frame, frames, top, kind⟩ := misplaced_inv h
  have some : b.frames ≠ [] := by simp [top]
  have below : b.depth - 1 < 0 := by omega
  have unfinished := (sound.live_of_open some (Int.le_refl 0) []).unfinished
  simp only at unfinished
  simp [call_eq, perform, endClass, emit, ensureHeader, outcome_bind, openClass, unfinished,
    sound.header some, below]

/-- A misplaced call costs one level. -/
theorem Sound.slip (sound : b.Sound missing) {c : Call} (h : b.misplaced c = true) :
    (b.call c).2.Sound (missing + 1) := by
  obtain ⟨-, -, frame, frames, top, kind⟩ := misplaced_inv h
  have slipped : Nested b.frames (missing + 1) (b.depth - 1) := by
    have nested := sound.nested
    rw [top] at nested ⊢
    exact .slip kind nested
  by_cases deep : 0 < b.depth
  · obtain ⟨_, called⟩ := call_of_misplaced sound h deep
    have written := sound.addLine (indentation (b.depth - 1) ++ "end")
    rw [called]
    refine ⟨?_, written.unsealed, written.header, written.closed, written.openClass⟩
    simpa using slipped
  · rw [call_of_misplaced_of_le sound h (by omega)]
    exact ⟨slipped, sound.unsealed, sound.header, sound.closed, sound.openClass⟩

/-- What one call keeps. -/
theorem Sound.call (sound : b.Sound missing) (c : Call) :
    ∃ missing' ≤ missing + (if b.misplaced c then 1 else 0), (b.call c).2.Sound missing' := by
  cases placed : b.misplaced c with
  | true => exact ⟨missing + 1, Nat.le_refl _, sound.slip placed⟩
  | false =>
      have harmless := sound.harmless_call placed
      cases ended : b.call c with
      | mk result b' =>
          rw [ended] at harmless
          cases result with
          | ok => exact harmless
          | error e =>
              obtain ⟨rfl, -⟩ := harmless
              exact ⟨missing, Nat.le_refl _, sound⟩

/-- A refused call changes the state exactly if it is misplaced. -/
theorem Sound.refused_iff (sound : b.Sound missing) {c : Call} {e : BuildError}
    (refused : (b.call c).1 = .error e) : (b.call c).2 = b ↔ b.misplaced c = false := by
  cases placed : b.misplaced c with
  | false =>
      have harmless := sound.harmless_call placed
      rw [show b.call c = (.error e, (b.call c).2) from Prod.ext refused rfl] at harmless
      simpa using harmless.1
  | true =>
      have lowered : (b.call c).2.depth = b.depth - 1 := by
        by_cases deep : 0 < b.depth
        · obtain ⟨_, called⟩ := call_of_misplaced sound placed deep
          rw [called]
        · rw [call_of_misplaced_of_le sound placed (by omega)]
      refine iff_of_false (fun same => ?_) Bool.noConfusion
      rw [same] at lowered
      omega

/-- Above depth zero no call breaks down. -/
theorem Sound.call_ne_negativeDepth (sound : b.Sound missing) (deep : 0 < b.depth) (c : Call) :
    (b.call c).1 ≠ .error .negativeDepth := by
  intro broken
  cases placed : b.misplaced c with
  | true =>
      obtain ⟨_, called⟩ := call_of_misplaced sound placed deep
      rw [called] at broken
      cases broken
  | false =>
      have harmless := sound.harmless_call placed
      rw [show b.call c = (.error .negativeDepth, (b.call c).2) from Prod.ext broken rfl]
        at harmless
      have below := harmless.2 rfl
      omega

/-- What a sequence of calls keeps, whatever the calls are. -/
theorem Sound.after (sound : b.Sound missing) (cs : List Call) :
    ∃ missing' ≤ missing + b.misplacements cs, (b.after cs).Sound missing' := by
  induction cs generalizing b missing with
  | nil => exact ⟨missing, Nat.le_refl _, sound⟩
  | cons c cs ih =>
      obtain ⟨missing', le, next⟩ := sound.call c
      obtain ⟨missing'', le', rest⟩ := ih next
      refine ⟨missing'', ?_, rest⟩
      rw [misplacements]
      omega

end Misplaced

/-- A call that a builder refuses leaves it as it was, unless the call ends a class while another
block is innermost: that one leaves a line `end` behind and a level too few. Without such calls
the depth is the one of the open blocks and no call breaks down. -/
theorem refused_call_keeps_state (name : Text) (cs : List Call) (c : Call) :
    let b := (start name).after cs
    (∀ e, (b.call c).1 = .error e → ((b.call c).2 = b ↔ b.misplaced c = false)) ∧
      ((start name).misplacements cs = 0 →
        b.depth = 1 + b.openBlocks + 2 * b.openClasses ∧ 1 ≤ b.depth ∧
          (b.call c).1 ≠ .error .negativeDepth) ∧
      (b.misplaced c = true → 0 < b.depth →
        ∃ kind, b.call c =
          (.error (.endOfOther .classBody kind),
            { b.addLine (indentation (b.depth - 1) ++ "end") with depth := b.depth - 1 })) := by
  intro b
  obtain ⟨missing, few, sound⟩ := (sound_start name).after cs
  refine ⟨fun e refused => sound.refused_iff refused, ?_, call_of_misplaced sound⟩
  intro none
  have level : b.depth + missing = 1 + b.openBlocks + 2 * b.openClasses :=
    sound.nested.depth_add_missing
  have deep : 0 < b.depth := by omega
  exact ⟨by omega, deep, sound.call_ne_negativeDepth deep c⟩

/-- Inside a conditional of a class, the refused end of the class leaves a line and a level too
few, and the fifth in a row breaks down. -/
theorem endClass_within_if_slips :
    let b := (start "u").after [.beginClass "K" .form 1, .beginIf (.logical true 2) 2]
    (b.call .endClass).1 = .error (.endOfOther .classBody .branch) ∧
      b.depth = 4 ∧ (b.call .endClass).2.depth = 3 ∧
      (b.call .endClass).2.compiled.lines = b.compiled.lines ++ [indentation 3 ++ "end"] ∧
      ((b.after (List.replicate 4 .endClass)).call .endClass).1 = .error .negativeDepth :=
  ⟨rfl, rfl, rfl, rfl, rfl⟩

end PrgScript.Builder
