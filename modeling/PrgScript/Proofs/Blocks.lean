import PrgScript.Proofs.Statement
import PrgScript.Proofs.Tree

/-!
# Open blocks

The context and the builder each keep a stack of open blocks. A statement
updates the two by different operations and in different orders, and the context
also counts what it opens and closes. `Tracks` says how the stacks agree, block
by block, and `Counted` says what the counts are worth.

Both are kept by every command in a place that fits it. `Tracks.performs` also
says that the builder refuses none of the calls such a command makes.
-/

namespace PrgScript

open Step Grammar Builder

/-! ### The place that a command needs -/

namespace Context

def Innermost (ctx : Context) (construct : Construct) : Prop :=
  ∃ block blocks, ctx.blocks = block :: blocks ∧ block.construct = construct

theorem inClass_iff {ctx : Context} : ctx.inClass = true ↔ ctx.Innermost .classBlock := by
  unfold inClass Innermost
  cases ctx.blocks <;> simp

theorem closing_eq_ok {ctx : Context} {closing : Closing} {tok : Token} {block : OpenConstruct} :
    ctx.closing closing tok = .ok block ↔
      ∃ blocks, ctx.blocks = block :: blocks ∧ block.construct = closing.construct := by
  unfold Context.closing
  cases ctx.blocks with
  | nil => simp
  | cons top blocks =>
      by_cases same : top.construct = closing.construct
      · simp only [same, if_true, Except.ok.injEq, List.cons.injEq]
        constructor
        · rintro rfl
          exact ⟨blocks, ⟨rfl, rfl⟩, same⟩
        · rintro ⟨_, ⟨rfl, -⟩, -⟩
          rfl
      · simp only [same, if_false, List.cons.injEq]
        constructor
        · split <;> simp
        · rintro ⟨_, ⟨rfl, -⟩, construct⟩
          exact (same construct).elim

theorem discard_closing_eq_ok {ctx : Context} {closing : Closing} {tok : Token} :
    discard (ctx.closing closing tok) = .ok () ↔ ctx.Innermost closing.construct := by
  constructor
  · intro h
    cases closed : ctx.closing closing tok with
    | error e =>
        rw [closed] at h
        cases h
    | ok block =>
        obtain ⟨blocks, open_, same⟩ := closing_eq_ok.1 closed
        exact ⟨block, blocks, open_, same⟩
  · rintro ⟨block, blocks, open_, same⟩
    rw [closing_eq_ok.2 ⟨blocks, open_, same⟩]
    rfl

end Context

namespace Command

/-- The place that a command needs: a list of parameters comes first, a closing word stands in its
own block, a class stands outside every block and holds nothing but properties. -/
def Fits (ctx : Context) : Command → Prop
  | .parameters _ => ctx.inClass = false ∧ ctx.hasParameters = false ∧ ctx.seenStatement = false
  | .elseWord =>
    ∃ block blocks, ctx.blocks = block :: blocks ∧ block.construct = .ifBlock ∧
      block.hasElse = false
  | .endIf => ctx.Innermost .ifBlock
  | .endFor _ => ctx.Innermost .forBlock
  | .endWhile => ctx.Innermost .doBlock
  | .endClass | .property .. => ctx.Innermost .classBlock
  | .beginClass .. => ctx.blocks = []
  | .declare _ | .assign .. | .beginIf _ | .beginFor .. | .beginWhile _ | .finish | .setColor _
  | .say .. | .print .. => ctx.inClass = false

end Command

namespace Context

variable {ctx : Context} {first : Token}

theorem Innermost.inClass_eq_false {construct : Construct} (h : ctx.Innermost construct)
    (other : construct ≠ .classBlock) : ctx.inClass = false := by
  obtain ⟨block, blocks, open_, rfl⟩ := h
  simp [inClass, open_, other]

/-- Outside a class only the own demand of a word counts. -/
theorem admits_iff_outside (belongs : belongsInClass first = false) :
    ctx.Admits first ↔ ctx.inClass = false ∧ ctx.admits first = .ok () := by
  constructor
  · rintro ⟨outside, placed⟩
    simp only [belongs, Bool.false_eq_true, imp_false, Bool.not_eq_true] at outside
    exact ⟨outside, placed⟩
  · rintro ⟨outside, placed⟩
    exact ⟨by simp [outside], placed⟩

theorem admits_iff_closing (closing : Closing) (other : closing.construct ≠ .classBlock)
    (belongs : belongsInClass first = false)
    (asks : ctx.admits first = discard (ctx.closing closing first)) :
    ctx.Admits first ↔ ctx.Innermost closing.construct := by
  rw [admits_iff_outside belongs, asks, discard_closing_eq_ok]
  exact ⟨And.right, fun h => ⟨h.inClass_eq_false other, h⟩⟩

theorem admits_iff_inside (belongs : belongsInClass first = true)
    (placed : ctx.admits first = .ok () ↔ ctx.Innermost .classBlock) :
    ctx.Admits first ↔ ctx.Innermost .classBlock :=
  ⟨fun h => placed.1 h.placed, fun h => ⟨fun _ => belongs, placed.2 h⟩⟩

end Context

/-- The context looks only at the first token of a line, and that is enough. -/
theorem admits_iff_fits {ctx : Context} {first : Token} {more : List Token} {c : Command}
    (phrase : Phrase (first :: more) c) : ctx.Admits first ↔ c.Fits ctx := by
  have free {kind : Kind} (same : first.kind = kind)
      (outside : Context.belongsInClass { first with kind } = false)
      (asks : ctx.admits { first with kind } = .ok ()) :
      ctx.Admits first ↔ ctx.inClass = false := by
    subst same
    rw [Context.admits_iff_outside outside, asks, eq_self, and_true]
  cases phrase with
  | declare kind | assign kind | beginIf kind | beginFor kind | beginForStep kind
  | beginWhile kind | finish kind | resetColor kind | setColor kind | setColors kind | say kind =>
      exact free kind rfl rfl
  | printNothing kind | print kind =>
      obtain ⟨same, -⟩ | ⟨same, -⟩ := kind.cases <;> exact free same rfl rfl
  | endIf kind =>
      exact Context.admits_iff_closing .endif (by decide) (by simp [Context.belongsInClass, kind])
        (by simp [Context.admits, kind])
  | endFor kind | endForNamed kind =>
      exact Context.admits_iff_closing .nextWord (by decide)
        (by simp [Context.belongsInClass, kind]) (by simp [Context.admits, kind])
  | endWhile kind =>
      exact Context.admits_iff_closing .enddo (by decide) (by simp [Context.belongsInClass, kind])
        (by simp [Context.admits, kind])
  | endClass kind =>
      refine Context.admits_iff_inside (by simp [Context.belongsInClass, kind]) ?_
      simp only [Context.admits, kind]
      exact Context.discard_closing_eq_ok
  | property kind =>
      refine Context.admits_iff_inside (by simp [Context.belongsInClass, kind]) ?_
      rw [← Context.inClass_iff]
      simp only [Context.admits, kind]
      split <;> simp_all
  | parameters kind =>
      rw [Context.admits_iff_outside (by simp [Context.belongsInClass, kind])]
      simp only [Context.admits, kind, Command.Fits]
      cases ctx.hasParameters <;> cases ctx.seenStatement <;> simp
  | elseWord kind =>
      rw [Context.admits_iff_outside (by simp [Context.belongsInClass, kind])]
      simp only [Context.admits, kind, Command.Fits]
      constructor
      · rintro ⟨-, placed⟩
        cases closed : ctx.closing .elseWord first with
        | error e => simp [closed] at placed
        | ok block =>
            obtain ⟨blocks, open_, same⟩ := Context.closing_eq_ok.1 closed
            refine ⟨block, blocks, open_, same, ?_⟩
            cases h : block.hasElse with
            | false => rfl
            | true => simp [closed, h] at placed
      · rintro ⟨block, blocks, open_, same, noElse⟩
        have outside := Context.Innermost.inClass_eq_false ⟨block, blocks, open_, same⟩ (by decide)
        have closed : ctx.closing .elseWord first = .ok block :=
          Context.closing_eq_ok.2 ⟨blocks, open_, same⟩
        simp [outside, closed, noElse]
  | beginClass kind =>
      rw [Context.admits_iff_outside (by simp [Context.belongsInClass, kind])]
      simp only [Context.admits, kind, Command.Fits]
      cases blocks : ctx.blocks <;> simp [Context.inClass, blocks]

/-! ### The two stacks -/

/-- The kind of block that a builder keeps for a construct. -/
def Construct.blockKind : Construct → BlockKind
  | .ifBlock => .branch
  | .forBlock => .forTo
  | .doBlock => .whileDo
  | .classBlock => .classBody

/-- The levels of indentation that a construct opens: a class one for itself and one for its
constructor. -/
def Construct.levels : Construct → Nat
  | .classBlock => 2
  | .ifBlock | .forBlock | .doBlock => 1

/-- The level of a line inside open blocks. -/
def depthOf : List OpenConstruct → Nat
  | [] => 1
  | block :: blocks => depthOf blocks + block.construct.levels

/-- The open blocks of a script next to those of a builder: of the same kinds, in the same parts,
and each opened at the level of the blocks around it. -/
inductive Mirrored : List OpenConstruct → List Frame → Prop
  | nil : Mirrored [] []
  | cons {block : OpenConstruct} {frame : Frame} {blocks : List OpenConstruct}
      {frames : List Frame} (kind : frame.block.kind = block.construct.blockKind)
      (inElse : frame.block.inElse = block.hasElse) (depth : frame.depth = depthOf blocks)
      (rest : Mirrored blocks frames) : Mirrored (block :: blocks) (frame :: frames)

/-- A statement goes into a block without changing its kind. -/
theorem Mirrored.addStmt {blocks : List OpenConstruct} {b : Builder}
    (h : Mirrored blocks b.frames) (s : Stmt) : Mirrored blocks (b.addStmt s).frames := by
  cases b with
  | mk compiled depth hasHeader finished frames openClass =>
      cases h with
      | nil => exact .nil
      | @cons block frame blocks frames kind inElse depth rest =>
          cases added : frame.block.add? s with
          | none => simpa [Builder.addStmt, added, addToBody] using .cons kind inElse depth rest
          | some block' =>
              obtain ⟨sameKind, samePart⟩ := OpenBlock.kind_of_add? added
              have kept : Mirrored (block :: blocks) ({ frame with block := block' } :: frames) :=
                .cons (sameKind.trans kind) (samePart.trans inElse) depth rest
              simpa [Builder.addStmt, added] using kept

/-- The state of a builder belongs to the open blocks of a script. -/
structure Tracks (blocks : List OpenConstruct) (b : Builder) : Prop where
  live : b.Live
  mirrored : Mirrored blocks b.frames
  depth : b.depth = depthOf blocks
  classAlone : ∀ block ∈ blocks, block.construct = .classBlock → blocks = [block]
  openClass : b.openClass.isSome = blocks.head?.any (·.construct == .classBlock)

namespace Tracks

variable {block : OpenConstruct} {blocks : List OpenConstruct} {b : Builder}

theorem start (name : Text) : Tracks [] (Builder.start name) :=
  ⟨live_start name, .nil, rfl, by simp, rfl⟩

/-- Lines and statements do not move a builder. -/
theorem addLines_addStmt (h : Tracks blocks b) (lines : List Text) (s : Stmt) :
    Tracks blocks ((b.addLines lines).addStmt s) where
  live := (h.live.addLines lines).addStmt s
  mirrored := by
    refine Mirrored.addStmt ?_ s
    rw [addLines_frames]
    exact h.mirrored
  depth := by simp [h.depth]
  classAlone := h.classAlone
  openClass := by simp [h.openClass]

theorem plain (h : Tracks blocks b) (p : Plain) :
    ∃ b', Performs b [p.call] b' ∧ Tracks blocks b' :=
  ⟨_, .single (Plain.call_eq h.live h.depth p), h.addLines_addStmt _ _⟩

/-- With no class innermost there is no class at all. -/
theorem noClass (h : Tracks blocks b)
    (outside : blocks.head?.any (·.construct == .classBlock) = false) :
    ∀ block ∈ blocks, block.construct ≠ .classBlock := by
  intro block mem isClass
  rw [h.classAlone block mem isClass] at outside
  simp [isClass] at outside

/-- Opening a block that is no class. -/
theorem push (h : Tracks blocks b)
    (outside : blocks.head?.any (·.construct == .classBlock) = false)
    (other : block.construct ≠ .classBlock) (line : Text) {openBlock : OpenBlock}
    (kind : openBlock.kind = block.construct.blockKind)
    (inElse : openBlock.inElse = block.hasElse) :
    Tracks (block :: blocks) ((b.addLine line).push openBlock) where
  live := (h.live.addLine line).push openBlock
  mirrored := by
    rw [Builder.push, addLine_frames, addLine_depth]
    exact .cons kind inElse h.depth h.mirrored
  depth := by
    have levels : block.construct.levels = 1 := by
      cases same : block.construct <;> first | rfl | exact (other same).elim
    simp [Builder.push, h.depth, depthOf, levels]
  classAlone := by
    intro block' mem isClass
    rcases List.mem_cons.1 mem with rfl | mem
    · exact (other isClass).elim
    · exact (h.noClass outside block' mem isClass).elim
  openClass := by simp [Builder.push, h.openClass, outside, other]

/-- The frame of the innermost block. -/
theorem top (h : Tracks (block :: blocks) b) :
    ∃ frame frames, b.frames = frame :: frames ∧
      frame.block.kind = block.construct.blockKind ∧ frame.block.inElse = block.hasElse ∧
      frame.depth = depthOf blocks ∧ Mirrored blocks frames := by
  have mirrored := h.mirrored
  generalize b.frames = frames at mirrored
  cases mirrored with
  | cons kind inElse depth rest => exact ⟨_, _, rfl, kind, inElse, depth, rest⟩

/-- Below the innermost block there is no class. -/
theorem below (h : Tracks (block :: blocks) b) :
    ∀ block' ∈ blocks, block'.construct ≠ .classBlock := by
  intro block' mem isClass
  have alone := h.classAlone block' (by simp [mem]) isClass
  simp only [List.cons.injEq] at alone
  simp [alone.2] at mem

/-- Closing the innermost block, if that is no class. -/
theorem close (h : Tracks (block :: blocks) b) (other : block.construct ≠ .classBlock) :
    ∃ b', outcome (closeBlock block.construct.blockKind) b = (.ok (), b') ∧ Tracks blocks b' := by
  obtain ⟨frame, frames, open_, kind, -, depth, rest⟩ := h.top
  obtain ⟨s, closed⟩ : ∃ s, frame.block.stmt? = some s := by
    cases same : frame.block with
    | branch | forTo | whileDo => exact ⟨_, rfl⟩
    | classBody =>
        rw [same] at kind
        cases construct : block.construct with
        | classBlock => exact (other construct).elim
        | ifBlock | forBlock | doBlock =>
            simp [construct, Construct.blockKind, OpenBlock.kind] at kind
  have deep : 0 ≤ frame.depth := by simp [depth]
  refine ⟨_, outcome_closeBlock open_ (h.live.moved deep _) kind closed, addLines_addStmt ?_ [_] s⟩
  refine ⟨h.live.moved deep _, rest, depth, ?_, ?_⟩
  · intro block' mem isClass
    exact (h.below block' mem isClass).elim
  · have outer : blocks.head?.any (·.construct == .classBlock) = false := by
      cases blocks with
      | nil => rfl
      | cons block' blocks => simp [h.below block' (by simp)]
    have none := h.openClass
    simp only [List.head?_cons, Option.any_some, beq_eq_false_iff_ne.2 other] at none
    rw [outer]
    exact none

/-- Passing to the else part of the innermost block. -/
theorem markElse (h : Tracks (block :: blocks) b) (isIf : block.construct = .ifBlock)
    (noElse : block.hasElse = false) :
    ∃ b', b.call .beginElse = (.ok (), b') ∧
      Tracks ({ block with hasElse := true } :: blocks) b' := by
  obtain ⟨⟨openBlock, level⟩, frames, open_, kind, inElse, depth, rest⟩ := h.top
  cases openBlock with
  | forTo | whileDo | classBody => simp [OpenBlock.kind, isIf, Construct.blockKind] at kind
  | branch condition thenBody elseBody part line =>
      obtain rfl : part = false := inElse.trans noElse
      have deep : 0 ≤ level := by
        simp only at depth
        omega
      refine ⟨_, outcome_beginElse (h.live.moved deep _) open_, ?_⟩
      refine ⟨(h.live.addLine _).moved (Int.le_add_one deep) _, .cons kind rfl depth rest, ?_, ?_,
        ?_⟩
      · have level : level = depthOf blocks := depth
        simp [level, depthOf, isIf, Construct.levels]
      · intro block' mem isClass
        rcases List.mem_cons.1 mem with rfl | mem
        · simp [isIf] at isClass
        · exact (h.below block' mem isClass).elim
      · simpa using h.openClass

/-- Opening a class, outside every block. -/
theorem beginClass (h : Tracks [] b) (isClass : block.construct = .classBlock)
    (noElse : block.hasElse = false) (name : Text) {base : Widget} (valid : base.isValid = true)
    (line : Nat) :
    ∃ b', b.call (.beginClass name base line) = (.ok (), b') ∧ Tracks [block] b' := by
  have none : b.openClass = none := by simpa using h.openClass
  refine ⟨_, outcome_beginClass h.live none valid line, ?_⟩
  refine ⟨?_, ?_, ?_, by simp, by simp [isClass]⟩
  · exact ⟨(h.live.addLines _).unfinished, (h.live.addLines _).unsealed,
      Int.add_nonneg h.live.deep (by decide)⟩
  · have frames : b.frames = [] := by
      have mirrored := h.mirrored
      generalize b.frames = frames at mirrored
      cases mirrored
      rfl
    rw [frames]
    exact .cons (by simp [OpenBlock.kind, isClass, Construct.blockKind]) noElse.symm h.depth .nil
  · simp [h.depth, depthOf, isClass, Construct.levels]

theorem classProperty (h : Tracks (block :: blocks) b) (isClass : block.construct = .classBlock)
    (name : Text) (value : Expr) (line : Nat) :
    ∃ b', b.call (.classProperty name value line) = (.ok (), b') ∧ Tracks (block :: blocks) b' := by
  obtain ⟨c, open_⟩ : ∃ c, b.openClass = some c := by
    simpa [isClass, Option.isSome_iff_exists] using h.openClass
  refine ⟨_, outcome_classProperty h.live open_ name value line, ?_⟩
  refine ⟨?_, ?_, ?_, h.classAlone, by simp [isClass]⟩
  · have written := h.live.addLine (indentation b.depth ++ ("this." ++ name ++ " = " ++ value.text))
    exact ⟨written.unfinished, written.unsealed, written.deep⟩
  · simpa using h.mirrored
  · simp [h.depth]

/-- Ending a class, which leaves no block open. -/
theorem endClass (h : Tracks (block :: blocks) b) (isClass : block.construct = .classBlock) :
    ∃ b', b.call .endClass = (.ok (), b') ∧ Tracks blocks b' := by
  obtain ⟨c, openClass⟩ : ∃ c, b.openClass = some c := by
    simpa [isClass, Option.isSome_iff_exists] using h.openClass
  obtain ⟨⟨openBlock, level⟩, frames, open_, kind, -, depth, rest⟩ := h.top
  obtain rfl : openBlock = .classBody := by
    cases openBlock with
    | classBody => rfl
    | branch | forTo | whileDo => simp [OpenBlock.kind, isClass, Construct.blockKind] at kind
  have alone := h.classAlone block (by simp) isClass
  obtain ⟨-, rfl⟩ := List.cons.inj alone
  have inner : 0 ≤ b.depth - 1 := by simp [h.depth, depthOf, isClass, Construct.levels]
  have outer : 0 ≤ level := by
    simp only at depth
    omega
  refine ⟨_, outcome_endClass h.live openClass inner outer open_, ?_⟩
  refine ⟨?_, rest, depth, by simp, rfl⟩
  exact ⟨(h.live.addLines _).unfinished, (h.live.addLines _).unsealed, outer⟩

theorem setParams (h : Tracks blocks b) (first : b.hasHeader = false) (names : List Text) :
    ∃ b', b.call (.setParams names) = (.ok (), b') ∧ Tracks blocks b' :=
  ⟨_, outcome_setParams first names,
    ⟨⟨h.live.unfinished, h.live.unsealed, h.live.deep⟩, h.mirrored, h.depth, h.classAlone,
      h.openClass⟩⟩

end Tracks

/-! ### What a command does to the stacks -/

namespace Context

/-- Declaring names touches nothing but the declared names. -/
theorem foldl_declare_eq (names : List Token) (ctx : Context) :
    ∃ declared, names.foldl (fun ctx tok => (ctx.declare tok.text).2) ctx =
      { ctx with declared } := by
  induction names generalizing ctx with
  | nil => exact ⟨ctx.declared, rfl⟩
  | cons tok names ih =>
      obtain ⟨declared, h⟩ := ih (ctx.declare tok.text).2
      refine ⟨declared, h.trans ?_⟩
      unfold declare
      dsimp only
      split <;> rfl

end Context

def Grammar.colorsAfter (colors : ColorPair) : Command → ColorPair
  | .setColor choice => Compile.chosen colors choice
  | _ => colors

namespace Command

/-- The statement that a command is, if it neither opens nor closes anything. -/
def plain? (first : Token) (colors : ColorPair) : Command → Option Plain
  | .declare names => some (.declare (names.map (·.text)) first.line)
  | .assign name value => some (.assign name.text value name.line)
  | .finish => some (.finish first.line)
  | .setColor choice => some (.setColor (Compile.chosen colors choice) first.line)
  | .say row col value => some (.say row col value first.line)
  | .print values newline => some (.print values newline first.line)
  | .parameters _ | .beginIf _ | .elseWord | .endIf | .beginFor .. | .endFor _ | .beginWhile _
  | .endWhile | .beginClass .. | .property .. | .endClass => none

theorem calls_of_plain? {first : Token} {colors : ColorPair} {c : Command} {p : Plain}
    (h : c.plain? first colors = some p) : c.calls first colors = [p.call] := by
  cases c <;> cases h <;> rfl

def blocksAfter (first : Token) (blocks : List OpenConstruct) : Command → List OpenConstruct
  | .beginIf _ => { construct := .ifBlock, opener := first } :: blocks
  | .beginFor counter .. =>
    { construct := .forBlock, opener := first, counter := counter.text } :: blocks
  | .beginWhile _ => { construct := .doBlock, opener := first } :: blocks
  | .beginClass _ _ false => { construct := .classBlock, opener := first } :: blocks
  | .elseWord =>
    match blocks with
    | block :: blocks => { block with hasElse := true } :: blocks
    | [] => []
  | .endIf | .endFor _ | .endWhile | .endClass => blocks.tail
  | _ => blocks

/-- Carrying out a command changes the blocks and the colours, but not how many parentheses are
open. -/
theorem enter_fields (first : Token) (ctx : Context) (c : Command) :
    (c.enter first ctx).blocks = c.blocksAfter first ctx.blocks ∧
      (c.enter first ctx).colors = Grammar.colorsAfter ctx.colors c ∧
      (c.enter first ctx).parens = ctx.parens := by
  cases c with
  | parameters names =>
      obtain ⟨declared, h⟩ := Context.foldl_declare_eq names
        { ctx with hasParameters := true, seenStatement := true }
      simp only [enter, h, blocksAfter, Grammar.colorsAfter, and_self]
  | declare names =>
      obtain ⟨declared, h⟩ := Context.foldl_declare_eq names ctx
      simp only [enter, h, blocksAfter, Grammar.colorsAfter, and_self]
  | beginClass name base oneLine => cases oneLine <;> exact ⟨rfl, rfl, rfl⟩
  | elseWord => exact ⟨rfl, rfl, rfl⟩
  | _ => exact ⟨rfl, rfl, rfl⟩

end Command

/-- A class can only be derived from a known kind of object. -/
theorem Grammar.Phrase.isValid {toks : List Token} {name : Token} {base : Widget} {oneLine : Bool}
    (h : Phrase toks (.beginClass name base oneLine)) : base.isValid = true := by
  cases h with
  | beginClass _ _ _ known =>
      unfold Widget.ofKeyword? at known
      split at known <;> cases known <;> rfl

/-- The builder refuses nothing that a line asks for in its place, and belongs to the open blocks
afterwards. -/
theorem Tracks.performs {ctx : Context} {b : Builder} (h : Tracks ctx.blocks b)
    (header : ctx.seenStatement = false → b.hasHeader = false) {toks : List Token} {c : Command}
    (phrase : Phrase toks c) (fits : c.Fits ctx) (first : Token) (colors : ColorPair) :
    ∃ b', Performs b (c.calls first colors) b' ∧ Tracks (c.blocksAfter first ctx.blocks) b' := by
  have single {call : Call} {blocks : List OpenConstruct}
      (done : ∃ b', b.call call = (.ok (), b') ∧ Tracks blocks b') :
      ∃ b', Performs b [call] b' ∧ Tracks blocks b' := by
    obtain ⟨b', called, tracks⟩ := done
    exact ⟨b', .single called, tracks⟩
  have closes {construct : Construct} (other : construct ≠ .classBlock)
      (innermost : ctx.Innermost construct) :
      ∃ b', outcome (closeBlock construct.blockKind) b = (.ok (), b') ∧
        Tracks ctx.blocks.tail b' := by
    obtain ⟨block, blocks, open_, rfl⟩ := innermost
    rw [open_] at h ⊢
    exact h.close other
  cases c with
  | declare | assign | finish | setColor | say | print =>
      rw [Command.calls_of_plain? rfl]
      exact h.plain _
  | parameters names => exact single (h.setParams (header fits.2.2) _)
  | beginIf condition =>
      exact single ⟨_, outcome_emit_push h.live _ _, h.push fits (by simp) _ rfl rfl⟩
  | beginFor counter start limit step =>
      refine single ⟨_, outcome_emit_push h.live _ _, h.push fits (by simp) _ rfl rfl⟩
  | beginWhile condition =>
      exact single ⟨_, outcome_emit_push h.live _ _, h.push fits (by simp) _ rfl rfl⟩
  | elseWord =>
      obtain ⟨block, blocks, open_, isIf, noElse⟩ := fits
      rw [open_] at h ⊢
      exact single (h.markElse isIf noElse)
  | endIf => exact single (closes (by decide) fits)
  | endFor counter => exact single (closes (by decide) fits)
  | endWhile => exact single (closes (by decide) fits)
  | property name value =>
      obtain ⟨block, blocks, open_, isClass⟩ := fits
      rw [open_] at h ⊢
      exact single (h.classProperty isClass _ _ _)
  | endClass =>
      obtain ⟨block, blocks, open_, isClass⟩ := fits
      rw [open_] at h ⊢
      exact single (h.endClass isClass)
  | beginClass name base oneLine =>
      rw [show ctx.blocks = [] from fits] at h ⊢
      let block : OpenConstruct := { construct := .classBlock, opener := first }
      obtain ⟨b₁, opened, inside⟩ : ∃ b', _ ∧ Tracks [block] b' :=
        h.beginClass rfl rfl name.text phrase.isValid first.line
      cases oneLine with
      | false => exact ⟨b₁, .single opened, inside⟩
      | true =>
          obtain ⟨b₂, closed, outside⟩ := inside.endClass rfl
          exact ⟨b₂, .cons opened (.single closed), outside⟩

/-! ### The counts -/

def openCount (construct : Construct) (blocks : List OpenConstruct) : Nat :=
  blocks.countP (·.construct == construct)

theorem openCount_cons (construct : Construct) (block : OpenConstruct)
    (blocks : List OpenConstruct) :
    openCount construct (block :: blocks) =
      openCount construct blocks + if block.construct = construct then 1 else 0 := by
  simp [openCount, List.countP_cons]

/-- The counts of a context are, up to the size of a word, those of its open blocks; `closed` is
the number of branches closed so far. -/
structure Counted (closed : Nat) (ctx : Context) : Prop where
  forDepth : ctx.forDepth = Number.wrap (openCount .forBlock ctx.blocks)
  doDepth : ctx.doDepth = Number.wrap (openCount .doBlock ctx.blocks)
  ifCount : ctx.ifCount = Number.wrap (closed + openCount .ifBlock ctx.blocks)
  endifCount : ctx.endifCount = Number.wrap closed

theorem Counted.enter {closed : Nat} {ctx : Context} (h : Counted closed ctx) {c : Command}
    (fits : c.Fits ctx) (first : Token) :
    ∃ closed', Counted closed' (c.enter first ctx) ∧
      closed' + (c.blocksAfter first ctx.blocks).length ≤ closed + ctx.blocks.length + 1 := by
  obtain ⟨forDepth, doDepth, ifCount, endifCount⟩ := h
  have up (n : Int) : Number.wrap (Number.wrap n + 1) = Number.wrap (n + 1) := Int.bmod_add_bmod
  have down (n : Int) : Number.wrap (Number.wrap n - 1) = Number.wrap (n - 1) := Int.bmod_sub_bmod
  cases c with
  | parameters names =>
      obtain ⟨declared, declares⟩ := Context.foldl_declare_eq names
        { ctx with hasParameters := true, seenStatement := true }
      refine ⟨closed, ?_, by simp [Command.blocksAfter]⟩
      rw [Command.enter, declares]
      exact ⟨forDepth, doDepth, ifCount, endifCount⟩
  | declare names =>
      obtain ⟨declared, declares⟩ := Context.foldl_declare_eq names ctx
      refine ⟨closed, ?_, by simp [Command.blocksAfter]⟩
      rw [Command.enter, declares]
      exact ⟨forDepth, doDepth, ifCount, endifCount⟩
  | assign | finish | setColor | say | print | property =>
      exact ⟨closed, ⟨forDepth, doDepth, ifCount, endifCount⟩, by simp [Command.blocksAfter]⟩
  | beginIf | beginFor | beginWhile =>
      refine ⟨closed, ?_, by simp only [Command.blocksAfter, List.length_cons]; omega⟩
      constructor <;>
        simp [Command.enter, Context.push, openCount_cons, forDepth, doDepth, ifCount, endifCount,
          up, ← Int.add_assoc]
  | beginClass name base oneLine =>
      cases oneLine with
      | true =>
          exact ⟨closed, ⟨forDepth, doDepth, ifCount, endifCount⟩, by simp [Command.blocksAfter]⟩
      | false =>
          refine ⟨closed, ?_, by simp only [Command.blocksAfter, List.length_cons]; omega⟩
          constructor <;>
            simp [Command.enter, Context.push, openCount_cons, forDepth, doDepth, ifCount,
              endifCount]
  | elseWord =>
      obtain ⟨block, blocks, open_, isIf, noElse⟩ := fits
      refine ⟨closed, ?_, by simp [Command.blocksAfter, open_]⟩
      constructor <;>
        simp [Command.enter, Context.markElse, open_, openCount_cons, isIf, forDepth, doDepth,
          ifCount, endifCount]
  | endIf =>
      obtain ⟨block, blocks, open_, same⟩ := fits
      refine ⟨closed + 1, ?_, by simp [Command.blocksAfter, open_]; omega⟩
      rw [open_] at forDepth doDepth ifCount
      -- The branch moves from the open ones to the closed ones.
      have moved : (closed + (openCount .ifBlock blocks + 1) : Int) =
          closed + 1 + openCount .ifBlock blocks := by omega
      constructor <;>
        simp [Command.enter, Context.pop, open_, openCount_cons, same, forDepth, doDepth, ifCount,
          endifCount, up, moved]
  | endFor | endWhile =>
      obtain ⟨block, blocks, open_, same⟩ := fits
      refine ⟨closed, ?_, by simp [Command.blocksAfter, open_]; omega⟩
      rw [open_] at forDepth doDepth ifCount
      constructor <;>
        simp [Command.enter, Context.pop, open_, openCount_cons, same, forDepth, doDepth, ifCount,
          endifCount, down]
  | endClass =>
      obtain ⟨block, blocks, open_, same⟩ := fits
      refine ⟨closed, ?_, by simp [Command.blocksAfter, open_]; omega⟩
      rw [open_] at forDepth doDepth ifCount
      constructor <;>
        simp [Command.enter, Context.pop, open_, openCount_cons, same, forDepth, doDepth, ifCount,
          endifCount]

end PrgScript
