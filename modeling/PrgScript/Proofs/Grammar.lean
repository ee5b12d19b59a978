import PrgScript.Proofs.Listing
import PrgScript.Proofs.LockStep

/-!
# The grammar of scripts

A script is a sequence of lines, and some lines belong together: what a branch, a
loop or a class holds stands between its first line and its last. `Block` is the
sequences of statements that a block holds, `Items` the sequences of statements
and classes at the top level, and `Script` puts a line of parameters before them.
Every rule relates tokens to the program they stand for.

The colours chosen last are part of the rules, because a line that chooses only
a foreground keeps the background; they are threaded through the lines in the
order they are written.

`compile_iff_script` says that a script compiles exactly if its tokens belong to
this grammar, and then to the program that the rules give.
-/

namespace PrgScript

open Step Builder

namespace Grammar

/-- A statement line with the token that ends it, its first token and its command. -/
inductive Sentence : List Token → Token → Command → Prop
  | mk {first stop : Token} {more : List Token} {c : Command} (phrase : Phrase (first :: more) c)
      (ends : stop.kind.isEnd = true) : Sentence (first :: more ++ [stop]) first c

/-- The statements that a block holds, from the colours before them to those after. -/
inductive Block : ColorPair → List Token → List Tree → ColorPair → Prop
  | nil (colors : ColorPair) : Block colors [] [] colors
  | blank {colors colors' : ColorPair} {stop : Token} {toks : List Token} {ts : List Tree}
      (ends : stop.kind.isEnd = true) (rest : Block colors toks ts colors') :
      Block colors (stop :: toks) ts colors'
  | plain {colors colors' : ColorPair} {first : Token} {c : Command} {p : Plain}
      {xs toks : List Token} {ts : List Tree} (line : Sentence xs first c)
      (statement : c.plain? first colors = some p)
      (rest : Block (colorsAfter colors c) toks ts colors') :
      Block colors (xs ++ toks) (.plain p :: ts) colors'
  | branch {colors colors₁ colors' : ColorPair} {first last : Token} {condition : Expr}
      {xs ys zs toks : List Token} {thenBody ts : List Tree}
      (opening : Sentence xs first (.beginIf condition)) (body : Block colors ys thenBody colors₁)
      (closing : Sentence zs last .endIf) (rest : Block colors₁ toks ts colors') :
      Block colors (xs ++ (ys ++ (zs ++ toks))) (.branch condition thenBody first.line :: ts)
        colors'
  | branchElse {colors colors₁ colors₂ colors' : ColorPair} {first middle last : Token}
      {condition : Expr} {us vs xs ys zs toks : List Token} {thenBody elseBody ts : List Tree}
      (opening : Sentence us first (.beginIf condition)) (body : Block colors vs thenBody colors₁)
      (dividing : Sentence xs middle .elseWord) (body' : Block colors₁ ys elseBody colors₂)
      (closing : Sentence zs last .endIf) (rest : Block colors₂ toks ts colors') :
      Block colors (us ++ (vs ++ (xs ++ (ys ++ (zs ++ toks)))))
        (.branchElse condition thenBody elseBody first.line :: ts) colors'
  | forTo {colors colors₁ colors' : ColorPair} {first last counter : Token} {start limit : Expr}
      {step : Option Expr} {named : Option Token} {xs ys zs toks : List Token}
      {body ts : List Tree} (opening : Sentence xs first (.beginFor counter start limit step))
      (inner : Block colors ys body colors₁) (closing : Sentence zs last (.endFor named))
      (rest : Block colors₁ toks ts colors') :
      Block colors (xs ++ (ys ++ (zs ++ toks)))
        (.forTo counter.text start limit step body first.line :: ts) colors'
  | whileDo {colors colors₁ colors' : ColorPair} {first last : Token} {condition : Expr}
      {xs ys zs toks : List Token} {body ts : List Tree}
      (opening : Sentence xs first (.beginWhile condition))
      (inner : Block colors ys body colors₁) (closing : Sentence zs last .endWhile)
      (rest : Block colors₁ toks ts colors') :
      Block colors (xs ++ (ys ++ (zs ++ toks))) (.whileDo condition body first.line :: ts) colors'

/-- The lines between the head and the end of a class. -/
inductive Properties : List Token → List Property → Prop
  | nil : Properties [] []
  | blank {stop : Token} {toks : List Token} {ps : List Property} (ends : stop.kind.isEnd = true)
      (rest : Properties toks ps) : Properties (stop :: toks) ps
  | cons {first name : Token} {value : Expr} {xs toks : List Token} {ps : List Property}
      (line : Sentence xs first (.property name value)) (rest : Properties toks ps) :
      Properties (xs ++ toks) (⟨Text.lower name.text, value, first.line⟩ :: ps)

/-- A class, on one line or on several. -/
inductive ClassLines : List Token → Class → Prop
  | single {first name : Token} {base : Widget} {xs : List Token}
      (line : Sentence xs first (.beginClass name base true)) :
      ClassLines xs { name := name.text, base, line := first.line, properties := [] }
  | lines {first last name : Token} {base : Widget} {xs ys zs : List Token} {ps : List Property}
      (opening : Sentence xs first (.beginClass name base false)) (inner : Properties ys ps)
      (closing : Sentence zs last .endClass) :
      ClassLines (xs ++ (ys ++ zs))
        { name := name.text, base, line := first.line, properties := ps }

/-- The statements and classes of the top level. -/
inductive Items : ColorPair → List Token → List Item → Prop
  | statements {colors colors' : ColorPair} {toks : List Token} {ts : List Tree}
      (block : Block colors toks ts colors') : Items colors toks (ts.map .tree)
  | classDef {colors colors' : ColorPair} {xs ys toks : List Token} {ts : List Tree} {c : Class}
      {items : List Item} (block : Block colors xs ts colors') (definition : ClassLines ys c)
      (valid : c.base.isValid = true) (rest : Items colors' toks items) :
      Items colors (xs ++ (ys ++ toks)) (ts.map .tree ++ .classDef c valid :: items)

/-- A script: its parameters, if a line names them before everything else, and its items. -/
inductive Script : List Token → List Text → List Item → Prop
  | blank {stop : Token} {toks : List Token} {params : List Text} {items : List Item}
      (ends : stop.kind.isEnd = true) (rest : Script toks params items) :
      Script (stop :: toks) params items
  | parameters {first : Token} {names xs toks : List Token} {items : List Item}
      (line : Sentence xs first (.parameters names)) (rest : Items .default toks items) :
      Script (xs ++ toks) (names.map (·.text)) items
  | items {toks : List Token} {items : List Item} (rest : Items .default toks items) :
      Script toks [] items

end Grammar

/-! ### Scripts of the grammar run -/

open Grammar Compile

theorem Compile.Does.colors {w w' : Workbench} {first : Token} {toks : List Token} {c : Command}
    (h : Does w first toks c w') : w'.context.colors = colorsAfter w.context.colors c := by
  rw [h.context]
  exact (Command.enter_fields _ _ c).2.1

theorem Context.inClass_congr {ctx ctx' : Context} (same : ctx'.blocks = ctx.blocks) :
    ctx'.inClass = ctx.inClass := by
  rw [inClass, inClass, same]

namespace Command

/-- The block that a command opens, a class apart. -/
def opened? (first : Token) : Command → Option OpenConstruct
  | .beginIf _ => some { construct := .ifBlock, opener := first }
  | .beginFor counter .. =>
    some { construct := .forBlock, opener := first, counter := counter.text }
  | .beginWhile _ => some { construct := .doBlock, opener := first }
  | _ => none

/-- The kind of block that a command closes, a class apart. -/
def closed? : Command → Option Construct
  | .endIf => some .ifBlock
  | .endFor _ => some .forBlock
  | .endWhile => some .doBlock
  | _ => none

structure Opens (first : Token) (c : Command) (block : OpenConstruct) : Prop where
  fits : ∀ {ctx : Context}, c.Fits ctx ↔ ctx.inClass = false
  blocksAfter : ∀ blocks, c.blocksAfter first blocks = block :: blocks
  colorsAfter : ∀ colors, colorsAfter colors c = colors
  other : block.construct ≠ .classBlock
  noElse : block.hasElse = false

theorem opens {first : Token} {c : Command} {block : OpenConstruct}
    (h : c.opened? first = some block) : c.Opens first block := by
  cases c <;> cases h <;> exact ⟨.rfl, fun _ => rfl, fun _ => rfl, nofun, rfl⟩

structure Closes (last : Token) (c : Command) (construct : Construct) : Prop where
  fits : ∀ {ctx : Context}, c.Fits ctx ↔ ctx.Innermost construct
  blocksAfter : ∀ blocks, c.blocksAfter last blocks = blocks.tail
  colorsAfter : ∀ colors, colorsAfter colors c = colors

theorem closes {last : Token} {c : Command} {construct : Construct}
    (h : c.closed? = some construct) : c.Closes last construct := by
  cases c <;> cases h <;> exact ⟨.rfl, fun _ => rfl, fun _ => rfl⟩

structure IsPlain (first : Token) (c : Command) : Prop where
  fits : ∀ {ctx : Context}, c.Fits ctx ↔ ctx.inClass = false
  blocksAfter : ∀ blocks, c.blocksAfter first blocks = blocks

theorem isPlain {first : Token} {colors : ColorPair} {c : Command} {p : Plain}
    (h : c.plain? first colors = some p) : c.IsPlain first := by
  cases c <;> cases h <;> exact ⟨.rfl, fun _ => rfl⟩

end Command

section Completeness

variable {colors colors' : ColorPair} {xs toks : List Token} {first : Token} {c : Command}
  {w : Workbench} {b : Builder} {block : OpenConstruct}

/-- A line in its place runs if the builder takes its calls. -/
theorem runs_sentence (line : Sentence xs first c) (fits : c.Fits w.context)
    (performs : Performs w.builder (c.calls first w.context.colors) b) :
    ∃ w', Runs w xs w' ∧ w'.builder = b ∧
      w'.context.blocks = c.blocksAfter first w.context.blocks ∧
      w'.context.colors = colorsAfter w.context.colors c := by
  cases line with
  | mk phrase ends =>
      have admits := (admits_iff_fits phrase).2 fits
      obtain ⟨w', ran, builder, does⟩ := statement_of_phrase ends admits phrase performs
      exact ⟨w', .line phrase.inside.inner ends ran (.nil w'), builder, does.blocks, does.colors⟩

/-- The first line of a block. -/
theorem runs_opening (line : Sentence xs first c) (opened : c.opened? first = some block)
    (outside : w.context.inClass = false)
    (performs : Performs w.builder (c.calls first w.context.colors) b) :
    ∃ w', Runs w xs w' ∧ w'.builder = b ∧ w'.context.blocks = block :: w.context.blocks ∧
      w'.context.colors = w.context.colors ∧ w'.context.inClass = false := by
  have opens := c.opens opened
  obtain ⟨w', runs, builder, blocks, colors⟩ := runs_sentence line (opens.fits.2 outside) performs
  rw [opens.blocksAfter] at blocks
  rw [opens.colorsAfter] at colors
  exact ⟨w', runs, builder, blocks, colors, by simp [Context.inClass, blocks, opens.other]⟩

/-- The last line of a block. -/
theorem runs_closing (line : Sentence xs first c) (closed : c.closed? = some block.construct)
    {blocks : List OpenConstruct} (open_ : w.context.blocks = block :: blocks)
    (performs : Performs w.builder (c.calls first w.context.colors) b) :
    ∃ w', Runs w xs w' ∧ w'.builder = b ∧ w'.context.blocks = blocks ∧
      w'.context.colors = w.context.colors := by
  have closes : c.Closes first block.construct := Command.closes closed
  have fits := closes.fits.2 ⟨block, blocks, open_, rfl⟩
  obtain ⟨w', runs, builder, left, colors⟩ := runs_sentence line fits performs
  rw [closes.blocksAfter, open_] at left
  rw [closes.colorsAfter] at colors
  exact ⟨w', runs, builder, left, colors⟩

/-- Lines that run inside any blocks that are no class, leave them open, and make the builder
take the calls. -/
def Replays (colors : ColorPair) (toks : List Token) (calls : List Call) (colors' : ColorPair) :
    Prop :=
  ∀ (w : Workbench) (b : Builder), w.context.colors = colors → w.context.inClass = false →
    Performs w.builder calls b →
    ∃ w', Runs w toks w' ∧ w'.builder = b ∧ w'.context.blocks = w.context.blocks ∧
      w'.context.colors = colors'

namespace Replays

variable {colors₁ colors₂ : ColorPair} {ys zs : List Token} {calls calls' : List Call}
  {opening closing : Call} {last : Token} {c' : Command}

theorem append (h : Replays colors xs calls colors₁) (h' : Replays colors₁ ys calls' colors₂) :
    Replays colors (xs ++ ys) (calls ++ calls') colors₂ := by
  intro w b same outside performs
  obtain ⟨b₁, performs₁, performs₂⟩ := performs.append_inv
  obtain ⟨w₁, runs₁, rfl, blocks₁, colors₁⟩ := h w _ same outside performs₁
  obtain ⟨w₂, runs₂, rfl, blocks₂, colors₂⟩ :=
    h' w₁ _ colors₁ ((Context.inClass_congr blocks₁).trans outside) performs₂
  exact ⟨w₂, runs₁.append runs₂, rfl, blocks₂.trans blocks₁, colors₂⟩

theorem plain {p : Plain} (line : Sentence xs first c)
    (statement : c.plain? first colors = some p) :
    Replays colors xs [p.call] (colorsAfter colors c) := by
  intro w b same outside performs
  subst same
  rw [← Command.calls_of_plain? statement] at performs
  have isPlain := c.isPlain statement
  obtain ⟨w', runs, rfl, blocks, colors⟩ := runs_sentence line (isPlain.fits.2 outside) performs
  rw [isPlain.blocksAfter] at blocks
  exact ⟨w', runs, rfl, blocks, colors⟩

/-- A block with one part runs if what it holds does. -/
theorem enclosed (first_line : Sentence xs first c) (opened : c.opened? first = some block)
    (opens : ∀ colors, c.calls first colors = [opening]) (inner : Replays colors ys calls colors₁)
    (last_line : Sentence zs last c') (closed : c'.closed? = some block.construct)
    (closes : ∀ colors, c'.calls last colors = [closing]) :
    Replays colors (xs ++ (ys ++ zs)) (opening :: (calls ++ [closing])) colors₁ := by
  intro w b same outside performs
  cases performs with
  | cons call performs =>
      obtain ⟨b₂, performs₂, performs₃⟩ := performs.append_inv
      obtain ⟨w₁, runs₁, rfl, blocks₁, colors₁, outside₁⟩ :=
        runs_opening first_line opened outside (by rw [opens]; exact .single call)
      obtain ⟨w₂, runs₂, rfl, blocks₂, colors₂⟩ :=
        inner w₁ _ (colors₁.trans same) outside₁ performs₂
      obtain ⟨w₃, runs₃, rfl, blocks₃, colors₃⟩ :=
        runs_closing last_line closed (blocks₂.trans blocks₁) (by rw [closes]; exact performs₃)
      exact ⟨w₃, runs₁.append (runs₂.append runs₃), rfl, blocks₃, colors₃.trans colors₂⟩

/-- A branch with an else part runs if both its parts do. -/
theorem branchElse {condition : Expr} {middle : Token} {us vs : List Token}
    (first_line : Sentence us first (.beginIf condition)) (inner : Replays colors vs calls colors₁)
    (divider : Sentence xs middle .elseWord) (inner' : Replays colors₁ ys calls' colors₂)
    (last_line : Sentence zs last .endIf) :
    Replays colors (us ++ (vs ++ (xs ++ (ys ++ zs))))
      (.beginIf condition first.line :: (calls ++ .beginElse :: (calls' ++ [.endIf]))) colors₂ := by
  intro w b same outside performs
  cases performs with
  | cons call performs =>
      obtain ⟨b₂, performs₂, performs⟩ := performs.append_inv
      cases performs with
      | cons call' performs =>
          obtain ⟨b₄, performs₄, performs₅⟩ := performs.append_inv
          obtain ⟨w₁, runs₁, rfl, blocks₁, colors₁, outside₁⟩ :=
            runs_opening first_line rfl outside (.single call)
          obtain ⟨w₂, runs₂, rfl, blocks₂, colors₂⟩ :=
            inner w₁ _ (colors₁.trans same) outside₁ performs₂
          have open₂ := blocks₂.trans blocks₁
          obtain ⟨w₃, runs₃, rfl, blocks₃, colors₃⟩ :=
            runs_sentence divider ⟨_, _, open₂, rfl, rfl⟩ (.single call')
          rw [open₂] at blocks₃
          have outside₃ : w₃.context.inClass = false := by
            simp [Context.inClass, blocks₃, Command.blocksAfter]
          obtain ⟨w₄, runs₄, rfl, blocks₄, colors₄⟩ :=
            inner' w₃ _ (colors₃.trans colors₂) outside₃ performs₄
          obtain ⟨w₅, runs₅, rfl, blocks₅, colors₅⟩ :=
            runs_closing last_line rfl (blocks₄.trans blocks₃) performs₅
          exact ⟨w₅, runs₁.append (runs₂.append (runs₃.append (runs₄.append runs₅))), rfl, blocks₅,
            colors₅.trans colors₄⟩

/-- What a block holds makes the calls of its trees. -/
theorem of_block {ts : List Tree} (h : Block colors toks ts colors') :
    Replays colors toks (Tree.callsOf ts) colors' := by
  induction h with
  | nil colors =>
      intro w b same outside performs
      cases performs
      exact ⟨w, .nil w, rfl, rfl, same⟩
  | blank ends _ ih =>
      intro w b same outside performs
      obtain ⟨w', runs, after⟩ := ih w b same outside performs
      exact ⟨w', .blank ends runs, after⟩
  | plain line statement _ ih => exact (plain line statement).append ih
  | branch opening _ closing _ inner ih =>
      have h := (enclosed opening rfl (fun _ => rfl) inner closing rfl fun _ => rfl).append ih
      simp only [List.append_assoc] at h
      exact h
  | branchElse opening _ dividing _ closing _ inner inner' ih =>
      have h := (branchElse opening inner dividing inner' closing).append ih
      simp only [List.append_assoc] at h
      exact h
  | forTo opening _ closing _ inner ih =>
      have h := (enclosed opening rfl (fun _ => rfl) inner closing rfl fun _ => rfl).append ih
      simp only [List.append_assoc] at h
      exact h
  | whileDo opening _ closing _ inner ih =>
      have h := (enclosed opening rfl (fun _ => rfl) inner closing rfl fun _ => rfl).append ih
      simp only [List.append_assoc] at h
      exact h

end Replays

theorem runs_properties {ps : List Property} (h : Properties toks ps) :
    ∀ {w : Workbench} {b : Builder}, w.context.Innermost .classBlock →
      Performs w.builder (ps.map fun p => .classProperty p.name p.value p.line) b →
      ∃ w', Runs w toks w' ∧ w'.builder = b ∧ w'.context.blocks = w.context.blocks ∧
        w'.context.colors = w.context.colors := by
  induction h with
  | nil =>
      intro w b inside performs
      cases performs
      exact ⟨w, .nil w, rfl, rfl, rfl⟩
  | blank ends _ ih =>
      intro w b inside performs
      obtain ⟨w', runs, after⟩ := ih inside performs
      exact ⟨w', .blank ends runs, after⟩
  | cons line _ ih =>
      intro w b inside performs
      cases performs with
      | cons call performs =>
          obtain ⟨w₁, runs₁, rfl, blocks₁, colors₁⟩ := runs_sentence line inside (.single call)
          obtain ⟨block, blocks, open_, construct⟩ := inside
          obtain ⟨w₂, runs₂, rfl, blocks₂, colors₂⟩ :=
            ih ⟨block, blocks, blocks₁.trans open_, construct⟩ performs
          exact ⟨w₂, runs₁.append runs₂, rfl, blocks₂.trans blocks₁, colors₂.trans colors₁⟩

/-- A class runs outside all blocks. -/
theorem runs_class {d : Class} (h : ClassLines toks d) (valid : d.base.isValid = true)
    (outside : w.context.blocks = [])
    (performs : Performs w.builder (Item.classDef d valid).calls b) :
    ∃ w', Runs w toks w' ∧ w'.builder = b ∧ w'.context.blocks = [] ∧
      w'.context.colors = w.context.colors := by
  cases h with
  | single line =>
      obtain ⟨w', runs, rfl, blocks, colors⟩ := runs_sentence line outside performs
      exact ⟨w', runs, rfl, blocks.trans outside, colors⟩
  | lines opening inner closing =>
      cases performs with
      | cons call performs =>
          obtain ⟨b₂, performs₂, performs₃⟩ := performs.append_inv
          obtain ⟨w₁, runs₁, rfl, blocks₁, colors₁⟩ := runs_sentence opening outside (.single call)
          obtain ⟨w₂, runs₂, rfl, blocks₂, colors₂⟩ :=
            runs_properties inner ⟨_, _, blocks₁, rfl⟩ performs₂
          have open₂ := blocks₂.trans blocks₁
          obtain ⟨w₃, runs₃, rfl, blocks₃, colors₃⟩ :=
            runs_sentence closing ⟨_, _, open₂, rfl⟩ performs₃
          refine ⟨w₃, runs₁.append (runs₂.append runs₃), rfl, ?_,
            colors₃.trans (colors₂.trans colors₁)⟩
          rw [blocks₃, open₂, outside]
          rfl

theorem Item.flatMap_calls_tree (ts : List Tree) :
    (ts.map Item.tree).flatMap Item.calls = Tree.callsOf ts := by
  induction ts with
  | nil => rfl
  | cons t ts ih =>
      rw [List.map_cons, List.flatMap_cons, ih]
      rfl

/-- Items run outside all blocks. -/
theorem runs_items {items : List Item} (h : Items colors toks items) :
    ∀ {w : Workbench} {b : Builder}, w.context.colors = colors → w.context.blocks = [] →
      Performs w.builder (items.flatMap Item.calls) b →
      ∃ w', Runs w toks w' ∧ w'.builder = b ∧ w'.context.blocks = [] := by
  induction h with
  | statements statements =>
      intro w b same outside performs
      rw [Item.flatMap_calls_tree] at performs
      have free : w.context.inClass = false := by simp [Context.inClass, outside]
      obtain ⟨w', runs, rfl, blocks, _⟩ := Replays.of_block statements w _ same free performs
      exact ⟨w', runs, rfl, blocks.trans outside⟩
  | classDef statements definition valid _ ih =>
      intro w b same outside performs
      rw [List.flatMap_append, Item.flatMap_calls_tree, List.flatMap_cons] at performs
      obtain ⟨b₁, performs₁, performs⟩ := performs.append_inv
      obtain ⟨b₂, performs₂, performs₃⟩ := performs.append_inv
      have free : w.context.inClass = false := by simp [Context.inClass, outside]
      obtain ⟨w₁, runs₁, rfl, blocks₁, colors₁⟩ :=
        Replays.of_block statements w _ same free performs₁
      obtain ⟨w₂, runs₂, rfl, blocks₂, colors₂⟩ :=
        runs_class definition valid (blocks₁.trans outside) performs₂
      obtain ⟨w₃, runs₃, rfl, blocks₃⟩ := ih (colors₂.trans colors₁) blocks₂ performs₃
      exact ⟨w₃, runs₁.append (runs₂.append runs₃), rfl, blocks₃⟩

/-- A script of the grammar runs from the start and leaves no block open. -/
theorem runs_script {params : List Text} {items : List Item} (h : Script toks params items)
    (name : Text) :
    ∃ w', Runs { context := {}, builder := start name } toks w' ∧ w'.context.blocks = [] ∧
      Performs (startWith name params) (items.flatMap Item.calls) w'.builder := by
  induction h with
  | blank ends _ ih =>
      obtain ⟨w', runs, after⟩ := ih
      exact ⟨w', .blank ends runs, after⟩
  | @parameters first names xs toks items line rest =>
      have params : Performs (start name) [.setParams (names.map (·.text))]
          (startWith name (names.map (·.text))) := .single rfl
      obtain ⟨w₁, runs₁, builder, blocks₁, colors₁⟩ :=
        runs_sentence (w := { context := {}, builder := start name }) line ⟨rfl, rfl, rfl⟩ params
      obtain ⟨b, performs⟩ : ∃ b, Performs (startWith name (names.map (·.text)))
          (items.flatMap Item.calls) b := ⟨_, performs_items (top_startWith _ _) items⟩
      rw [← builder] at performs ⊢
      obtain ⟨w₂, runs₂, rfl, blocks₂⟩ := runs_items rest colors₁ blocks₁ performs
      exact ⟨w₂, runs₁.append runs₂, blocks₂, performs⟩
  | @items toks items rest =>
      obtain ⟨b, performs⟩ : ∃ b, Performs (startWith name []) (items.flatMap Item.calls) b :=
        ⟨_, performs_items (top_startWith _ _) items⟩
      obtain ⟨w', runs, rfl, blocks⟩ :=
        runs_items (w := { context := {}, builder := start name }) rest rfl rfl performs
      exact ⟨w', runs, blocks, performs⟩

end Completeness

end PrgScript
