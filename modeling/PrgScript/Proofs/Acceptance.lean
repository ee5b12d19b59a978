import PrgScript.Proofs.Grammar

/-!
# Only scripts of the grammar compile

While a script runs, the open blocks say what the lines behind must still bring.
`Rest` puts that demand down: for each open block, innermost first, the rest of
what it holds and the line that closes it, and for no open block the items of
the top level. Read from its last line backwards, every run that leaves no block
open meets the demand of the blocks it starts with: a line that opens a block
takes the demand of that block off and puts the whole block before what follows.

The program is not traced on the way. It follows from the other direction: a
script of the grammar runs to the program that the rules give, and a run has
only one end.
-/

namespace PrgScript

open Step Builder Grammar Compile

namespace Grammar

variable {colors colors₁ colors₂ : ColorPair} {xs ys toks : List Token} {ts ts' : List Tree}

theorem Block.append (h : Block colors xs ts colors₁) (h' : Block colors₁ ys ts' colors₂) :
    Block colors (xs ++ ys) (ts ++ ts') colors₂ := by
  induction h with
  | nil => exact h'
  | blank ends _ ih => exact .blank ends (ih h')
  | plain line statement _ ih =>
      rw [List.append_assoc]
      exact .plain line statement (ih h')
  | branch opening body closing _ _ ih =>
      simp only [List.append_assoc]
      exact .branch opening body closing (ih h')
  | branchElse opening body dividing body' closing _ _ _ ih =>
      simp only [List.append_assoc]
      exact .branchElse opening body dividing body' closing (ih h')
  | forTo opening inner closing _ _ ih =>
      simp only [List.append_assoc]
      exact .forTo opening inner closing (ih h')
  | whileDo opening inner closing _ _ ih =>
      simp only [List.append_assoc]
      exact .whileDo opening inner closing (ih h')

/-- Statements may stand before items. -/
theorem Items.prepend {items : List Item} (h : Block colors xs ts colors₁)
    (rest : Items colors₁ toks items) : Items colors (xs ++ toks) (ts.map .tree ++ items) := by
  cases rest with
  | statements block =>
      rw [← List.map_append]
      exact .statements (h.append block)
  | classDef block definition valid rest =>
      rw [← List.append_assoc xs, ← List.append_assoc (ts.map Item.tree), ← List.map_append]
      exact .classDef (h.append block) definition valid rest

/-- What the open blocks, innermost first, still demand of the lines that follow. -/
inductive Rest : List OpenConstruct → ColorPair → List Token → Prop
  | top {colors : ColorPair} {toks : List Token} {items : List Item}
      (rest : Items colors toks items) : Rest [] colors toks
  | divided {colors colors₁ : ColorPair} {block : OpenConstruct} {blocks : List OpenConstruct}
      {xs ys toks : List Token} {ts : List Tree} {middle : Token}
      (body : Block colors xs ts colors₁) (line : Sentence ys middle .elseWord)
      (kind : block.construct = .ifBlock) (first : block.hasElse = false)
      (rest : Rest ({ block with hasElse := true } :: blocks) colors₁ toks) :
      Rest (block :: blocks) colors (xs ++ (ys ++ toks))
  | closed {colors colors₁ : ColorPair} {block : OpenConstruct} {blocks : List OpenConstruct}
      {xs ys toks : List Token} {ts : List Tree} {last : Token} {c : Command}
      (body : Block colors xs ts colors₁) (line : Sentence ys last c)
      (kind : c.closed? = some block.construct) (rest : Rest blocks colors₁ toks) :
      Rest (block :: blocks) colors (xs ++ (ys ++ toks))
  | classEnd {colors : ColorPair} {block : OpenConstruct} {blocks : List OpenConstruct}
      {xs ys toks : List Token} {ps : List Property} {last : Token}
      (kind : block.construct = .classBlock) (inner : Properties xs ps)
      (line : Sentence ys last .endClass) (rest : Rest blocks colors toks) :
      Rest (block :: blocks) colors (xs ++ (ys ++ toks))

namespace Rest

variable {blocks : List OpenConstruct} {block : OpenConstruct}

/-- Without an open block the lines that follow are the items of the top level. -/
theorem items (h : Rest [] colors toks) : ∃ items, Items colors toks items := by
  cases h with
  | top rest => exact ⟨_, rest⟩

/-- Outside a class, statements may come before what is demanded. -/
theorem prepend {ctx : Context} (outside : ctx.inClass = false) (h : Block colors xs ts colors₁)
    (rest : Rest ctx.blocks colors₁ toks) : Rest ctx.blocks colors (xs ++ toks) := by
  generalize open_ : ctx.blocks = blocks at rest
  cases rest with
  | top rest => exact .top (.prepend h rest)
  | divided body line kind first rest =>
      rw [← List.append_assoc]
      exact .divided (h.append body) line kind first rest
  | closed body line kind rest =>
      rw [← List.append_assoc]
      exact .closed (h.append body) line kind rest
  | classEnd kind =>
      simp [Context.inClass, open_, kind] at outside

theorem blank {stop : Token} (ends : stop.kind.isEnd = true) (rest : Rest blocks colors toks) :
    Rest blocks colors (stop :: toks) := by
  have line : Block colors [stop] [] colors := .blank ends (.nil colors)
  cases rest with
  | top rest => exact .top (.prepend line rest)
  | divided body => exact .divided (line.append body) ‹_› ‹_› ‹_› ‹_›
  | closed body => exact .closed (line.append body) ‹_› ‹_› ‹_›
  | classEnd kind inner => exact .classEnd kind (.blank ends inner) ‹_› ‹_›

variable {first : Token} {c : Command}

/-- The demand of a block, behind the line that opens it, begins with the rest of that block. -/
theorem opened (line : Sentence xs first c) (kind : c.opened? first = some block)
    (rest : Rest (block :: blocks) colors toks) :
    ∃ ys zs ts colors₁, toks = ys ++ zs ∧ Block colors (xs ++ ys) ts colors₁ ∧
      Rest blocks colors₁ zs := by
  have opens := c.opens kind
  cases rest with
  | @closed _ colors₁ _ _ ys zs toks _ last c' body line' kind' rest =>
      obtain ⟨ts, whole⟩ : ∃ ts, Block colors (xs ++ (ys ++ (zs ++ []))) ts colors₁ := by
        cases c <;> cases kind <;> cases c' <;> cases kind'
        · exact ⟨_, .branch line body line' (.nil _)⟩
        · exact ⟨_, .forTo line body line' (.nil _)⟩
        · exact ⟨_, .whileDo line body line' (.nil _)⟩
      rw [List.append_nil] at whole
      exact ⟨ys ++ zs, toks, ts, colors₁, (List.append_assoc ..).symm, whole, rest⟩
  | @divided _ _ _ _ us vs _ _ _ body dividing kind' _ rest =>
      cases c <;> cases kind <;> cases kind'
      cases rest with
      | divided _ _ _ twice => cases twice
      | @closed _ colors₂ _ _ ys zs toks _ last c' body' line' kind' rest =>
          cases c' <;> cases kind'
          have whole := Block.branchElse line body dividing body' line' (.nil _)
          rw [List.append_nil] at whole
          exact ⟨us ++ (vs ++ (ys ++ zs)), toks, _, colors₂, by simp, whole, rest⟩
      | classEnd kind' => cases kind'
  | classEnd kind' => exact absurd kind' opens.other

/-- The demand of a class is its properties and its end. -/
theorem properties (kind : block.construct = .classBlock)
    (rest : Rest (block :: blocks) colors toks) :
    ∃ xs ys zs ps last, toks = xs ++ (ys ++ zs) ∧ Properties xs ps ∧
      Sentence ys last .endClass ∧ Rest blocks colors zs := by
  cases rest with
  | divided _ _ kind' => simp [kind] at kind'
  | @closed _ _ _ _ _ _ _ _ _ c _ _ kind' =>
      rw [kind] at kind'
      cases c <;> cases kind'
  | classEnd _ inner line rest => exact ⟨_, _, _, _, _, rfl, inner, line, rest⟩

/-- A class may come before what the top level demands. -/
theorem classDef {name : Token} {base : Widget} {oneLine : Bool}
    (line : Sentence xs first (.beginClass name base oneLine))
    (rest : Rest ((Command.beginClass name base oneLine).blocksAfter first []) colors toks) :
    Rest [] colors (xs ++ toks) := by
  have valid : base.isValid = true := by
    cases line with
    | mk phrase _ => exact phrase.isValid
  cases oneLine with
  | true =>
      obtain ⟨items, rest⟩ := Rest.items rest
      exact .top (.classDef (.nil _) (.single line) valid rest)
  | false =>
      obtain ⟨ys, zs, toks, ps, last, rfl, inner, line', rest⟩ := properties rfl rest
      obtain ⟨items, rest⟩ := Rest.items rest
      have whole := Items.classDef (.nil colors) (.lines line inner line') valid rest
      simp only [List.nil_append, List.append_assoc] at whole
      exact .top whole

/-- A line in its place takes the demand after it to the demand before it. -/
theorem line {ctx : Context} (line : Sentence xs first c) (fits : c.Fits ctx)
    (other : ∀ names, c ≠ .parameters names)
    (rest : Rest (c.blocksAfter first ctx.blocks) (colorsAfter ctx.colors c) toks) :
    Rest ctx.blocks ctx.colors (xs ++ toks) := by
  have opens {block : OpenConstruct} (kind : c.opened? first = some block) :
      Rest ctx.blocks ctx.colors (xs ++ toks) := by
    have opens := c.opens kind
    rw [opens.blocksAfter, opens.colorsAfter] at rest
    obtain ⟨ys, zs, ts, colors₁, rfl, whole, rest⟩ := opened line kind rest
    rw [← List.append_assoc]
    exact prepend (opens.fits.1 fits) whole rest
  have closes {construct : Construct} (kind : c.closed? = some construct) :
      Rest ctx.blocks ctx.colors (xs ++ toks) := by
    have closes : c.Closes first construct := Command.closes kind
    obtain ⟨block, blocks, open_, rfl⟩ := closes.fits.1 fits
    rw [closes.blocksAfter, closes.colorsAfter, open_] at rest
    rw [open_]
    exact .closed (.nil _) line kind rest
  have plain {p : Plain} (statement : c.plain? first ctx.colors = some p) :
      Rest ctx.blocks ctx.colors (xs ++ toks) := by
    have isPlain := c.isPlain statement
    rw [isPlain.blocksAfter] at rest
    have single := Block.plain line statement (.nil _)
    rw [List.append_nil] at single
    exact prepend (isPlain.fits.1 fits) single rest
  cases c with
  | parameters names => exact absurd rfl (other names)
  | elseWord =>
      obtain ⟨block, blocks, open_, kind, once⟩ := fits
      rw [open_] at rest ⊢
      exact .divided (.nil _) line kind once rest
  | beginClass name base oneLine =>
      have outside : ctx.blocks = [] := fits
      rw [outside] at rest ⊢
      exact classDef line rest
  | property name value =>
      obtain ⟨block, blocks, open_, kind⟩ := fits
      simp only [Command.blocksAfter, colorsAfter, open_] at rest ⊢
      obtain ⟨ys, zs, toks, ps, last, rfl, inner, line', rest⟩ := properties kind rest
      rw [← List.append_assoc]
      exact .classEnd kind (.cons line inner) line' rest
  | endClass =>
      obtain ⟨block, blocks, open_, kind⟩ := fits
      rw [open_] at rest ⊢
      exact .classEnd kind .nil line rest
  | beginIf | beginFor | beginWhile => exact opens rfl
  | endIf | endFor | endWhile => exact closes rfl
  | _ => exact plain rfl

end Rest

end Grammar

section Runs

variable {w w' : Workbench} {toks : List Token}

/-- A run that leaves no block open brings what the open blocks demand. -/
theorem Compile.Runs.rest (runs : Runs w toks w') (seen : w.context.seenStatement = true)
    (closed : w'.context.blocks = []) : Rest w.context.blocks w.context.colors toks := by
  induction runs with
  | nil w =>
      rw [closed]
      exact .top (.statements (.nil _))
  | blank ends _ ih => exact .blank ends (ih seen closed)
  | @line w w₁ w' first stop more toks inside ends ran _ ih =>
      obtain ⟨-, c, does⟩ := statement_inv inside (.token ends) ran
      have rest := ih does.seenStatement closed
      rw [does.blocks, does.colors] at rest
      have other (names : List Token) : c ≠ .parameters names := by
        rintro rfl
        have fits := does.fits
        simp [Command.Fits, seen] at fits
      have whole := Rest.line (.mk does.phrase ends) does.fits other rest
      simpa using whole

/-- A run from the start that leaves no block open is a script of the grammar. -/
theorem Compile.Runs.script (runs : Runs w toks w') (outside : w.context.blocks = [])
    (default : w.context.colors = .default) (closed : w'.context.blocks = []) :
    ∃ params items, Script toks params items := by
  induction runs with
  | nil w => exact ⟨_, _, .items (.statements (.nil _))⟩
  | blank ends _ ih =>
      obtain ⟨params, items, script⟩ := ih outside default closed
      exact ⟨params, items, .blank ends script⟩
  | @line w w₁ w' first stop more toks inside ends ran runs ih =>
      obtain ⟨-, c, does⟩ := statement_inv inside (.token ends) ran
      have rest := runs.rest does.seenStatement closed
      have line : Sentence (first :: more ++ [stop]) first c := .mk does.phrase ends
      have split : first :: more ++ stop :: toks = (first :: more ++ [stop]) ++ toks := by simp
      rw [does.blocks, does.colors] at rest
      rw [split]
      by_cases isParameters : ∃ names, c = .parameters names
      · obtain ⟨names, rfl⟩ := isParameters
        simp only [Command.blocksAfter, colorsAfter, outside, default] at rest
        obtain ⟨items, rest⟩ := Rest.items rest
        exact ⟨_, _, .parameters line rest⟩
      · have whole := Rest.line line does.fits (fun names h => isParameters ⟨names, h⟩) rest
        rw [outside, default] at whole
        obtain ⟨items, whole⟩ := Rest.items whole
        exact ⟨_, _, .items whole⟩

/-- No line of a run calls a name. -/
theorem Compile.Runs.noCall (runs : Runs w toks w') : NoCall toks := by
  have other {stop : Token} {kind : Kind} (ends : stop.kind.isEnd = true)
      (inner : kind.isEnd = false) : stop.kind ≠ kind := by
    rintro rfl
    simp [ends] at inner
  induction runs with
  | nil => exact .nil
  | blank ends _ ih => exact .cons (other ends rfl) ih
  | line inside ends ran _ ih =>
      obtain ⟨-, c, does⟩ := statement_inv inside (.token ends) ran
      exact .append does.phrase.inside.noCall (other ends rfl) (other ends rfl) ih

end Runs

/-- A script of the grammar, run from the start and ended, is the program of the rules. -/
theorem finish_script {params : List Text} {items : List Item} {toks : List Token}
    (script : Script toks params items) (name : Text) (eof : Token) :
    ∃ w w', Runs { context := {}, builder := start name } toks w ∧
      outcome (Compile.finish eof) w = (.ok (Compiled.ofItems name params items), w') := by
  obtain ⟨w, runs, closed, performs⟩ := runs_script script name
  obtain ⟨n, -, agrees⟩ := runs.agrees (.start name)
  obtain ⟨b, finished⟩ := agrees.outcome_finish closed eof
  -- The builder of the run is the one that the items alone would give.
  have built := performs.unique (performs_items (top_startWith name params) items)
  have top : w.builder.Top := by
    rw [built]
    exact ((top_startWith name params).addLines _).extend _ _
  obtain ⟨b', ended⟩ := finish_items name params items
  rw [← built, outcome_finish top.toLive top.closed] at ended
  have compiled : (w.builder.addLine "end").compiled = Compiled.ofItems name params items :=
    Except.ok.inj (Prod.mk.inj ended).1
  exact ⟨w, _, runs, compiled ▸ finished⟩

/-- What compiles is a script of the grammar and becomes the program that the rules give, because
the run of its lines is the only one. -/
theorem script_of_compileIn {file : File} {name : Text} {compiled : Compiled}
    (compiles : (compileIn file .dbase name {}).result = .ok compiled) :
    ∃ toks eof params items, TokenStream.ofFile file .dbase = ⟨toks, .eof eof⟩ ∧
      Script (toks ++ [eof]) params items ∧
      compiled = Compiled.ofItems (programName file name) params items := by
  obtain ⟨w', ended, -⟩ := freshRun_of_compileIn compiles
  obtain ⟨toks, eof, w, scanned, runs, finished⟩ := freshRun_eq_ok_iff.1 ended
  obtain ⟨n, -, agrees⟩ := runs.agrees (.start _)
  obtain ⟨closed, -⟩ := agrees.finish_inv finished
  obtain ⟨params, items, script⟩ := runs.script rfl rfl closed
  obtain ⟨w₁, w₂, runs₁, finished₁⟩ := finish_script script (programName file name) eof
  have again := freshRun_eq_ok_iff.2 ⟨toks, eof, w₁, scanned, runs₁, finished₁⟩
  rw [ended] at again
  cases again
  exact ⟨toks, eof, params, items, scanned, script, rfl⟩

/-- A script compiles exactly if it can be scanned to its end and its tokens belong to the grammar,
where no name is called; it becomes the program that the rules of the grammar give. -/
theorem compile_iff_script (file : File) (name : Text) (compiled : Compiled) :
    (compileIn file .dbase name {}).result = .ok compiled ↔
      ∃ toks eof params items, (Lexer.start file .dbase).Yields toks eof ∧
        Script (toks ++ [eof]) params items ∧ NoCall (toks ++ [eof]) ∧
        compiled = Compiled.ofItems (programName file name) params items := by
  constructor
  · intro compiles
    obtain ⟨w', ended, -⟩ := freshRun_of_compileIn compiles
    obtain ⟨toks, eof, w, scanned, runs, finished⟩ := freshRun_eq_ok_iff.1 ended
    obtain ⟨n, -, agrees⟩ := runs.agrees (.start _)
    obtain ⟨closed, -⟩ := agrees.finish_inv finished
    obtain ⟨params, items, script⟩ := runs.script rfl rfl closed
    refine ⟨toks, eof, params, items, TokenStream.ofFile_eq_iff.1 scanned, script, runs.noCall, ?_⟩
    obtain ⟨w₁, w₂, runs₁, finished₁⟩ := finish_script script (programName file name) eof
    have again := freshRun_eq_ok_iff.2 ⟨toks, eof, w₁, scanned, runs₁, finished₁⟩
    rw [ended] at again
    cases again
    rfl
  · rintro ⟨toks, eof, params, items, yields, script, -, rfl⟩
    obtain ⟨w, w', runs, finished⟩ := finish_script script (programName file name) eof
    have scanned := TokenStream.ofFile_eq_iff.2 yields
    exact compileIn_of_freshRun (freshRun_eq_ok_iff.2 ⟨toks, eof, w, scanned, runs, finished⟩)

end PrgScript
