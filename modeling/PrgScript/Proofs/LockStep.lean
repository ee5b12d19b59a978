import PrgScript.Proofs.Blocks
import PrgScript.Proofs.Faults
import PrgScript.Proofs.Inside

/-!
# Context and builder in step

Between two statements of a script, context and builder agree about the open
blocks, and the counts of the context are those of the blocks. `Agrees` is the
invariant, with the counts up to the size of a word; every statement that ends
well keeps it. A script has fewer tokens than bytes, so for every text that a
machine can hold the counts are exact: that is `LockStep`.

Because the builder refuses nothing that the context admits, the faults that
would say otherwise are never raised.
-/

namespace PrgScript

open Step Grammar Builder

/-! ### Statements -/

/-- Between two statements: the stacks agree, the counts are right, and the header is not written
before there is a statement. At most `n` statements have been run. -/
structure Agrees (n : Nat) (w : Workbench) : Prop where
  tracks : Tracks w.context.blocks w.builder
  counted : ∃ closed, Counted closed w.context ∧ closed + w.context.blocks.length ≤ n
  indent : w.context.indent = w.builder.depth
  header : w.context.seenStatement = false → w.builder.hasHeader = false

theorem one_le_depthOf (blocks : List OpenConstruct) : 1 ≤ depthOf blocks := by
  induction blocks with
  | nil => exact Nat.le_refl 1
  | cons block blocks ih => exact Nat.le_trans ih (Nat.le_add_right _ _)

theorem Grammar.Phrase.seenStatement {first : Token} {more toks : List Token} {c : Command}
    (phrase : Phrase (first :: more) c) (ctx : Context) :
    (c.enter first (ctx.afterTokens first toks)).seenStatement = true := by
  cases phrase with
  | parameters kind =>
      obtain ⟨declared, h⟩ := Context.foldl_declare_eq _
        { ctx.afterTokens first toks with hasParameters := true, seenStatement := true }
      rw [Command.enter, h]
  | declare kind =>
      obtain ⟨declared, h⟩ := Context.foldl_declare_eq _ (ctx.afterTokens first toks)
      rw [Command.enter, h]
      simp [Context.afterTokens, kind]
  | printNothing kind | print kind =>
      obtain ⟨same, -⟩ | ⟨same, -⟩ := kind.cases <;> simp [Command.enter, Context.afterTokens, same]
  | beginClass kind _ _ _ _ ends =>
      cases ends <;> simp [Command.enter, Context.push, Context.afterTokens, kind]
  | _ kind =>
      simp [Command.enter, Context.push, Context.pop, Context.markElse, Context.afterTokens, kind]

namespace Compile.Does

variable {w w' : Workbench} {first : Token} {more toks : List Token} {c : Command}

theorem fits (h : Does w first (first :: more) c w') : c.Fits w.context :=
  (admits_iff_fits h.phrase).1 h.admits

theorem blocks (h : Does w first toks c w') :
    w'.context.blocks = c.blocksAfter first w.context.blocks := by
  rw [h.context]
  exact (Command.enter_fields _ _ c).1

theorem seenStatement (h : Does w first (first :: more) c w') :
    w'.context.seenStatement = true := by
  rw [h.context]
  exact h.phrase.seenStatement w.context

end Compile.Does

/-- Reading the tokens of a line does not move it. -/
theorem Command.Fits.afterTokens {ctx : Context} {first : Token} {more : List Token} {c : Command}
    (fits : c.Fits ctx) (phrase : Phrase (first :: more) c) (toks : List Token) :
    c.Fits (ctx.afterTokens first toks) := by
  cases c with
  | parameters names =>
      cases phrase with
      | parameters kind => simpa [Fits, Context.afterTokens, Context.inClass, kind] using fits
  | _ => exact fits

namespace Agrees

variable {n : Nat} {w w' : Workbench} {first : Token} {more : List Token} {c : Command}

theorem start (name : Text) : Agrees 0 { context := {}, builder := .start name } where
  tracks := .start name
  counted := by
    have zero : Number.wrap 0 = 0 := by simp [Number.wrap]
    exact ⟨0, ⟨zero.symm, zero.symm, zero.symm, zero.symm⟩, Nat.le_refl 0⟩
  indent := rfl
  header _ := rfl

/-- The builder takes every call of a statement that the context admits. -/
theorem performs (h : Agrees n w) (phrase : Phrase (first :: more) c)
    (admits : w.context.Admits first) :
    ∃ b, Performs w.builder (c.calls first w.context.colors) b := by
  obtain ⟨b, performs, -⟩ :=
    h.tracks.performs h.header phrase ((admits_iff_fits phrase).1 admits) first w.context.colors
  exact ⟨b, performs⟩

/-- A statement that ends well keeps context and builder in step. -/
theorem does (h : Agrees n w) (does : Compile.Does w first (first :: more) c w') :
    Agrees (n + 1) w' := by
  obtain ⟨b, performs, tracks⟩ :=
    h.tracks.performs h.header does.phrase does.fits first w.context.colors
  obtain rfl := performs.unique does.performs
  obtain ⟨closed, counted, few⟩ := h.counted
  have read : Counted closed (w.context.afterTokens first (first :: more)) :=
    ⟨counted.forDepth, counted.doDepth, counted.ifCount, counted.endifCount⟩
  obtain ⟨closed', counted', fewer⟩ := read.enter (does.fits.afterTokens does.phrase _) first
  refine ⟨does.blocks ▸ tracks, ⟨closed', ?_, ?_⟩, ?_, ?_⟩
  · rw [does.context]
    exact ⟨counted'.forDepth, counted'.doDepth, counted'.ifCount, counted'.endifCount⟩
  · rw [does.blocks]
    exact Nat.le_trans fewer (Nat.succ_le_succ few)
  · rw [does.context, tracks.depth]
    have := one_le_depthOf (c.blocksAfter first w.context.blocks)
    simp [Context.setIndent]
    omega
  · intro notSeen
    simp [does.seenStatement] at notSeen

/-- The end of a script is accepted if no block is open. -/
theorem outcome_finish (h : Agrees n w) (closed : w.context.blocks = []) (eof : Token) :
    ∃ b, outcome (Compile.finish eof) w =
      (.ok (w.builder.addLine "end").compiled, { w with builder := b }) := by
  obtain ⟨count, counted, -⟩ := h.counted
  have balanced : w.context.balanced = true := by
    simp [Context.balanced, counted.ifCount, counted.endifCount, closed, openCount]
  have frames : w.builder.frames = [] := by
    have mirrored := h.tracks.mirrored
    rw [closed] at mirrored
    generalize w.builder.frames = frames at mirrored
    cases mirrored
    rfl
  have finished : Builder.finish.run.run w.builder = _ :=
    Builder.outcome_finish h.tracks.live frames
  refine ⟨{ w.builder.addLine "end" with finished := true }, ?_⟩
  rw [Compile.finish, outcome_bind_of_ok (outcome_get w), closed]
  simp only [balanced, Bool.not_true, Bool.false_eq_true, if_false, finished]
  rfl

/-- With a block open, the end of a script is refused. -/
theorem outcome_finish_open {block : OpenConstruct} {blocks : List OpenConstruct}
    (open_ : w.context.blocks = block :: blocks) (eof : Token) :
    outcome (Compile.finish eof) w =
      (.error (.at (.notClosed block.construct block.opener.line) block.opener), w) := by
  rw [Compile.finish, outcome_bind_of_ok (outcome_get w), open_]
  rfl

/-- A statement that fails finds fault with the script. -/
theorem isInternal_statement (h : Agrees n w) {ending : LineEnd}
    (inside : ∀ tok ∈ first :: more, tok.kind.isEnd = false) (ends : ending.Closes)
    (clean : ending.IsClean) {e : Fault}
    (failed : outcome (Compile.statement first ⟨first :: more, ending⟩) w = (.error e, w')) :
    e.isInternal = false := by
  have whole := failed
  rw [Compile.outcome_statement] at failed
  split at failed
  · cases failed
    rfl
  next belongs =>
    cases placed : w.context.admits first with
    | error e' =>
        rw [placed] at failed
        cases failed
        exact (Context.found_admits trivial placed).isInternal
    | ok u =>
        have admits : w.context.Admits first := ⟨by simpa using belongs, placed⟩
        rw [placed] at failed
        obtain ⟨rest, -, faults⟩ := Read.Among.command
          ⟨⟨first :: more, ending⟩, (w.context.afterTokens first []).parens⟩
          ⟨fun _ _ => trivial, fun _ _ => trivial, clean⟩
        rcases Compile.body_error_cases failed with
          ⟨r, unread⟩ | ⟨c, r, read, result, r', ended, which⟩
        · exact (faults e (by rw [unread])).isInternal
        · rw [read] at rest
          rcases which with rfl | rfl
          · obtain ⟨-, -, faults⟩ := Read.Among.expectEnd r rest
            exact (faults e (by rw [ended])).isInternal
          · -- The line is a phrase, so the builder takes its calls and nothing has failed.
            obtain ⟨phrase, stop, rfl⟩ := Read.phrase_of_outcome inside ends read ended
            obtain ⟨b, performs⟩ := h.performs phrase admits
            obtain ⟨w₁, ran, -⟩ :=
              Compile.statement_of_phrase (ends stop rfl) admits phrase performs
            rw [ran] at whole
            cases whole

end Agrees

/-! ### Runs -/

namespace Compile

variable {n : Nat} {w w' w'' : Workbench} {toks : List Token}

/-- Whole lines keep context and builder in step. A statement takes two tokens at least, its own
first one and the end of its line. -/
theorem Runs.agrees (runs : Runs w toks w') (h : Agrees n w) :
    ∃ m, 2 * m ≤ 2 * n + toks.length ∧ Agrees m w' := by
  induction runs generalizing n with
  | nil w => exact ⟨n, by simp, h⟩
  | blank ends _ ih =>
      obtain ⟨m, bound, agrees⟩ := ih h
      exact ⟨m, by simp only [List.length_cons]; omega, agrees⟩
  | line inside ends ran _ ih =>
      obtain ⟨-, c, does⟩ := statement_inv inside (.token ends) ran
      obtain ⟨m, bound, agrees⟩ := ih (h.does does)
      exact ⟨m, by simp only [List.length_append, List.length_cons]; omega, agrees⟩

/-- Whole lines close the parentheses they open. -/
theorem Runs.parens (runs : Runs w toks w') (few : toks.length ≤ 2 ^ 63)
    (zero : w.context.parens = 0) : w'.context.parens = 0 := by
  induction runs with
  | nil => exact zero
  | blank _ _ ih => exact ih (by simp only [List.length_cons] at few; omega) zero
  | @line w w₁ w' first stop more toks inside ends ran _ ih =>
      simp only [List.length_append, List.length_cons] at few
      obtain ⟨-, c, does⟩ := statement_inv inside (.token ends) ran
      refine ih (by omega) ?_
      have closed : parensAfter 0 (first :: more) = 0 :=
        does.phrase.inside.closes 0 (by omega) (by simp only [List.length_cons]; omega)
      rw [does.context]
      exact (Command.enter_fields _ _ c).2.2.trans
        (by simp only [Context.afterTokens, zero, closed])

theorem agrees_content {line : List Token} {ending : LineEnd} (h : Agrees n w)
    (inside : ∀ tok ∈ line, tok.kind.isEnd = false) (ends : ending.Closes)
    (ran : outcome (content ⟨line, ending⟩) w = (.ok (), w')) : ∃ m, Agrees m w' := by
  cases line with
  | nil =>
      cases ran
      exact ⟨n, h⟩
  | cons first more =>
      obtain ⟨-, c, does⟩ := statement_inv inside ends ran
      exact ⟨n + 1, h.does does⟩

theorem isInternal_content {line : List Token} {ending : LineEnd} (h : Agrees n w)
    (inside : ∀ tok ∈ line, tok.kind.isEnd = false) (ends : ending.Closes)
    (clean : ending.IsClean) {e : Fault}
    (failed : outcome (content ⟨line, ending⟩) w = (.error e, w')) : e.isInternal = false := by
  cases line with
  | nil => cases failed
  | cons first more => exact h.isInternal_statement inside ends clean failed

theorem isInternal_finish (h : Agrees n w) {eof : Token} {e : Fault}
    (failed : outcome (finish eof) w = (.error e, w')) : e.isInternal = false := by
  cases open_ : w.context.blocks with
  | nil =>
      obtain ⟨b, finished⟩ := h.outcome_finish open_ eof
      rw [finished] at failed
      cases failed
  | cons block blocks =>
      rw [Agrees.outcome_finish_open open_] at failed
      cases failed
      rfl

/-- A script that fails does so because of what is written in it. -/
theorem isInternal_script {n : Nat} {w w' : Workbench} {toks : List Token} (h : Agrees n w)
    {ending : LineEnd} (clean : ending.IsClean) (inside : ∀ tok ∈ toks, tok.kind ≠ .eof)
    (last : ∀ tok, ending = .token tok → tok.kind = .eof) {e : Fault}
    (failed : outcome (script (Line.ofTokens ending toks)) w = (.error e, w')) :
    e.isInternal = false := by
  have ends : ending.Closes := fun tok same => by rw [last tok same]; rfl
  rcases line_cases toks with single | ⟨line, stop, rest, rfl, newline, single⟩
  · have inner : ∀ tok ∈ toks, tok.kind.isEnd = false :=
      fun tok mem => isEnd_eq_false (single tok mem) (inside tok mem)
    rw [Line.ofTokens_last single] at failed
    cases ending with
    | error e' =>
        rw [outcome_script_error] at failed
        rcases outcome_bind_eq_error.1 failed with failed | ⟨_, w₁, -, failed⟩
        · exact isInternal_content h inner ends clean failed
        · cases failed
          exact clean e' rfl
    | token eof =>
        rw [outcome_script_line] at failed
        rcases outcome_bind_eq_error.1 failed with failed | ⟨_, w₁, ran, failed⟩
        · exact isInternal_content h inner ends clean failed
        · obtain ⟨m, agrees⟩ := agrees_content h inner ends ran
          rw [if_pos (last eof rfl)] at failed
          exact isInternal_finish agrees failed
  · have inner : ∀ tok ∈ line, tok.kind.isEnd = false :=
      fun tok mem => isEnd_eq_false (single tok mem) (inside tok (by simp [mem]))
    have isEnd : (LineEnd.token stop).Closes := .token (by rw [newline]; rfl)
    rw [Line.ofTokens_line single newline, outcome_script_line] at failed
    rcases outcome_bind_eq_error.1 failed with failed | ⟨_, w₁, ran, failed⟩
    · exact isInternal_content h inner isEnd (fun e' same => by cases same) failed
    · obtain ⟨m, agrees⟩ := agrees_content h inner isEnd ran
      rw [if_neg (by simp [newline])] at failed
      exact isInternal_script agrees clean (fun tok mem => inside tok (by simp [mem])) last failed
termination_by toks.length

end Compile

/-! ### Scripts -/

/-- Context and builder between two statements: the same blocks are open in both, each in the same
part, a class only alone; the counts are those of the open blocks, and lines are indented by what
the blocks open. -/
structure LockStep (w : Workbench) : Prop where
  sameBlocks :
    w.builder.frames.map (fun frame => (frame.block.kind, frame.block.inElse)) =
      w.context.blocks.map fun block => (block.construct.blockKind, block.hasElse)
  classAlone : ∀ block ∈ w.context.blocks, block.construct = .classBlock →
    w.context.blocks = [block]
  forDepth : w.context.forDepth = openCount .forBlock w.context.blocks
  doDepth : w.context.doDepth = openCount .doBlock w.context.blocks
  ifCount : w.context.ifCount - w.context.endifCount = openCount .ifBlock w.context.blocks
  parens : w.context.parens = 0
  indent : w.context.indent = w.builder.depth
  depth :
    w.builder.depth =
      1 + w.context.blocks.countP (·.construct != .classBlock) +
        2 * openCount .classBlock w.context.blocks

theorem depthOf_eq (blocks : List OpenConstruct) :
    depthOf blocks =
      1 + blocks.countP (·.construct != .classBlock) + 2 * openCount .classBlock blocks := by
  induction blocks with
  | nil => rfl
  | cons block blocks ih =>
      rw [depthOf, ih, openCount_cons, List.countP_cons]
      cases block.construct <;> simp [Construct.levels] <;> omega

theorem Mirrored.map_eq {blocks : List OpenConstruct} {frames : List Frame}
    (h : Mirrored blocks frames) :
    frames.map (fun frame => (frame.block.kind, frame.block.inElse)) =
      blocks.map fun block => (block.construct.blockKind, block.hasElse) := by
  induction h with
  | nil => rfl
  | cons kind inElse _ _ ih => rw [List.map_cons, List.map_cons, ih, kind, inElse]

/-- Below the size of a word the counts are exact. -/
theorem Agrees.lockStep {n : Nat} {w : Workbench} (h : Agrees n w) (few : n < 2 ^ 63)
    (parens : w.context.parens = 0) : LockStep w := by
  obtain ⟨closed, counted, bound⟩ := h.counted
  have small (construct : Construct) : openCount construct w.context.blocks ≤ n :=
    Nat.le_trans List.countP_le_length (by omega)
  have exact_ {m : Nat} (le : m ≤ n) : Number.wrap m = m :=
    Number.wrap_eq_self (by omega) (by omega)
  refine ⟨h.tracks.mirrored.map_eq, h.tracks.classAlone, ?_, ?_, ?_, parens, h.indent, ?_⟩
  · rw [counted.forDepth, exact_ (small _)]
  · rw [counted.doDepth, exact_ (small _)]
  · have all : closed + openCount .ifBlock w.context.blocks ≤ n :=
      Nat.le_trans (Nat.add_le_add_left List.countP_le_length _) bound
    rw [counted.ifCount, counted.endifCount, exact_ (m := closed) (by omega), ← Int.natCast_add,
      exact_ all]
    omega
  · rw [h.tracks.depth, depthOf_eq]
    omega

/-- How the lines of a script end, given how its scanning does. -/
def LineEnd.ofEnding : Ending → LineEnd
  | .eof tok => .token tok
  | .error e _ => .error e

theorem LineEnd.kind_ofEnding {file : File} {d : Dialect} (tok : Token)
    (h : LineEnd.ofEnding (TokenStream.ofFile file d).ending = .token tok) : tok.kind = .eof := by
  cases ending : (TokenStream.ofFile file d).ending with
  | eof eof =>
      rw [ending] at h
      cases h
      exact TokenStream.kind_of_ending ending
  | error e invalid =>
      rw [ending] at h
      cases h

theorem LineEnd.isClean_ofEnding (file : File) (d : Dialect) :
    (LineEnd.ofEnding (TokenStream.ofFile file d).ending).IsClean := by
  intro e same
  cases ending : (TokenStream.ofFile file d).ending with
  | eof eof =>
      rw [ending] at same
      cases same
  | error e' invalid =>
      rw [ending] at same
      cases same
      exact TokenStream.isInternal_ofFile ending

/-- The compilation of a script from a fresh context. -/
def freshRun (file : File) (name : Text) : Except Fault Compiled × Workbench :=
  outcome (Compile.script (Line.ofStream (.ofFile file .dbase)))
    { context := {}, builder := .start (programName file name) }

section FreshRun

variable {file : File} {name : Text} {compiled : Compiled} {w w' : Workbench}

/-- A script that compiles has been scanned to its end, its lines have run, and no block is open
then. -/
theorem freshRun_eq_ok_iff :
    freshRun file name = (.ok compiled, w') ↔
      ∃ toks eof w, TokenStream.ofFile file .dbase = ⟨toks, .eof eof⟩ ∧
        Compile.Runs { context := {}, builder := .start (programName file name) }
          (toks ++ [eof]) w ∧
        outcome (Compile.finish eof) w = (.ok compiled, w') := by
  have inside : ∀ tok ∈ (TokenStream.ofFile file .dbase).tokens, tok.kind ≠ .eof :=
    fun tok => TokenStream.kind_ne_eof_of_mem
  refine (Compile.script_eq_ok_iff inside LineEnd.kind_ofEnding).trans ?_
  generalize TokenStream.ofFile file .dbase = s
  obtain ⟨toks, ending⟩ := s
  constructor
  · rintro ⟨eof, w, ended, runs, finished⟩
    cases ending with
    | eof tok =>
        cases ended
        exact ⟨toks, eof, w, rfl, runs, finished⟩
    | error e invalid => cases ended
  · rintro ⟨_, eof, w, ⟨⟩, runs, finished⟩
    exact ⟨eof, w, rfl, runs, finished⟩

theorem lockStep_of_runs (size : file.content.length < 2 ^ 63) {toks : List Token}
    (part : toks <+: (TokenStream.ofFile file .dbase).all)
    (runs : Compile.Runs { context := {}, builder := .start name } toks w) : LockStep w := by
  have few : toks.length ≤ file.content.length + 1 := by
    have scanned := TokenStream.length_tokens_ofFile_le file .dbase
    refine Nat.le_trans part.length_le ?_
    unfold TokenStream.all
    split
    · simp only [List.length_append, List.length_cons, List.length_nil]
      omega
    · omega
  obtain ⟨n, bound, agrees⟩ := runs.agrees (.start name)
  exact agrees.lockStep (by omega) (runs.parens (by omega) rfl)

theorem isInternal_compileIn {e : ScriptError}
    (failed : (compileIn file .dbase name {}).result = .error e) : e.cause.isInternal = false := by
  rw [compileIn_eq] at failed
  cases ended : freshRun file name with
  | mk result w =>
      rw [show outcome _ _ = _ from ended] at failed
      cases result with
      | ok compiled => cases failed
      | error fault =>
          have clean := Compile.isInternal_script (.start _) (LineEnd.isClean_ofEnding file .dbase)
            (fun tok => TokenStream.kind_ne_eof_of_mem) LineEnd.kind_ofEnding ended
          cases failed
          cases fault <;> exact clean

theorem compileIn_of_freshRun (ended : freshRun file name = (.ok compiled, w)) :
    (compileIn file .dbase name {}).result = .ok compiled := by
  rw [compileIn_eq, show outcome _ _ = _ from ended]

theorem freshRun_of_compileIn (compiles : (compileIn file .dbase name {}).result = .ok compiled) :
    ∃ w, freshRun file name = (.ok compiled, w) ∧
      (compileIn file .dbase name {}).context = w.context := by
  rw [compileIn_eq] at compiles ⊢
  cases ended : freshRun file name with
  | mk result w =>
      rw [show outcome _ _ = _ from ended] at compiles ⊢
      cases result with
      | error fault => cases compiles
      | ok compiled' =>
          cases compiles
          exact ⟨w, rfl, rfl⟩

end FreshRun

/-- The end of a script is accepted only if no block is open, and leaves the context. -/
theorem Agrees.finish_inv {n : Nat} {w w' : Workbench} (h : Agrees n w) {eof : Token}
    {compiled : Compiled} (finished : outcome (Compile.finish eof) w = (.ok compiled, w')) :
    w.context.blocks = [] ∧ w'.context = w.context := by
  cases open_ : w.context.blocks with
  | cons block blocks =>
      rw [outcome_finish_open open_] at finished
      cases finished
  | nil =>
      obtain ⟨b, ended⟩ := h.outcome_finish open_ eof
      rw [ended] at finished
      cases finished
      exact ⟨rfl, rfl⟩

/-- Throughout the compilation of a script context and builder are in step. So the builder never
refuses a call, the branches are never miscounted, and a script that compiles leaves nothing
open. -/
theorem compile_lockStep (file : File) (name : Text) (size : file.content.length < 2 ^ 63) :
    (∀ toks w, toks <+: (TokenStream.ofFile file .dbase).all →
      Compile.Runs { context := {}, builder := .start (programName file name) } toks w →
      LockStep w) ∧
    (∀ e, (compileIn file .dbase name {}).result = .error e → e.cause.isInternal = false) ∧
    ∀ compiled, (compileIn file .dbase name {}).result = .ok compiled →
      let ctx := (compileIn file .dbase name {}).context
      ctx.forDepth = 0 ∧ ctx.doDepth = 0 ∧ ctx.parens = 0 ∧ ctx.openBlocks = 0 ∧
        ctx.indent = 1 ∧ ctx.ifCount = ctx.endifCount := by
  refine ⟨fun toks w => lockStep_of_runs size, fun e => isInternal_compileIn, ?_⟩
  intro compiled compiles
  obtain ⟨w', ended, context⟩ := freshRun_of_compileIn compiles
  obtain ⟨toks, eof, w, scanned, runs, finished⟩ := freshRun_eq_ok_iff.1 ended
  obtain ⟨n, -, agrees⟩ := runs.agrees (.start _)
  obtain ⟨closed, same⟩ := agrees.finish_inv finished
  have whole : toks ++ [eof] <+: (TokenStream.ofFile file .dbase).all := by
    rw [scanned]
    exact List.prefix_refl _
  have inStep := lockStep_of_runs size whole runs
  have depth := inStep.depth
  have ifCount := inStep.ifCount
  simp only [closed, openCount, List.countP_nil] at depth ifCount
  rw [context, same]
  refine ⟨?_, ?_, inStep.parens, ?_, ?_, ?_⟩
  · rw [inStep.forDepth, closed]; rfl
  · rw [inStep.doDepth, closed]; rfl
  · rw [Context.openBlocks, closed]; rfl
  · rw [inStep.indent, depth]; rfl
  · omega

/-- A branch with an else part, a loop and a class: the state behind every line is in step. -/
theorem compile_lockStep_nested :
    let file : File :=
      ⟨0, "demo.prg",
        "IF a\nFOR i = 1 TO 2\nNEXT\nELSE\n? (b)\nENDIF\nCLASS c OF FORM\nENDCLASS\n", 0⟩
    file.content.length < 2 ^ 63 ∧
      ∀ toks w, toks <+: (TokenStream.ofFile file .dbase).all →
        Compile.Runs { context := {}, builder := .start (programName file []) } toks w →
        LockStep w :=
  ⟨by decide, (compile_lockStep _ [] (by decide)).1⟩

end PrgScript
