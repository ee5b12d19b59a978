import Mathlib.Control.Monad.Basic
import PrgScript.Proofs.LockStep
import PrgScript.Proofs.Spans

/-!
# Where errors stand

An error in a script names the script, a span in it, and the line and column where the
span starts. `ScriptError.Placed` says that these belong together. Scanning places its
errors by cursors, and reading a statement places them at a token: one it has taken, one
it looks at, or the word that opened a block many lines above. All of these are tokens of
the script, so it is enough that readers and the compiler stay `Among` those; the same
goes for the tokens that warnings are given for.
-/

namespace PrgScript

open Step

/-- An error stands in a file: its span lies in it, and its line and column are those of the start
of the span. -/
structure ScriptError.Placed (file : File) (e : ScriptError) : Prop where
  path : e.file = file.path
  sameFile : e.span.file = file.id
  ordered : e.span.start ≤ e.span.stop
  inside : e.span.stop ≤ file.content.length
  place : file.lineCol e.span.start = ⟨e.line, e.col⟩

/-- An error at a token of a file. -/
theorem Token.Fits.placed {file : File} {offset : Nat} {tok : Token} (h : tok.Fits file offset)
    (cause : Cause) : ((Fault.at cause tok).error file.path).Placed file :=
  ⟨rfl, h.sameFile, h.ordered, h.inside, h.place⟩

/-! ### Scanning -/

namespace Scanner

variable {file : File} {d : Dialect} {c c' : Cursor}

/-- An error between two places of a script, one behind the other. -/
theorem placed_failed (h : c.In file) (cause : Cause) (n : Nat) {e : ScriptError}
    (failed : (Scanner.failed file cause c (c.skip n)).error = some e) : e.Placed file := by
  cases failed
  refine ⟨rfl, rfl, ?_, (h.skip n).offset_le, h.lineCol⟩
  show c.pos.offset ≤ (c.skip n).pos.offset
  rw [Cursor.skip_offset]
  exact Nat.le_add_right _ _

/-- Scanning places its errors. -/
theorem Gives.placed {result : Scanned} (h : Gives file d c result c') (inside : c.In file)
    {e : ScriptError} (failed : result.error = some e) : e.Placed file := by
  cases h with
  | eof => cases failed
  | token => cases failed
  | @badComment before more cause =>
      have stop : c.skip (before + more + 1) = (c.skip before).skip (more + 1) := by
        rw [Cursor.skip_skip, Nat.add_assoc]
      rw [stop] at failed
      exact placed_failed (inside.skip before) cause (more + 1) failed
  | @badLexeme count start more g rest cause _ _ lexed =>
      have bound := (fault_lexeme lexed).2
      have stop : (c.skip count).skip (more + 1) =
          ((c.skip count).skip start).skip (more + 1 - start) := by
        rw [Cursor.skip_skip start, Nat.add_sub_cancel' bound]
      rw [stop] at failed
      exact placed_failed ((inside.skip count).skip start) cause _ failed

end Scanner

namespace Lexer

variable {file : File} {d : Dialect} {lx : Lexer}

/-- The lexers that calls of `next` and `peek` in any order lead to. -/
inductive Reached (file : File) (d : Dialect) : Lexer → Prop
  | start : Reached file d (start file d)
  | next {lx : Lexer} (before : Reached file d lx) : Reached file d lx.next.2
  | peek {lx : Lexer} (before : Reached file d lx) : Reached file d lx.peek.2

/-- A lexer of a file whose errors are placed, those ahead included. -/
structure Places (file : File) (d : Dialect) (lx : Lexer) : Prop where
  file_eq : lx.file = file
  cursor : lx.cursor.In file
  ahead : ∀ scanned e, lx.ahead = some scanned → scanned.error = some e → e.Placed file

theorem Places.scan (h : lx.Places file d) {e : ScriptError}
    (failed : (Scanner.scan lx.file lx.dialect lx.cursor).1.error = some e) : e.Placed file := by
  obtain ⟨rfl, cursor, -⟩ := h
  exact (Scanner.gives_scan lx.file lx.dialect lx.cursor).placed cursor failed

theorem Places.cursor_scan (h : lx.Places file d) :
    (Scanner.scan lx.file lx.dialect lx.cursor).2.In file := by
  obtain ⟨rfl, cursor, -⟩ := h
  exact ((Scanner.gives_scan lx.file lx.dialect lx.cursor).fits cursor).1

theorem Places.error_next (h : lx.Places file d) {e : ScriptError}
    (failed : lx.next.1.error = some e) : e.Placed file := by
  unfold next at failed
  split at failed
  next ahead => exact h.ahead _ e ahead failed
  next => exact h.scan failed

theorem Places.next (h : lx.Places file d) : lx.next.2.Places file d := by
  unfold Lexer.next
  split
  next ahead => exact ⟨h.file_eq, h.cursor, fun _ _ none => by cases none⟩
  next none =>
    refine ⟨h.file_eq, h.cursor_scan, fun _ _ some => ?_⟩
    cases none.symm.trans some

theorem Places.peek (h : lx.Places file d) : lx.peek.2.Places file d := by
  unfold Lexer.peek
  split
  next => exact h
  next none =>
    refine ⟨h.file_eq, h.cursor_scan, fun _ _ same failed => ?_⟩
    cases same
    exact h.scan failed

theorem Reached.places (h : Reached file d lx) : lx.Places file d := by
  induction h with
  | start => exact ⟨rfl, .start file, fun _ _ none => by cases none⟩
  | next _ ih => exact ih.next
  | peek _ ih => exact ih.peek

end Lexer

namespace TokenStream

variable {file : File} {d : Dialect}

theorem all_cons (tok : Token) (s : TokenStream) :
    ({ s with tokens := tok :: s.tokens } : TokenStream).all = tok :: s.all := by
  obtain ⟨toks, ending⟩ := s
  cases ending <;> rfl

/-- The tokens of a script lie in it, and what stops its scanning is placed. -/
theorem fits_scanFrom (fuel : Nat) {c : Cursor} (inside : c.In file) :
    (∀ tok ∈ (scanFrom file d fuel c).all, tok.Fits file 0) ∧
      ∀ e tok, (scanFrom file d fuel c).ending = .error e tok → e.Placed file := by
  induction fuel generalizing c with
  | zero =>
      refine ⟨fun tok mem => ?_, fun e tok same => by cases same⟩
      obtain rfl : tok = Scanner.tokenBetween file .eof [] 0 c c := by
        simpa [scanFrom, all] using mem
      exact Scanner.fits_tokenBetween inside .eof [] 0 (Nat.zero_le _)
  | succ fuel ih =>
      have gives := Scanner.gives_scan file d c
      obtain ⟨inside', fits, -⟩ := gives.fits inside
      have fits : (Scanner.scan file d c).1.token.Fits file 0 :=
        { fits with behind := Nat.zero_le _ }
      rw [scanFrom]
      split
      next token e c' scanned =>
        rw [scanned] at gives
        refine ⟨(fun tok mem => by cases mem), fun e' tok same => ?_⟩
        cases same
        exact gives.placed inside rfl
      next token c' scanned =>
        rw [scanned] at inside' fits
        split
        next =>
          refine ⟨fun tok mem => ?_, fun e' tok same => by cases same⟩
          obtain rfl : tok = token := by simpa [all] using mem
          exact fits
        next =>
          obtain ⟨all_fit, placed⟩ := ih inside'
          refine ⟨fun tok mem => ?_, placed⟩
          rw [all_cons, List.mem_cons] at mem
          rcases mem with rfl | mem
          · exact fits
          · exact all_fit tok mem

end TokenStream

/-! ### Compiling -/

/-- A fault at a token that satisfies `T`, or an error in `E` that scanning has met. -/
def Fault.Among (T : Token → Prop) (E : ScriptError → Prop) : Fault → Prop
  | .at _ tok => T tok
  | .scan e => E e

theorem Fault.Found.among {T : Token → Prop} {E : ScriptError → Prop} {e : Fault}
    (h : e.Found T E) : e.Among T E := by
  cases e with
  | «at» cause tok => exact h.2
  | scan e => exact h

theorem Context.declare_blocks (ctx : Context) (name : Text) :
    (ctx.declare name).2.blocks = ctx.blocks := by
  unfold declare
  dsimp only
  split <;> rfl

/-- The open blocks were opened by tokens that satisfy `T`, and warnings are given for such ones. -/
structure Workbench.Among (T : Token → Prop) (w : Workbench) : Prop where
  openers : ∀ block ∈ w.context.blocks, T block.opener
  warnings : ∀ d ∈ w.warnings, d.severity = .warning ∧ ∃ tok, T tok ∧ d.span = tok.span

/-- A step of compiling that finds fault with tokens of the script only. -/
abbrev Compile.Among {α : Type} (T : Token → Prop) (E : ScriptError → Prop) (R : α → Prop)
    (x : Compile α) : Prop :=
  Keeps (Workbench.Among T) (Fault.Among T E) R x

namespace Compile.Among

variable {T : Token → Prop} {E : ScriptError → Prop} {α : Type}

/-- Steps whose value does not matter. -/
abbrev Plain (T : Token → Prop) (E : ScriptError → Prop) (x : Compile α) : Prop :=
  Compile.Among T E (fun _ => True) x

theorem done (a : α) : Plain T E (pure a : Compile α) := Keeps.pure trivial

theorem fault {R : α → Prop} {tok : Token} (mine : T tok) (cause : Cause) :
    Compile.Among T E R (throw (.at cause tok) : Compile α) :=
  .throw mine

theorem modifyContext {f : Context → Context}
    (openers : ∀ ctx, (∀ block ∈ ctx.blocks, T block.opener) →
      ∀ block ∈ (f ctx).blocks, T block.opener) : Plain T E (Compile.modifyContext f) :=
  Keeps.modifyState fun w among => ⟨openers w.context among.openers, among.warnings⟩

/-- A change of the context that leaves the open blocks alone. -/
theorem sameBlocks {f : Context → Context} (same : ∀ ctx, (f ctx).blocks = ctx.blocks) :
    Plain T E (Compile.modifyContext f) :=
  modifyContext fun ctx openers block mem => openers block (by rwa [same] at mem)

theorem warn (code : Code) {tok : Token} (mine : T tok) (message : Text) :
    Plain T E (Compile.warn code tok message) := by
  refine Keeps.modifyState fun w among => ⟨among.openers, fun d mem => ?_⟩
  rcases List.mem_append.1 mem with mem | mem
  · exact among.warnings d mem
  · obtain rfl := List.mem_singleton.1 mem
    exact ⟨rfl, tok, mine, rfl⟩

theorem require {r : Except Fault α} (faults : ∀ e, r = .error e → e.Among T E) :
    Plain T E (Compile.require r) := by
  cases r with
  | ok a => exact done a
  | error e => exact Keeps.throw (faults e rfl)

/-- A reader that stays among the tokens of its line does so for the compiler. -/
theorem read {R : α → Prop} {line : Line} (within : line.Among T E) {part : Read α}
    (reads : Read.Among T E R part) :
    Compile.Among T E (fun result => R result.1 ∧ result.2.Among T E) (Compile.read line part) := by
  refine Keeps.get.bind fun w _ => ?_
  obtain ⟨rest, values, faults⟩ := reads ⟨line, w.context.parens⟩ within
  cases ended : outcome part ⟨line, w.context.parens⟩ with
  | mk result reading =>
      rw [ended] at rest values faults
      simp only [show part.run.run _ = _ from ended]
      refine Keeps.bind (sameBlocks fun _ => rfl) fun _ _ => ?_
      cases result with
      | ok a => exact Keeps.pure ⟨values a rfl, rest⟩
      | error e => exact Keeps.throw (faults e rfl).among

theorem build {last : Token} (mine : T last) (call : Builder.Call) :
    Plain T E (Compile.build last call) := by
  refine Keeps.get.bind fun w _ => ?_
  refine (Keeps.modifyState fun w among => ⟨among.openers, among.warnings⟩).bind fun _ _ => ?_
  split
  · exact done _
  · exact fault mine _

theorem declareNames {toks : List Token} (mine : ∀ tok ∈ toks, T tok) :
    Plain T E (Compile.declareNames toks) := by
  induction toks with
  | nil => exact done _
  | cons tok toks ih =>
      obtain ⟨first, others⟩ := List.forall_mem_cons.1 mine
      refine Keeps.get.bind fun w among => ?_
      have same := Context.declare_blocks w.context tok.text
      refine Keeps.bind (Keeps.modifyState fun w' among' => ⟨?_, among'.warnings⟩) fun _ _ => ?_
      · intro block mem
        exact among.openers block (same ▸ mem)
      · exact Keeps.optional (warn _ first _) (ih others)

theorem checkCounter {c : Command} (names : c.Names T) : Plain T E (Compile.checkCounter c) := by
  unfold Compile.checkCounter
  split
  next tok => exact Keeps.get.bind fun w _ => Keeps.ite (done _) (warn _ names _)
  next => exact done _

theorem perform {first last : Token} (mine : T first) (lastMine : T last) {c : Command}
    (names : c.Names T) : Plain T E (Compile.perform first last c) := by
  have push {f : Context → Context} (block : OpenConstruct) (opener : T block.opener)
      (pushes : ∀ ctx, (f ctx).blocks = block :: ctx.blocks) :
      Plain T E (Compile.modifyContext f) := by
    refine modifyContext fun ctx openers block' mem => ?_
    rw [pushes, List.mem_cons] at mem
    rcases mem with rfl | mem
    · exact opener
    · exact openers block' mem
  have pop {f : Context → Context} (pops : ∀ ctx, (f ctx).blocks = ctx.blocks.tail) :
      Plain T E (Compile.modifyContext f) :=
    modifyContext fun ctx openers block mem =>
      openers block (List.mem_of_mem_tail (pops ctx ▸ mem))
  have call (c : Builder.Call) : Plain T E (Compile.build last c) := build lastMine c
  cases c with
  | assign | finish | say | print | property =>
      rw [Compile.perform]
      exact call _
  | parameters toks =>
      refine Keeps.bind (sameBlocks fun ctx => ?_) fun _ _ => call _
      obtain ⟨declared, same⟩ := Context.foldl_declare_eq toks
        { ctx with hasParameters := true, seenStatement := true }
      rw [same]
  | declare toks => exact (declareNames names).bind fun _ _ => call _
  | beginIf =>
      exact Keeps.bind (push { construct := .ifBlock, opener := first } mine fun _ => rfl)
        fun _ _ => call _
  | beginFor counter =>
      exact Keeps.bind
        (push { construct := .forBlock, opener := first, counter := counter.text } mine
          fun _ => rfl)
        fun _ _ => call _
  | beginWhile =>
      exact Keeps.bind (push { construct := .doBlock, opener := first } mine fun _ => rfl)
        fun _ _ => call _
  | elseWord =>
      refine Keeps.bind (modifyContext fun ctx openers block mem => ?_) fun _ _ => call _
      unfold Context.markElse at mem
      split at mem
      next head blocks whole =>
        rw [whole] at openers
        rcases List.mem_cons.1 mem with rfl | mem
        · exact openers head (by simp)
        · exact openers block (by simp [mem])
      next => cases mem
  | endIf => exact Keeps.bind (pop fun _ => rfl) fun _ _ => call _
  | endFor => exact Keeps.bind (pop fun _ => rfl) fun _ _ => call _
  | endWhile => exact Keeps.bind (pop fun _ => rfl) fun _ _ => call _
  | setColor =>
      exact Keeps.get.bind fun w _ => Keeps.bind (sameBlocks fun _ => rfl) fun _ _ => call _
  | beginClass name base oneLine =>
      refine (call _).bind fun _ _ => Keeps.ite (call _) ?_
      exact push { construct := .classBlock, opener := first } mine fun _ => rfl
  | endClass => exact Keeps.bind (pop fun _ => rfl) fun _ _ => call _

theorem statement {first : Token} {line : Line} (within : line.Among T E) (mine : T first) :
    Plain T E (Compile.statement first line) := by
  have last : T (line.tokens.getLast?.getD first) := by
    cases ends : line.tokens.getLast? with
    | none => exact mine
    | some tok => exact within.tokens tok (List.mem_of_getLast? ends)
  refine Keeps.get.bind fun w _ => ?_
  refine Keeps.optional (R := fun _ => True) (fault mine _) ?_
  refine Keeps.optional (sameBlocks fun _ => rfl) ?_
  refine (require fun e failed => (Context.found_admits mine failed).among).bind fun _ _ => ?_
  refine (read within Read.Among.command).bind fun result among => ?_
  refine (checkCounter among.1).bind fun _ _ => ?_
  refine (read among.2 Read.Among.expectEnd).discard.bind fun _ _ => ?_
  refine (perform mine last among.1).bind fun _ _ => ?_
  exact Keeps.get.bind fun w _ => sameBlocks fun _ => rfl

theorem finish {eof : Token} (mine : T eof) : Plain T E (Compile.finish eof) := by
  refine Keeps.get.bind fun w among => ?_
  split
  next block blocks whole => exact fault (among.openers block (by simp [whole])) _
  next =>
    refine Keeps.optional (R := fun _ => True) (fault mine _) ?_
    split
    · exact fault mine _
    · refine Keeps.bind (R := fun _ => True) (.of_ok fun _ _ => ?_) fun _ _ => done _
      exact ⟨(), _, rfl, ⟨among.openers, among.warnings⟩, trivial⟩

theorem content {line : Line} (within : line.Among T E) : Plain T E (Compile.content line) := by
  unfold Compile.content
  split
  next => exact done ()
  next first more whole => exact statement within (within.tokens first (by simp [whole]))

/-- A line is compiled, and then the end of the script or the lines behind it. -/
theorem script_line {toks : List Token} {stop : Token} {lines : List Line}
    (within : Line.Among T E ⟨toks, .token stop⟩)
    (rest : stop.kind ≠ .eof → Plain T E (Compile.script lines)) :
    Plain T E (Compile.script (⟨toks, .token stop⟩ :: lines)) := by
  have whole : Plain T E (do
      Compile.content ⟨toks, .token stop⟩
      if stop.kind = .eof then Compile.finish stop else Compile.script lines) := by
    refine (content within).bind fun _ _ => ?_
    split
    next => exact finish (within.ending stop rfl)
    next goesOn => exact rest goesOn
  intro w
  rw [Compile.outcome_script_line]
  exact whole w

theorem script_error {toks : List Token} {e : ScriptError} {lines : List Line}
    (within : Line.Among T E ⟨toks, .error e⟩) :
    Plain T E (Compile.script (⟨toks, .error e⟩ :: lines)) := by
  intro w
  rw [Compile.outcome_script_error]
  have stops : Plain T E (throw (.scan e) : Compile Compiled) := Keeps.throw (within.error e rfl)
  exact (content within).bind (fun _ _ => stops) w

/-- A script is compiled among its tokens. -/
theorem script {toks : List Token} {ending : LineEnd} (mine : ∀ tok ∈ toks, T tok)
    (last : ∀ tok, ending = .token tok → T tok ∧ tok.kind = .eof)
    (error : ∀ e, ending = .error e → E e) :
    Plain T E (Compile.script (Line.ofTokens ending toks)) := by
  rcases line_cases toks with single | ⟨line, stop, rest, rfl, newline, single⟩
  · have within : Line.Among T E ⟨toks, ending⟩ := ⟨mine, fun tok same => (last tok same).1, error⟩
    rw [Line.ofTokens_last single]
    cases ending with
    | error e => exact script_error within
    | token eof => exact script_line within fun goesOn => absurd (last eof rfl).2 goesOn
  · have within : Line.Among T E ⟨line, .token stop⟩ := by
      refine ⟨fun tok mem => mine tok (by simp [mem]), fun tok same => ?_,
        fun e same => by cases same⟩
      cases same
      exact mine stop (by simp)
    rw [Line.ofTokens_line single newline]
    exact script_line within fun _ => script (fun tok mem => mine tok (by simp [mem])) last error
termination_by toks.length

end Compile.Among

/-! ### Scripts -/

theorem LineEnd.ofEnding_eq_token {ending : Ending} {tok : Token}
    (h : LineEnd.ofEnding ending = .token tok) : ending = .eof tok := by
  cases ending with
  | eof tok' => cases h; rfl
  | error e tok' => cases h

theorem LineEnd.ofEnding_eq_error {ending : Ending} {e : ScriptError}
    (h : LineEnd.ofEnding ending = .error e) : ∃ tok, ending = .error e tok := by
  cases ending with
  | eof tok => cases h
  | error e' tok => cases h; exact ⟨tok, rfl⟩

theorem TokenStream.mem_all {s : TokenStream} {tok : Token}
    (h : tok ∈ s.tokens ∨ s.ending = .eof tok) : tok ∈ s.all := by
  unfold all
  rcases h with mem | ends
  · split
    · exact List.mem_append_left _ mem
    · exact mem
  · rw [ends]
    simp

variable {file : File}

theorem TokenStream.fits_ofFile {d : Dialect} {tok : Token} (mem : tok ∈ (ofFile file d).all) :
    tok.Fits file 0 :=
  (fits_scanFrom _ (.start file)).1 tok mem

theorem TokenStream.placed_ofFile {d : Dialect} {e : ScriptError} {tok : Token}
    (failed : (ofFile file d).ending = .error e tok) : e.Placed file :=
  (fits_scanFrom _ (.start file)).2 e tok failed

/-- A fault among the tokens of a script is placed in it. -/
theorem Fault.Among.placed {d : Dialect} {fault : Fault}
    (h : fault.Among (· ∈ (TokenStream.ofFile file d).all) (ScriptError.Placed file)) :
    (fault.error file.path).Placed file := by
  cases fault with
  | «at» cause tok => exact (TokenStream.fits_ofFile h).placed cause
  | scan e => exact h

/-- Compiling a script stays among its tokens and the error that stops its scanning. -/
theorem among_freshRun (file : File) (name : Text) :
    (freshRun file name).2.Among (· ∈ (TokenStream.ofFile file .dbase).all) ∧
      ∀ e, (freshRun file name).1 = .error e →
        e.Among (· ∈ (TokenStream.ofFile file .dbase).all) (ScriptError.Placed file) := by
  have stays : Compile.Among.Plain (· ∈ (TokenStream.ofFile file .dbase).all)
      (ScriptError.Placed file) (Compile.script (Line.ofStream (.ofFile file .dbase))) := by
    refine @Compile.Among.script _ _ _ (.ofEnding (TokenStream.ofFile file .dbase).ending)
      (fun tok mem => TokenStream.mem_all (.inl mem)) (fun tok same => ⟨?_, ?_⟩) fun e same => ?_
    · exact TokenStream.mem_all (.inr (LineEnd.ofEnding_eq_token same))
    · exact LineEnd.kind_ofEnding tok same
    · obtain ⟨tok, ends⟩ := LineEnd.ofEnding_eq_error same
      exact TokenStream.placed_ofFile ends
  obtain ⟨among, -, faults⟩ := stays { context := {}, builder := .start (programName file name) }
    ⟨(fun block mem => by cases mem), fun d mem => by cases mem⟩
  exact ⟨among, faults⟩

theorem ScriptError.placed_noStatementsError (file : File) (d : Dialect) :
    (noStatementsError file d).Placed file :=
  ⟨rfl, rfl, Nat.le_refl 0, Nat.zero_le _, (Cursor.In.start file).lineCol⟩

/-- What fails to compile is placed in the script, and the context is marked. -/
theorem placed_compileIn {d : Dialect} {name : Text} {e : ScriptError}
    (failed : (compileIn file d name {}).result = .error e) :
    e.Placed file ∧ (d = .dbase → (compileIn file d name {}).context.failed = true) := by
  by_cases isDbase : d = .dbase
  · subst isDbase
    obtain ⟨-, faults⟩ := among_freshRun file name
    rw [compileIn_eq] at failed ⊢
    cases ended : freshRun file name with
    | mk result w =>
        rw [ended] at faults
        rw [show outcome _ _ = _ from ended] at failed ⊢
        cases result with
        | ok compiled => cases failed
        | error fault =>
            cases failed
            exact ⟨(faults fault rfl).placed, fun _ => rfl⟩
  · rw [compileIn, if_neg isDbase] at failed
    cases failed
    exact ⟨ScriptError.placed_noStatementsError file d, fun isDbase' => absurd isDbase' isDbase⟩

/-- What is found in a script before its compilation ends is warnings, given for its tokens. -/
theorem warns_of_mem_warnings {d : Dialect} {name : Text} {w : Diagnostic}
    (mem : w ∈ (compileIn file d name {}).warnings) :
    w.severity = .warning ∧ ∃ tok ∈ (TokenStream.ofFile file d).all, w.span = tok.span := by
  by_cases isDbase : d = .dbase
  · subst isDbase
    obtain ⟨among, -⟩ := among_freshRun file name
    rw [compileIn_eq] at mem
    cases ended : freshRun file name with
    | mk result bench =>
        rw [ended] at among
        rw [show outcome _ _ = _ from ended] at mem
        cases result <;> exact among.warnings w mem
  · rw [compileIn, if_neg isDbase] at mem
    cases mem

theorem span_of_mem_warnings {d : Dialect} {name : Text} {w : Diagnostic}
    (mem : w ∈ (compileIn file d name {}).warnings) :
    ∃ tok ∈ (TokenStream.ofFile file d).all, w.span = tok.span :=
  (warns_of_mem_warnings mem).2

theorem severity_of_mem_warnings (file : File) (name : Text) :
    ∀ d ∈ (compileIn file .dbase name {}).warnings, d.severity = .warning :=
  fun _ mem => (warns_of_mem_warnings mem).1

/-- Every error of a script stands where it says: the errors of scanning, whatever calls have led
to them, and those of compiling, which leave no program and mark the context. Warnings stand at
tokens of the script. -/
theorem errors_placed (file : File) (d : Dialect) (name : Text) :
    (∀ lx, Lexer.Reached file d lx → ∀ e, lx.next.1.error = some e → e.Placed file) ∧
    (∀ e, (compileIn file d name {}).result = .error e →
      e.Placed file ∧ (d = .dbase → (compileIn file d name {}).context.failed = true)) ∧
    ∀ w ∈ (compileIn file d name {}).warnings,
      ∃ tok ∈ (TokenStream.ofFile file d).all, w.span = tok.span :=
  ⟨fun _ reached _ => reached.places.error_next, fun _ => placed_compileIn,
    fun _ => span_of_mem_warnings⟩

/-- A variable declared twice, and a branch that is open at the end: the warning stands at the
second declaration, the error at the word that opened the branch. -/
theorem errors_placed_unclosed :
    let file : File := ⟨4, "demo.prg", "LOCAL a, a\n  IF a\n?", 0⟩
    let e : ScriptError :=
      { cause := .notClosed .ifBlock 2, file := "demo.prg", line := 2, col := 3,
        span := ⟨4, 13, 15⟩ }
    (compileIn file .dbase [] {}).result = .error e ∧ e.Placed file ∧
      (compileIn file .dbase [] {}).context.failed = true ∧
      (compileIn file .dbase [] {}).warnings.map (·.span) = [⟨4, 9, 10⟩] ∧
      ∀ w ∈ (compileIn file .dbase [] {}).warnings,
        ∃ tok ∈ (TokenStream.ofFile file .dbase).all, w.span = tok.span := by
  intro file e
  have failed : (compileIn file .dbase [] {}).result = .error e := by decide +kernel
  obtain ⟨-, placed, spans⟩ := errors_placed file .dbase []
  exact ⟨failed, (placed e failed).1, (placed e failed).2 rfl, by decide +kernel, spans⟩

end PrgScript
