import PrgScript.Proofs.Builder
import PrgScript.Proofs.Phrase
import PrgScript.Script.Compile

/-!
# What a statement does

A statement line that ends well has done two things: it has changed the context
by a function of its command, and it has made certain calls to the builder, all
of which succeeded. `statement_of_phrase` and `statement_inv` say so in the two
directions; nothing later looks into the steps of a line again.

A script is its lines one after the other. `Runs` is the run of some whole
lines from one state between statements to another, and `script_eq_ok_iff` ties
it to the compilation of a token sequence.
-/

namespace PrgScript

open Step Grammar

/-! ### Parts of a statement -/

namespace Compile

variable {α : Type} {w w' : Workbench}

def withParens (n : Int) (w : Workbench) : Workbench :=
  { w with context := { w.context with parens := n } }

theorem outcome_read_of_ok {line : Line} {part : Read α} {a : α} {r : Reading}
    (h : outcome part ⟨line, w.context.parens⟩ = (.ok a, r)) :
    outcome (read line part) w = (.ok (a, r.line), withParens r.parens w) := by
  have ran : part.run.run ⟨line, w.context.parens⟩ = (.ok a, r) := h
  simp [read, outcome_bind, outcome_map, ran, modifyContext, withParens]

theorem outcome_read_of_error {line : Line} {part : Read α} {e : Fault} {r : Reading}
    (h : outcome part ⟨line, w.context.parens⟩ = (.error e, r)) :
    outcome (read line part) w = (.error e, withParens r.parens w) := by
  have ran : part.run.run ⟨line, w.context.parens⟩ = (.error e, r) := h
  simp [read, outcome_bind, ran, modifyContext, withParens]

theorem read_inv {line line' : Line} {part : Read α} {a : α}
    (h : outcome (read line part) w = (.ok (a, line'), w')) :
    ∃ n, outcome part ⟨line, w.context.parens⟩ = (.ok a, ⟨line', n⟩) ∧ w' = withParens n w := by
  cases ran : outcome part ⟨line, w.context.parens⟩ with
  | mk result r =>
      cases result with
      | error e => rw [outcome_read_of_error ran] at h; cases h
      | ok b =>
          rw [outcome_read_of_ok ran] at h
          cases h
          exact ⟨r.parens, rfl, rfl⟩

theorem outcome_build_of_ok {call : Builder.Call} {b : Builder} (last : Token)
    (h : w.builder.call call = (.ok (), b)) :
    outcome (build last call) w = (.ok (), { w with builder := b }) := by
  simp [build, outcome_bind, h]

theorem build_inv {call : Builder.Call} {last : Token}
    (h : outcome (build last call) w = (.ok (), w')) :
    w.builder.call call = (.ok (), w'.builder) ∧ w' = { w with builder := w'.builder } := by
  cases called : w.builder.call call with
  | mk result b =>
      cases result with
      | error e => simp [build, outcome_bind, called] at h
      | ok u =>
          rw [outcome_build_of_ok last called] at h
          cases h
          exact ⟨rfl, rfl⟩

@[simp] theorem outcome_modifyContext (f : Context → Context) :
    outcome (modifyContext f) w = (.ok (), { w with context := f w.context }) := rfl

/-- The warnings for names that were declared before, when they are declared in order. -/
def redeclared (ctx : Context) : List Token → List Diagnostic
  | [] => []
  | tok :: names =>
    let (isNew, ctx) := ctx.declare tok.text
    (if isNew then []
      else [⟨.warning, .localRedeclared, tok.text ++ " is already declared", tok.span⟩]) ++
        redeclared ctx names

theorem outcome_declareNames (names : List Token) (w : Workbench) :
    outcome (declareNames names) w =
      (.ok (), { w with
        context := names.foldl (fun ctx tok => (ctx.declare tok.text).2) w.context
        warnings := w.warnings ++ redeclared w.context names }) := by
  induction names generalizing w with
  | nil => rw [redeclared, List.append_nil]; rfl
  | cons tok names ih =>
      cases isNew : (w.context.declare tok.text).1 <;>
        simp [declareNames, outcome_bind, isNew, warn, ih, redeclared]

/-- The warning for an end of a loop that names another variable than the innermost loop counts. -/
def mismatched (blocks : List OpenConstruct) : Command → List Diagnostic
  | .endFor (some tok) =>
    let counter := (blocks.head?.map (·.counter)).getD []
    if Text.sameFold tok.text counter then []
    else [⟨.warning, .nextVarMismatch, "NEXT " ++ tok.text ++ " closes FOR " ++ counter, tok.span⟩]
  | _ => []

theorem outcome_checkCounter (c : Command) (w : Workbench) :
    outcome (checkCounter c) w =
      (.ok (), { w with warnings := w.warnings ++ mismatched w.context.blocks c }) := by
  have quiet : outcome (pure () : Compile Unit) w =
      (.ok (), { w with warnings := w.warnings ++ [] }) := by
    rw [List.append_nil]
    rfl
  cases c with
  | endFor named =>
      cases named with
      | none => exact quiet
      | some tok =>
          rw [checkCounter, mismatched, outcome_bind_of_ok (outcome_get w)]
          dsimp only
          split
          · exact quiet
          · rfl
  | _ => exact quiet

end Compile

/-! ### Commands -/

namespace Command

/-- The calls that a command makes, given its first token and the colours in effect. -/
def calls (first : Token) (colors : ColorPair) : Command → List Builder.Call
  | .parameters names => [.setParams (names.map (·.text))]
  | .declare names => [.declare (names.map (·.text)) first.line]
  | .assign name value => [.assign name.text value name.line]
  | .beginIf condition => [.beginIf condition first.line]
  | .elseWord => [.beginElse]
  | .endIf => [.endIf]
  | .beginFor counter start limit step =>
    [.beginFor counter.text start limit step first.line]
  | .endFor _ => [.endFor]
  | .beginWhile condition => [.beginWhile condition first.line]
  | .endWhile => [.endWhile]
  | .finish => [.finishScript first.line]
  | .setColor choice => [.setColor (Compile.chosen colors choice) first.line]
  | .say row col value => [.say row col value first.line]
  | .print values newline => [.print values newline first.line]
  | .beginClass name base oneLine =>
    .beginClass name.text base first.line :: if oneLine then [.endClass] else []
  | .property name value => [.classProperty (Text.lower name.text) value first.line]
  | .endClass => [.endClass]

def enter (first : Token) (ctx : Context) : Command → Context
  | .parameters names =>
    names.foldl (fun ctx tok => (ctx.declare tok.text).2)
      { ctx with hasParameters := true, seenStatement := true }
  | .declare names => names.foldl (fun ctx tok => (ctx.declare tok.text).2) ctx
  | .beginIf _ =>
    { ctx with ifCount := Number.wrap (ctx.ifCount + 1) }.push
      { construct := .ifBlock, opener := first }
  | .elseWord => ctx.markElse
  | .endIf => { ctx with endifCount := Number.wrap (ctx.endifCount + 1) }.pop
  | .beginFor counter _ _ _ =>
    { ctx with forDepth := Number.wrap (ctx.forDepth + 1) }.push
      { construct := .forBlock, opener := first, counter := counter.text }
  | .endFor _ => { ctx with forDepth := Number.wrap (ctx.forDepth - 1) }.pop
  | .beginWhile _ =>
    { ctx with doDepth := Number.wrap (ctx.doDepth + 1) }.push
      { construct := .doBlock, opener := first }
  | .endWhile => { ctx with doDepth := Number.wrap (ctx.doDepth - 1) }.pop
  | .setColor choice => { ctx with colors := Compile.chosen ctx.colors choice }
  | .beginClass _ _ oneLine =>
    if oneLine then ctx else ctx.push { construct := .classBlock, opener := first }
  | .endClass => ctx.pop
  | .assign .. | .finish | .say .. | .print .. | .property .. => ctx

def redeclared (ctx : Context) : Command → List Diagnostic
  | .declare names => Compile.redeclared ctx names
  | _ => []

end Command

namespace Compile

open Builder

theorem outcome_build {call : Call} {w : Workbench} {b : Builder} (last : Token)
    (performs : Performs w.builder [call] b) :
    outcome (build last call) w = (.ok (), { w with builder := b }) :=
  outcome_build_of_ok last performs.single_inv

theorem performs_of_build {call : Call} {last : Token} {w w' : Workbench}
    (h : outcome (build last call) w = (.ok (), w')) :
    w'.context = w.context ∧ Performs w.builder [call] w'.builder := by
  obtain ⟨called, same⟩ := build_inv h
  exact ⟨by rw [same], .single called⟩

theorem performs_of_modify_build {call : Call} {last : Token} {f : Context → Context}
    {w w' : Workbench} (h : outcome (do modifyContext f; build last call) w = (.ok (), w')) :
    w'.context = f w.context ∧ Performs w.builder [call] w'.builder := by
  rw [outcome_bind_of_ok (outcome_modifyContext f)] at h
  exact performs_of_build h

/-- A command whose calls succeed is carried out. -/
theorem outcome_perform {first : Token} {c : Command} {w : Workbench} {b : Builder}
    (last : Token) (performs : Performs w.builder (c.calls first w.context.colors) b) :
    outcome (perform first last c) w =
      (.ok (), ⟨c.enter first w.context, b, w.warnings ++ c.redeclared w.context⟩) := by
  have single {call : Call} (f : Context → Context) (h : Performs w.builder [call] b) :
      outcome (do modifyContext f; build last call) w =
        (.ok (), ⟨f w.context, b, w.warnings ++ []⟩) := by
    rw [outcome_bind_of_ok (outcome_modifyContext f), List.append_nil]
    exact outcome_build (w := { w with context := f w.context }) last h
  have alone {call : Call} (h : Performs w.builder [call] b) :
      outcome (build last call) w = (.ok (), ⟨w.context, b, w.warnings ++ []⟩) := by
    rw [List.append_nil]
    exact outcome_build last h
  cases c with
  | parameters | beginIf | elseWord | endIf | beginFor | endFor | beginWhile | endWhile
  | endClass =>
      rw [Command.calls] at performs
      rw [perform, Command.enter]
      exact single _ performs
  | assign | finish | say | print | property =>
      rw [Command.calls] at performs
      rw [perform, Command.enter]
      exact alone performs
  | setColor choice =>
      rw [Command.calls] at performs
      rw [perform, Command.enter, outcome_bind_of_ok (outcome_get w)]
      exact single _ performs
  | declare names =>
      rw [Command.calls] at performs
      rw [perform, Command.enter, outcome_bind_of_ok (outcome_declareNames names w)]
      exact outcome_build last performs
  | beginClass name base oneLine =>
      rw [Command.calls] at performs
      rw [Command.enter, Command.redeclared.eq_2 _ _ (by rintro _ ⟨⟩), List.append_nil]
      cases performs with
      | cons opened rest =>
          rw [perform, outcome_bind_of_ok (outcome_build_of_ok last opened)]
          cases oneLine with
          | true =>
              simp only [if_true] at rest ⊢
              exact outcome_build last rest
          | false =>
              cases rest
              rfl

theorem perform_inv {first last : Token} {c : Command} {w w' : Workbench}
    (h : outcome (perform first last c) w = (.ok (), w')) :
    w'.context = c.enter first w.context ∧
      Performs w.builder (c.calls first w.context.colors) w'.builder := by
  cases c with
  | parameters | beginIf | elseWord | endIf | beginFor | endFor | beginWhile | endWhile
  | endClass =>
      rw [perform] at h
      rw [Command.calls, Command.enter]
      exact performs_of_modify_build h
  | assign | finish | say | print | property =>
      rw [perform] at h
      rw [Command.calls, Command.enter]
      exact performs_of_build h
  | setColor choice =>
      rw [perform, outcome_bind_of_ok (outcome_get w)] at h
      rw [Command.calls, Command.enter]
      exact performs_of_modify_build h
  | declare names =>
      rw [perform, outcome_bind_of_ok (outcome_declareNames names w)] at h
      rw [Command.calls, Command.enter]
      exact performs_of_build h
  | beginClass name base oneLine =>
      rw [perform] at h
      rw [Command.calls, Command.enter]
      obtain ⟨_, w₁, opened, h⟩ := outcome_bind_eq_ok.1 h
      obtain ⟨opened, same⟩ := build_inv opened
      cases oneLine with
      | true =>
          simp only [if_true] at h ⊢
          obtain ⟨context, closed⟩ := performs_of_build h
          exact ⟨by rw [context, same], .cons opened closed⟩
      | false =>
          cases h
          exact ⟨by rw [same]; rfl, .single opened⟩

end Compile

/-! ### Statement lines -/

namespace Context

/-- The statements that may stand in a context: a class holds only what belongs in it, and a word
must find the block it needs. -/
structure Admits (ctx : Context) (first : Token) : Prop where
  inClass : ctx.inClass = true → belongsInClass first = true
  placed : ctx.admits first = .ok ()

/-- The context after the tokens of a line have been read. Every statement but a parameter list
is remembered at once. -/
def afterTokens (ctx : Context) (first : Token) (toks : List Token) : Context :=
  { ctx with
    seenStatement := if first.kind = .keyword .kwParameter then ctx.seenStatement else true
    parens := parensAfter ctx.parens toks }

end Context

namespace Compile

open Builder

/-- What a statement line that ends well has done. -/
structure Does (w : Workbench) (first : Token) (toks : List Token) (c : Command)
    (w' : Workbench) : Prop where
  admits : w.context.Admits first
  phrase : Phrase toks c
  performs : Performs w.builder (c.calls first w.context.colors) w'.builder
  context :
    w'.context =
      (c.enter first (w.context.afterTokens first toks)).setIndent w'.builder.depth
  warnings :
    w'.warnings = w.warnings ++ (mismatched w.context.blocks c ++
      c.redeclared (w.context.afterTokens first toks))

/-- What a statement does once the context has admitted it. -/
def body (first : Token) (line : Line) : Compile Unit := do
  let (command, rest) ← read line Read.command
  checkCounter command
  discard (read rest Read.expectEnd)
  perform first (line.tokens.getLast?.getD first) command
  modifyContext (·.setIndent (← get).builder.depth)

theorem outcome_require_ok (u : Unit) (w : Workbench) :
    outcome (require (.ok u)) w = (.ok u, w) := rfl

theorem outcome_require_error (e : Fault) (w : Workbench) :
    outcome (require (.error e) : Compile Unit) w = (.error e, w) := rfl

/-- A statement asks the context first. -/
theorem outcome_statement (first : Token) (line : Line) (w : Workbench) :
    outcome (statement first line) w =
      if w.context.inClass ∧ !Context.belongsInClass first then
        (.error (.at (.notInClass first.describe) first), w)
      else
        match w.context.admits first with
        | .error e => (.error e, { w with context := w.context.afterTokens first [] })
        | .ok _ =>
            outcome (body first line) { w with context := w.context.afterTokens first [] } := by
  rw [statement, outcome_bind_of_ok (outcome_get w)]
  dsimp only
  by_cases outside : w.context.inClass = true ∧ (!Context.belongsInClass first) = true
  · rw [if_pos outside, if_pos outside]
    exact outcome_bind_of_error (outcome_throw _ w)
  · rw [if_neg outside, if_neg outside]
    by_cases parameter : first.kind = .keyword .kwParameter
    · have same : w.context.afterTokens first [] = w.context := by
        simp [Context.afterTokens, parameter]
      simp only [parameter, ne_eq, not_true_eq_false, if_false, same]
      cases w.context.admits first with
      | error e => rw [outcome_bind_of_error (outcome_require_error e w)]
      | ok u => exact outcome_bind_of_ok (outcome_require_ok u w)
    · have same : w.context.afterTokens first [] = { w.context with seenStatement := true } := by
        simp [Context.afterTokens, parameter]
      simp only [parameter, ne_eq, not_false_eq_true, if_true, same]
      rw [outcome_bind_of_ok (outcome_modifyContext _)]
      cases w.context.admits first with
      | error e => rw [outcome_bind_of_error (outcome_require_error e _)]
      | ok u => exact outcome_bind_of_ok (outcome_require_ok u _)

variable {first stop : Token} {toks : List Token} {line : Line} {ending : LineEnd} {c : Command}
  {w w' : Workbench}

theorem admits_of_statement (ran : outcome (statement first line) w = (.ok (), w')) :
    w.context.Admits first ∧
      outcome (body first line) { w with context := w.context.afterTokens first [] } =
        (.ok (), w') := by
  rw [outcome_statement] at ran
  split at ran
  · cases ran
  next inside =>
    cases placed : w.context.admits first with
    | error e =>
        rw [placed] at ran
        cases ran
    | ok u =>
        rw [placed] at ran
        exact ⟨⟨by simpa using inside, placed⟩, ran⟩

/-- A phrase whose calls succeed is carried out. -/
theorem body_of_phrase {b : Builder} (ends : stop.kind.isEnd = true) (phrase : Phrase toks c)
    (performs : Performs w.builder (c.calls first w.context.colors) b) :
    let ctx := { w.context with parens := parensAfter w.context.parens toks }
    outcome (body first ⟨toks, .token stop⟩) w =
      (.ok (), ⟨(c.enter first ctx).setIndent b.depth, b,
        w.warnings ++ (mismatched ctx.blocks c ++ c.redeclared ctx)⟩) := by
  intro ctx
  have readCommand : outcome (read ⟨toks, .token stop⟩ Read.command) w =
      (.ok (c, ⟨[], .token stop⟩), { w with context := ctx }) :=
    outcome_read_of_ok (Read.outcome_command ends phrase w.context.parens)
  have checked := outcome_checkCounter c { w with context := ctx }
  generalize warned : w.warnings ++ mismatched ctx.blocks c = warnings at checked
  have readEnd : outcome (read ⟨[], .token stop⟩ Read.expectEnd) ⟨ctx, w.builder, warnings⟩ =
      (.ok ((), ⟨[], .token stop⟩), ⟨ctx, w.builder, warnings⟩) :=
    outcome_read_of_ok (w := ⟨ctx, w.builder, warnings⟩) (Read.outcome_expectEnd ends ctx.parens)
  have performed :=
    outcome_perform (w := ⟨ctx, w.builder, warnings⟩) (toks.getLast?.getD first) performs
  rw [body, outcome_bind_of_ok readCommand]
  dsimp only
  rw [outcome_bind_of_ok checked, outcome_bind_of_ok (outcome_discard_of_ok readEnd),
    outcome_bind_of_ok performed, outcome_bind_of_ok (outcome_get _), outcome_modifyContext,
    ← List.append_assoc, warned]

theorem body_inv (inside : ∀ tok ∈ toks, tok.kind.isEnd = false) (ends : ending.Closes)
    (ran : outcome (body first ⟨toks, ending⟩) w = (.ok (), w')) :
    (∃ stop, ending = .token stop) ∧ ∃ c, Phrase toks c ∧
      Performs w.builder (c.calls first w.context.colors) w'.builder := by
  obtain ⟨⟨c, rest⟩, w₁, readCommand, ran⟩ := outcome_bind_eq_ok.1 ran
  obtain ⟨n, ranCommand, rfl⟩ := read_inv readCommand
  obtain ⟨_, w₂, checked, ran⟩ := outcome_bind_eq_ok.1 ran
  rw [outcome_checkCounter] at checked
  cases checked
  obtain ⟨_, w₃, readEnd, ran⟩ := outcome_bind_eq_ok.1 ran
  obtain ⟨⟨_, line⟩, readEnd, -⟩ := outcome_map_eq_ok.1 readEnd
  obtain ⟨n', ranEnd, rfl⟩ := read_inv readEnd
  obtain ⟨phrase, stop⟩ := Read.phrase_of_outcome inside ends ranCommand ranEnd
  obtain ⟨_, w₄, performed, ran⟩ := outcome_bind_eq_ok.1 ran
  obtain ⟨-, performs⟩ := perform_inv performed
  cases ran
  exact ⟨stop, c, phrase, performs⟩

/-- A line that fails cannot be read as a command up to its end, or has been. -/
theorem body_error_cases {e : Fault}
    (failed : outcome (body first ⟨toks, ending⟩) w = (.error e, w')) :
    (∃ r, outcome Read.command ⟨⟨toks, ending⟩, w.context.parens⟩ = (.error e, r)) ∨
      ∃ c r, outcome Read.command ⟨⟨toks, ending⟩, w.context.parens⟩ = (.ok c, r) ∧
        ∃ result r', outcome Read.expectEnd r = (result, r') ∧
          (result = .error e ∨ result = .ok ()) := by
  rw [body] at failed
  cases command : outcome Read.command ⟨⟨toks, ending⟩, w.context.parens⟩ with
  | mk result r =>
      cases result with
      | error e' =>
          rw [outcome_bind_of_error (outcome_read_of_error command)] at failed
          cases failed
          exact .inl ⟨r, rfl⟩
      | ok c =>
          refine .inr ⟨c, r, rfl, ?_⟩
          cases ended : outcome Read.expectEnd r with
          | mk result r' =>
              refine ⟨result, r', rfl, ?_⟩
              cases result with
              | ok u => exact .inr rfl
              | error e' =>
                  have readEnd (warnings : List Diagnostic) :
                      outcome (read r.line Read.expectEnd) { withParens r.parens w with warnings } =
                        (.error e', _) :=
                    outcome_read_of_error (w := { withParens r.parens w with warnings }) ended
                  rw [outcome_bind_of_ok (outcome_read_of_ok command)] at failed
                  dsimp only at failed
                  rw [outcome_bind_of_ok (outcome_checkCounter c _),
                    outcome_bind_of_error (outcome_discard_of_error (readEnd _))] at failed
                  cases failed
                  exact .inl rfl

/-- A phrase that the context admits and whose calls succeed is carried out. -/
theorem statement_of_phrase {b : Builder} (ends : stop.kind.isEnd = true)
    (admits : w.context.Admits first) (phrase : Phrase toks c)
    (performs : Performs w.builder (c.calls first w.context.colors) b) :
    ∃ w', outcome (statement first ⟨toks, .token stop⟩) w = (.ok (), w') ∧ w'.builder = b ∧
      Does w first toks c w' := by
  have inClass : ¬(w.context.inClass = true ∧ (!Context.belongsInClass first) = true) := by
    rintro ⟨h, h'⟩
    simp [admits.inClass h] at h'
  have ran :=
    body_of_phrase (w := { w with context := w.context.afterTokens first [] }) ends phrase performs
  have stated := outcome_statement first ⟨toks, .token stop⟩ w
  rw [if_neg inClass, admits.placed] at stated
  exact ⟨_, stated.trans ran, rfl, admits, phrase, performs, rfl, rfl⟩

/-- A statement that ends well is a phrase, and it does what the phrase says. -/
theorem statement_inv (inside : ∀ tok ∈ toks, tok.kind.isEnd = false) (ends : ending.Closes)
    (ran : outcome (statement first ⟨toks, ending⟩) w = (.ok (), w')) :
    (∃ stop, ending = .token stop) ∧ ∃ c, Does w first toks c w' := by
  obtain ⟨admits, bodyRan⟩ := admits_of_statement ran
  obtain ⟨⟨stop, rfl⟩, c, phrase, performs⟩ := body_inv inside ends bodyRan
  -- The line is the one of the phrase, and a line has only one outcome.
  obtain ⟨w₁, ran₁, -, does⟩ := statement_of_phrase (ends stop rfl) admits phrase performs
  rw [ran] at ran₁
  cases ran₁
  exact ⟨⟨stop, rfl⟩, c, does⟩

end Compile

/-! ### Lines and scripts -/

namespace Line

variable {ending : LineEnd} {line toks : List Token} {stop : Token}

theorem ofTokens_last (inside : ∀ tok ∈ line, tok.kind ≠ .newline) :
    ofTokens ending line = [⟨line, ending⟩] := by
  induction line with
  | nil => rfl
  | cons tok line ih =>
      rw [ofTokens, if_neg (inside tok (by simp)), ih fun tok mem => inside tok (by simp [mem])]

theorem ofTokens_line (inside : ∀ tok ∈ line, tok.kind ≠ .newline) (ends : stop.kind = .newline) :
    ofTokens ending (line ++ stop :: toks) = ⟨line, .token stop⟩ :: ofTokens ending toks := by
  induction line with
  | nil => simp [ofTokens, ends]
  | cons tok line ih =>
      rw [List.cons_append, ofTokens, if_neg (inside tok (by simp)),
        ih fun tok mem => inside tok (by simp [mem])]

end Line

/-- Tokens without a line feed, or a first line of them with a line feed behind it. -/
theorem line_cases (toks : List Token) :
    (∀ tok ∈ toks, tok.kind ≠ .newline) ∨
      ∃ line stop rest, toks = line ++ stop :: rest ∧ stop.kind = .newline ∧
        ∀ tok ∈ line, tok.kind ≠ .newline := by
  induction toks with
  | nil => simp
  | cons tok toks ih =>
      by_cases ends : tok.kind = .newline
      · exact .inr ⟨[], tok, toks, rfl, ends, by simp⟩
      · rcases ih with inside | ⟨line, stop, rest, rfl, last, inside⟩
        · exact .inl (by simpa [ends] using inside)
        · exact .inr ⟨tok :: line, stop, rest, rfl, last, by simpa [ends] using inside⟩

namespace Compile

/-- The run of some whole lines, from one state between statements to another. -/
inductive Runs : Workbench → List Token → Workbench → Prop
  | nil (w : Workbench) : Runs w [] w
  | blank {w w' : Workbench} {stop : Token} {toks : List Token} (ends : stop.kind.isEnd = true)
      (rest : Runs w toks w') : Runs w (stop :: toks) w'
  | line {w w₁ w' : Workbench} {first stop : Token} {more toks : List Token}
      (inside : ∀ tok ∈ first :: more, tok.kind.isEnd = false) (ends : stop.kind.isEnd = true)
      (ran : outcome (statement first ⟨first :: more, .token stop⟩) w = (.ok (), w₁))
      (rest : Runs w₁ toks w') : Runs w (first :: more ++ stop :: toks) w'

theorem Runs.append {w w₁ w' : Workbench} {toks toks' : List Token} (h : Runs w toks w₁)
    (rest : Runs w₁ toks' w') : Runs w (toks ++ toks') w' := by
  induction h with
  | nil => exact rest
  | blank ends _ ih => exact .blank ends (ih rest)
  | line inside ends ran _ ih =>
      rw [List.append_assoc]
      exact .line inside ends ran (ih rest)

/-- Compiles the statement on a line, if there is one. -/
def content (line : Line) : Compile Unit :=
  match line.tokens with
  | [] => pure ()
  | first :: _ => statement first line

/-- Two splits of one sequence behind the first token that ends a line are the same. -/
theorem split_unique {line line' rest rest' : List Token} {stop stop' : Token}
    (inside : ∀ tok ∈ line, tok.kind.isEnd = false) (ends : stop.kind.isEnd = true)
    (inside' : ∀ tok ∈ line', tok.kind.isEnd = false) (ends' : stop'.kind.isEnd = true)
    (same : line ++ stop :: rest = line' ++ stop' :: rest') :
    line = line' ∧ stop = stop' ∧ rest = rest' := by
  induction line generalizing line' with
  | nil =>
      cases line' with
      | nil => simpa using same
      | cons tok line' =>
          obtain ⟨rfl, -⟩ := List.cons.inj same
          simp [inside' stop (by simp)] at ends
  | cons tok line ih =>
      cases line' with
      | nil =>
          obtain ⟨rfl, -⟩ := List.cons.inj same
          simp [inside tok (by simp)] at ends'
      | cons tok' line' =>
          obtain ⟨rfl, tails⟩ := List.cons.inj same
          obtain ⟨rfl, rest⟩ := ih (fun tok mem => inside tok (by simp [mem]))
            (fun tok mem => inside' tok (by simp [mem])) tails
          exact ⟨rfl, rest⟩

theorem runs_line_iff {w w' : Workbench} {line toks : List Token} {stop : Token}
    (inside : ∀ tok ∈ line, tok.kind.isEnd = false) (ends : stop.kind.isEnd = true) :
    Runs w (line ++ stop :: toks) w' ↔
      ∃ w₁, outcome (content ⟨line, .token stop⟩) w = (.ok (), w₁) ∧ Runs w₁ toks w' := by
  constructor
  · intro runs
    generalize same : line ++ stop :: toks = all at runs
    cases runs with
    | nil => simp at same
    | blank ends' rest =>
        have nothing : ∀ tok ∈ ([] : List Token), tok.kind.isEnd = false := by simp
        obtain ⟨rfl, rfl, rfl⟩ := split_unique inside ends nothing ends' same
        exact ⟨w, rfl, rest⟩
    | line inside' ends' ran rest =>
        obtain ⟨rfl, rfl, rfl⟩ := split_unique inside ends inside' ends' same
        exact ⟨_, ran, rest⟩
  · rintro ⟨w₁, ran, rest⟩
    cases line with
    | nil =>
        cases ran
        exact .blank ends rest
    | cons first more => exact .line inside ends ran rest

theorem outcome_script_line {stop : Token} (toks : List Token) (lines : List Line)
    (w : Workbench) :
    outcome (script (⟨toks, .token stop⟩ :: lines)) w =
      outcome (do
        content ⟨toks, .token stop⟩
        if stop.kind = .eof then finish stop else script lines) w := by
  cases toks <;> rfl

theorem outcome_script_error {e : ScriptError} {lines : List Line} (toks : List Token)
    (w : Workbench) :
    outcome (script (⟨toks, .error e⟩ :: lines)) w =
      outcome (do content ⟨toks, .error e⟩; throw (.scan e)) w := by
  cases toks <;> rfl

theorem isEnd_eq_false {tok : Token} (newline : tok.kind ≠ .newline) (eof : tok.kind ≠ .eof) :
    tok.kind.isEnd = false := by
  cases h : tok.kind <;> simp_all [Kind.isEnd]

/-- A script compiles exactly if it has an end, its lines run up to there, and the end is
accepted. -/
theorem script_eq_ok_iff {ending : LineEnd} {w w'' : Workbench} {compiled : Compiled}
    {toks : List Token} (inside : ∀ tok ∈ toks, tok.kind ≠ .eof)
    (last : ∀ tok, ending = .token tok → tok.kind = .eof) :
    outcome (script (Line.ofTokens ending toks)) w = (.ok compiled, w'') ↔
      ∃ eof w', ending = .token eof ∧ Runs w (toks ++ [eof]) w' ∧
        outcome (finish eof) w' = (.ok compiled, w'') := by
  -- Along the lines: the first one is the last, or the rest is a shorter script.
  rcases line_cases toks with single | ⟨line, stop, rest, rfl, newline, single⟩
  · have inner : ∀ tok ∈ toks, tok.kind.isEnd = false :=
      fun tok mem => isEnd_eq_false (single tok mem) (inside tok mem)
    rw [Line.ofTokens_last single]
    cases ending with
    | error e =>
        refine ⟨fun ran => ?_, by rintro ⟨_, _, ⟨⟩, _⟩⟩
        obtain ⟨_, w₁, -, ran⟩ := outcome_bind_eq_ok.1 (outcome_script_error toks w ▸ ran)
        simp at ran
    | token eof =>
        have isEof := last eof rfl
        have isEnd : eof.kind.isEnd = true := by rw [isEof]; rfl
        rw [outcome_script_line, outcome_bind_eq_ok]
        constructor
        · rintro ⟨_, w₁, ran, finished⟩
          rw [if_pos isEof] at finished
          exact ⟨eof, w₁, rfl, (runs_line_iff inner isEnd).2 ⟨w₁, ran, .nil w₁⟩, finished⟩
        · rintro ⟨_, w', ⟨⟩, runs, finished⟩
          obtain ⟨w₁, ran, ⟨⟩⟩ := (runs_line_iff inner isEnd).1 runs
          exact ⟨(), w', ran, by rwa [if_pos isEof]⟩
  · have inner : ∀ tok ∈ line, tok.kind.isEnd = false :=
      fun tok mem => isEnd_eq_false (single tok mem) (inside tok (by simp [mem]))
    have isEnd : stop.kind.isEnd = true := by rw [newline]; rfl
    have goesOn : stop.kind ≠ .eof := by simp [newline]
    have ih (w : Workbench) :
        outcome (script (Line.ofTokens ending rest)) w = (.ok compiled, w'') ↔
          ∃ eof w', ending = .token eof ∧ Runs w (rest ++ [eof]) w' ∧
            outcome (finish eof) w' = (.ok compiled, w'') :=
      script_eq_ok_iff (fun tok mem => inside tok (by simp [mem])) last
    rw [Line.ofTokens_line single newline, outcome_script_line, outcome_bind_eq_ok]
    constructor
    · rintro ⟨_, w₁, ran, finished⟩
      rw [if_neg goesOn] at finished
      obtain ⟨eof, w', rfl, runs, finished⟩ := (ih w₁).1 finished
      refine ⟨eof, w', rfl, ?_, finished⟩
      rw [List.append_assoc]
      exact (runs_line_iff inner isEnd).2 ⟨w₁, ran, runs⟩
    · rintro ⟨eof, w', rfl, runs, finished⟩
      rw [List.append_assoc] at runs
      obtain ⟨w₁, ran, runs⟩ := (runs_line_iff inner isEnd).1 runs
      refine ⟨(), w₁, ran, ?_⟩
      rw [if_neg goesOn]
      exact (ih w₁).2 ⟨eof, w', rfl, runs, finished⟩
termination_by toks.length

end Compile

def programName (file : File) (name : Text) : Text :=
  if name = [] then Path.stem file.path else name

/-- Compiling a script from a fresh context is running its lines from a new builder. -/
theorem compileIn_eq (file : File) (name : Text) :
    compileIn file .dbase name {} =
      match outcome (Compile.script (Line.ofStream (.ofFile file .dbase)))
        { context := {}, builder := .start (programName file name) } with
      | (.ok compiled, w) => ⟨.ok compiled, w.context, w.warnings⟩
      | (.error fault, w) =>
        ⟨.error (fault.error file.path), { w.context with failed := true }, w.warnings⟩ := by
  rw [compileIn, if_pos rfl, compileScript, outcome, programName]
  dsimp only
  cases (Compile.script (Line.ofStream (.ofFile file .dbase))).run.run _ with
  | mk result w => cases result <;> rfl

end PrgScript
