import PrgScript.Proofs.Statement
import PrgScript.Proofs.TwinBuild
import PrgScript.Proofs.TwinReading
import PrgScript.Script.Compilation

/-!
# Compiling scripts that look the same

Scripts whose tokens look the same are compiled alike: both are accepted, with
programs and listings that look the same, or both are refused, with the same code
at places that look the same. The warnings found on the way have the same codes at
places that look the same.
-/

namespace PrgScript

open Step

/-! ### The context -/

def OpenConstruct.seen (v : View) (block : OpenConstruct) : OpenConstruct :=
  { block with opener := block.opener.seen v, counter := v.name block.counter }

/-- A warning as it is seen: its wording is not looked at. -/
def Diagnostic.seen (v : View) (d : Diagnostic) : Diagnostic :=
  { d with message := [], span := v.span d.span }

namespace Context

def seen (v : View) (ctx : Context) : Context :=
  { ctx with blocks := ctx.blocks.map (OpenConstruct.seen v) }

variable {v : View} {ctx ctx' : Context}

theorem blocks_of_seen (same : ctx.seen v = ctx'.seen v) :
    ctx.blocks.map (OpenConstruct.seen v) = ctx'.blocks.map (OpenConstruct.seen v) :=
  congrArg Context.blocks same

theorem constructs_of_seen (same : ctx.seen v = ctx'.seen v) :
    ctx.blocks.map (·.construct) = ctx'.blocks.map (·.construct) := by
  have constructs := congrArg (List.map OpenConstruct.construct) (blocks_of_seen same)
  rw [List.map_map, List.map_map] at constructs
  exact constructs

theorem inClass_of_seen (same : ctx.seen v = ctx'.seen v) : ctx.inClass = ctx'.inClass := by
  have heads (ctx : Context) :
      ctx.inClass = (ctx.blocks.map (·.construct)).head?.any (· == .classBlock) := by
    rw [inClass, List.head?_map, Option.any_map]
  rw [heads, heads, constructs_of_seen same]

theorem hasOpen_of_seen (same : ctx.seen v = ctx'.seen v) (construct : Construct) :
    ctx.hasOpen construct = ctx'.hasOpen construct := by
  have anys (ctx : Context) :
      ctx.hasOpen construct = (ctx.blocks.map (·.construct)).any (· == construct) := by
    rw [hasOpen, List.any_map]
    rfl
  rw [anys, anys, constructs_of_seen same]

/-- Declaring names that look the same. -/
theorem seen_declare (same : ctx.seen v = ctx'.seen v) {name name' : Text}
    (names : v.name name = v.name name') :
    (ctx.declare name).1 = (ctx'.declare name').1 ∧
      (ctx.declare name).2.seen v = (ctx'.declare name').2.seen v := by
  have shape (ctx : Context) (name : Text) : ((ctx.declare name).1, (ctx.declare name).2.seen v) =
      (ctx.seen v).declare name := by
    by_cases known : ctx.declared.contains (Text.upper name) = true
    · simp only [declare, seen, if_pos known]
      exact (if_pos known).symm
    · simp only [declare, seen, if_neg known]
      exact (if_neg known).symm
  have keys : (ctx'.seen v).declare name = (ctx'.seen v).declare name' := by
    unfold declare
    rw [Text.upper_of_upperASCII (View.upperASCII_of_name names)]
  rw [← Prod.mk.injEq, shape, shape, same, keys]

/-- Declaring names in a row. -/
theorem seen_declareAll (same : ctx.seen v = ctx'.seen v) {toks toks' : List Token}
    (tokens : toks.map (Token.seen v) = toks'.map (Token.seen v))
    (words : ∀ tok ∈ toks, tok.kind.isNaming = true) :
    (toks.foldl (fun ctx tok => (ctx.declare tok.text).2) ctx).seen v =
      (toks'.foldl (fun ctx tok => (ctx.declare tok.text).2) ctx').seen v := by
  induction toks generalizing toks' ctx ctx' with
  | nil =>
      rw [List.map_nil, eq_comm, List.map_eq_nil_iff] at tokens
      subst tokens
      exact same
  | cons tok toks ih =>
      cases toks' with
      | nil => cases tokens
      | cons tok' toks' =>
          rw [List.map_cons, List.map_cons, List.cons.injEq] at tokens
          rw [List.forall_mem_cons] at words
          have names := Token.name_of_word tokens.1 words.1
          exact ih (seen_declare same names).2 tokens.2 words.2

theorem seen_pop (ctx : Context) : ctx.pop.seen v = (ctx.seen v).pop := by
  simp only [pop, seen, List.map_tail]

theorem seen_markElse (ctx : Context) : ctx.markElse.seen v = (ctx.seen v).markElse := by
  obtain ⟨_, _, _, _, _, _, _, _, blocks, _, _, _⟩ := ctx
  cases blocks <;> rfl

/-- A word closes, in contexts that look the same, blocks that look the same. -/
theorem closing_alike (same : ctx.seen v = ctx'.seen v) (closing : Closing) {tok tok' : Token}
    (tokens : tok.seen v = tok'.seen v) :
    Ends (InvImage Eq (Fault.seen v)) (InvImage Eq (OpenConstruct.seen v)) (ctx.closing closing tok)
      (ctx'.closing closing tok') := by
  have blocks := blocks_of_seen same
  have opens := hasOpen_of_seen same closing.construct
  unfold Context.closing
  cases first : ctx.blocks with
  | nil =>
      rw [first, List.map_nil, eq_comm, List.map_eq_nil_iff] at blocks
      rw [blocks]
      exact .error (Fault.seen_at rfl tokens)
  | cons block rest =>
      cases second : ctx'.blocks with
      | nil => rw [first, second] at blocks; cases blocks
      | cons block' rest' =>
          rw [first, second] at blocks
          have head : block.seen v = block'.seen v := (List.cons.inj blocks).1
          have construct : block.construct = block'.construct :=
            show (block.seen v).construct = (block'.seen v).construct from
              congrArg OpenConstruct.construct head
          dsimp only
          rw [construct, opens]
          split
          · exact .ok head
          · split
            · exact .error (Fault.seen_at rfl tokens)
            · exact .error (Fault.seen_at rfl tokens)

theorem admits_alike (same : ctx.seen v = ctx'.seen v) {tok tok' : Token}
    (tokens : tok.seen v = tok'.seen v) :
    Ends (InvImage Eq (Fault.seen v)) Eq (ctx.admits tok) (ctx'.admits tok') := by
  have discarded (closing : Closing) : Ends (InvImage Eq (Fault.seen v)) Eq
      (discard (ctx.closing closing tok)) (discard (ctx'.closing closing tok')) := by
    have ends := closing_alike same closing tokens
    generalize ctx.closing closing tok = r at ends ⊢
    generalize ctx'.closing closing tok' = r' at ends ⊢
    cases ends with
    | ok => exact .ok rfl
    | error related => exact .error related
  unfold admits
  rw [← Token.kind_of_seen tokens]
  cases tok.kind with
  | keyword word =>
      cases word with
      | kwParameter =>
          have seenStatement : ctx.seenStatement = ctx'.seenStatement :=
            show (ctx.seen v).seenStatement = (ctx'.seen v).seenStatement from
              congrArg Context.seenStatement same
          have hasParameters : ctx.hasParameters = ctx'.hasParameters :=
            show (ctx.seen v).hasParameters = (ctx'.seen v).hasParameters from
              congrArg Context.hasParameters same
          dsimp only
          rw [seenStatement, hasParameters]
          split
          · exact .error (Fault.seen_at rfl tokens)
          · split
            · exact .error (Fault.seen_at rfl tokens)
            · exact .ok rfl
      | kwElse =>
          have ends := closing_alike same .elseWord tokens
          dsimp only
          generalize ctx.closing .elseWord tok = r at ends ⊢
          generalize ctx'.closing .elseWord tok' = r' at ends ⊢
          cases ends with
          | error related => exact .error related
          | @ok block block' related =>
              have hasElse : block.hasElse = block'.hasElse :=
                show (block.seen v).hasElse = (block'.seen v).hasElse from
                  congrArg OpenConstruct.hasElse related
              dsimp only
              rw [hasElse]
              split
              · exact .error (Fault.seen_at rfl tokens)
              · exact .ok rfl
      | kwEndif | kwNext | kwEnddo | kwEndclass => exact discarded _
      | kwClass =>
          have blocks := congrArg List.length (blocks_of_seen same)
          dsimp only
          cases first : ctx.blocks <;> cases second : ctx'.blocks <;>
            simp only [first, second, List.length_map, List.length_nil, List.length_cons] at blocks
          · exact .ok rfl
          · omega
          · omega
          · exact .error (Fault.seen_at rfl tokens)
      | kwThis =>
          dsimp only
          rw [inClass_of_seen same]
          split
          · exact .ok rfl
          · exact .error (Fault.seen_at rfl tokens)
      | _ => exact .ok rfl
  | _ => exact .ok rfl

end Context

/-! ### Compiling line by line -/

namespace Command

/-- The variable that the end of a loop names. -/
def closes? : Command → Option Token
  | .endFor counter => counter
  | _ => none

theorem closes?_seen (v : View) (c : Command) :
    (c.seen v).closes? = c.closes?.map (Token.seen v) := by
  cases c <;> rfl

theorem names_seen (v : View) (c : Command) : (c.seen v).names = c.names.map (Token.seen v) := by
  cases c with
  | endFor counter => cases counter <;> rfl
  | _ => rfl

/-- The other of two commands that look the same has words for names as well. -/
theorem Alike.words {v : View} {c c' : Command} (h : Command.Alike v c c') :
    ∀ tok ∈ c'.names, tok.kind.isNaming = true := by
  intro tok' mem
  have names := congrArg Command.names h.1
  rw [names_seen, names_seen] at names
  have seen := List.mem_map_of_mem (f := Token.seen v) mem
  rw [← names, List.mem_map] at seen
  obtain ⟨tok, mem, same⟩ := seen
  have word := h.2 tok mem
  rwa [Token.kind_of_seen same] at word

end Command

theorem Compile.checkCounter_eq (c : Command) :
    checkCounter c = (match c.closes? with
      | none => return
      | some tok => checkCounter (.endFor (some tok))) := by
  cases c with
  | endFor counter => cases counter <;> rfl
  | _ => rfl

/-- The state between two lines as it is seen. -/
def Workbench.seen (v : View) (w : Workbench) : Workbench :=
  ⟨w.context.seen v, w.builder.seen v, w.warnings.map (Diagnostic.seen v)⟩

namespace Workbench

variable {v : View} {w w' : Workbench} (same : w.seen v = w'.seen v)

include same

theorem context_of_seen : w.context.seen v = w'.context.seen v := congrArg Workbench.context same

theorem builder_of_seen : w.builder.seen v = w'.builder.seen v := congrArg Workbench.builder same

theorem warnings_of_seen :
    w.warnings.map (Diagnostic.seen v) = w'.warnings.map (Diagnostic.seen v) :=
  congrArg Workbench.warnings same

end Workbench

namespace Compile

variable {α : Type} {v : View}

/-- From states that look the same two steps of compiling end alike. -/
abbrev Alike (v : View) (R : α → α → Prop) (x y : Compile α) : Prop :=
  Twin (InvImage Eq (Workbench.seen v)) (InvImage Eq (Fault.seen v)) R x y

namespace Alike

variable {R : α → α → Prop}

theorem modifyContext {f g : Context → Context}
    (h : ∀ ctx ctx', ctx.seen v = ctx'.seen v → (f ctx).seen v = (g ctx').seen v) :
    Alike v Eq (Compile.modifyContext f) (Compile.modifyContext g) := by
  refine .modifyState fun w w' same => ?_
  simp only [InvImage, Workbench.seen, h _ _ (Workbench.context_of_seen same),
    Workbench.builder_of_seen same, Workbench.warnings_of_seen same]

/-- A change of the context that says nothing about names and places. -/
theorem changeContext {f : Context → Context} (h : ∀ ctx, (f ctx).seen v = f (ctx.seen v)) :
    Alike v Eq (Compile.modifyContext f) (Compile.modifyContext f) := by
  refine modifyContext fun ctx ctx' same => ?_
  rw [h, h, same]

/-- A change of the context that opens a block and says nothing else about names and places. -/
theorem openBlock {f : Context → Context} (h : ∀ ctx, (f ctx).seen v = f (ctx.seen v))
    {block block' : OpenConstruct} (blocks : block.seen v = block'.seen v) :
    Alike v Eq (Compile.modifyContext fun ctx => (f ctx).push block)
      (Compile.modifyContext fun ctx => (f ctx).push block') := by
  have pushed (ctx : Context) (block : OpenConstruct) :
      (ctx.push block).seen v = (ctx.seen v).push (block.seen v) := rfl
  refine modifyContext fun ctx ctx' same => ?_
  rw [pushed, pushed, h, h, same, blocks]

theorem warn (code : Code) {tok tok' : Token} (same : tok.seen v = tok'.seen v)
    (message message' : Text) :
    Alike v Eq (Compile.warn code tok message) (Compile.warn code tok' message') := by
  refine .modifyState fun w w' alike => ?_
  have span : v.span tok.span = v.span tok'.span := congrArg Token.span same
  simp only [InvImage, Workbench.seen, List.map_append, List.map_cons, List.map_nil,
    Diagnostic.seen, span, Workbench.context_of_seen alike, Workbench.builder_of_seen alike,
    Workbench.warnings_of_seen alike]

theorem require {r r' : Except Fault α} (h : Ends (InvImage Eq (Fault.seen v)) R r r') :
    Alike v R (Compile.require r) (Compile.require r') := by
  cases h with
  | ok related => exact .pure related
  | error related => exact .throw related

theorem read {line line' : Line} {part part' : Read α} (lines : line.seen v = line'.seen v)
    (parts : Read.Alike v R part part') :
    Alike v (fun a b => R a.1 b.1 ∧ a.2.seen v = b.2.seen v) (Compile.read line part)
      (Compile.read line' part') := by
  refine Twin.get.bind fun w w' same => ?_
  have parens : w.context.parens = w'.context.parens :=
    show (w.context.seen v).parens = (w'.context.seen v).parens from
      congrArg Context.parens (Workbench.context_of_seen same)
  obtain ⟨ends, after⟩ := parts ⟨line, w.context.parens⟩ ⟨line', w'.context.parens⟩ (by
    simp only [InvImage, Reading.seen, lines, parens])
  dsimp only [outcome] at ends after
  generalize (ExceptT.run part).run ⟨line, w.context.parens⟩ = first at ends after ⊢
  generalize (ExceptT.run part').run ⟨line', w'.context.parens⟩ = second at ends after ⊢
  obtain ⟨result, reading⟩ := first
  obtain ⟨result', reading'⟩ := second
  have counts : reading.parens = reading'.parens := congrArg (·.2) after
  have rest : reading.line.seen v = reading'.line.seen v := congrArg (·.1) after
  dsimp only at ends ⊢
  rw [counts]
  refine .bind (changeContext fun ctx => rfl) fun _ _ _ => ?_
  cases ends with
  | ok related => exact .pure ⟨related, rest⟩
  | error related => exact .throw related

theorem build {last last' : Token} (tokens : last.seen v = last'.seen v) {call call' : Builder.Call}
    (calls : call.seen v = call'.seen v) :
    Alike v Eq (Compile.build last call) (Compile.build last' call') := by
  refine Twin.get.bind fun w w' same => ?_
  obtain ⟨ends, after⟩ := Builder.call_alike (Workbench.builder_of_seen same) calls
  generalize w.builder.call call = first at ends after ⊢
  generalize w'.builder.call call' = second at ends after ⊢
  obtain ⟨result, builder⟩ := first
  obtain ⟨result', builder'⟩ := second
  refine .bind (.modifyState fun w w' same => ?_) fun _ _ _ => ?_
  · simp only [InvImage, Workbench.seen, Workbench.context_of_seen same,
      Workbench.warnings_of_seen same]
    rw [after]
  · cases ends with
    | ok => exact .pure rfl
    | error => exact .throw (Fault.seen_at rfl tokens)

theorem declareNames {toks toks' : List Token}
    (tokens : toks.map (Token.seen v) = toks'.map (Token.seen v))
    (words : ∀ tok ∈ toks, tok.kind.isNaming = true) :
    Alike v Eq (Compile.declareNames toks) (Compile.declareNames toks') := by
  induction toks generalizing toks' with
  | nil =>
      rw [List.map_nil, eq_comm, List.map_eq_nil_iff] at tokens
      subst tokens
      exact .pure rfl
  | cons tok toks ih =>
      cases toks' with
      | nil => cases tokens
      | cons tok' toks' =>
          rw [List.map_cons, List.map_cons, List.cons.injEq] at tokens
          rw [List.forall_mem_cons] at words
          have names := Token.name_of_word tokens.1 words.1
          have rest := ih tokens.2 words.2
          refine Twin.get.bind fun w w' same => ?_
          obtain ⟨isNew, declared⟩ := Context.seen_declare (Workbench.context_of_seen same) names
          generalize w.context.declare tok.text = first at isNew declared ⊢
          generalize w'.context.declare tok'.text = second at isNew declared ⊢
          obtain ⟨new, ctx⟩ := first
          obtain ⟨new', ctx'⟩ := second
          refine .bind (.modifyState fun w w' same => ?_) fun _ _ _ => ?_
          · simp only [InvImage, Workbench.seen, Workbench.builder_of_seen same,
              Workbench.warnings_of_seen same]
            rw [declared]
          · dsimp only at isNew
            exact .optional (by rw [isNew]) (warn _ tokens.1 _ _) rest

theorem checkCounter {c c' : Command} (commands : Command.Alike v c c') :
    Alike v Eq (Compile.checkCounter c) (Compile.checkCounter c') := by
  have closed := congrArg Command.closes? commands.1
  rw [Command.closes?_seen, Command.closes?_seen] at closed
  rw [checkCounter_eq c, checkCounter_eq c']
  have words : ∀ tok, c.closes? = some tok → tok.kind.isNaming = true := by
    intro tok closes
    refine commands.2 tok ?_
    cases c with
    | endFor counter =>
        cases closes
        exact List.mem_singleton_self tok
    | _ => cases closes
  cases first : c.closes? with
  | none =>
      rw [first, Option.map_none, eq_comm, Option.map_eq_none_iff] at closed
      rw [closed]
      exact .pure rfl
  | some tok =>
      cases second : c'.closes? with
      | none => rw [first, second] at closed; cases closed
      | some tok' =>
          rw [first, second] at closed
          have same : tok.seen v = tok'.seen v := Option.some.inj closed
          have names := Token.name_of_word same (words tok first)
          refine Twin.get.bind fun w w' alike => ?_
          have counters := congrArg (fun blocks => (blocks.head?.map OpenConstruct.counter).getD [])
            (Context.blocks_of_seen (Workbench.context_of_seen alike))
          have seen (w : Workbench) :
              ((w.context.blocks.map (OpenConstruct.seen v)).head?.map
                  OpenConstruct.counter).getD [] =
                v.name ((w.context.blocks.head?.map OpenConstruct.counter).getD []) := by
            cases w.context.blocks <;> rfl
          rw [seen, seen] at counters
          refine .ite ?_ (.pure rfl) (warn _ same _ _)
          rw [Text.sameFold_of_upperASCII (View.upperASCII_of_name names)
            (View.upperASCII_of_name counters)]

/-- Carrying out a command, and what is seen of it. -/
theorem performSeen {first first' last last' : Token} (firsts : first.seen v = first'.seen v)
    (lasts : last.seen v = last'.seen v) (c : Command)
    (words : ∀ tok ∈ c.names, tok.kind.isNaming = true) :
    Alike v Eq (Compile.perform first last c) (Compile.perform first' last' (c.seen v)) := by
  have line := Token.line_of_seen firsts
  have opener (construct : Construct) (counter : Text) :
      OpenConstruct.seen v { construct, opener := first, counter } =
        OpenConstruct.seen v { construct, opener := first', counter := v.name counter } := by
    simp only [OpenConstruct.seen, firsts, View.name_name]
  have twice (names : List Token) :
      names.map (Token.seen v) = (names.map (Token.seen v)).map (Token.seen v) := by
    rw [List.map_map]
    exact List.map_congr_left fun tok _ => (Token.seen_seen v tok).symm
  have texts {names : List Token} (words : ∀ tok ∈ names, tok.kind.isNaming = true) :
      (names.map (·.text)).map v.name = ((names.map (Token.seen v)).map (·.text)).map v.name := by
    simp only [List.map_map]
    refine List.map_congr_left fun tok mem => ?_
    simp only [Function.comp, Token.seen_text_of_naming (words tok mem), View.name_name]
  cases c with
  | parameters names =>
      rw [Command.seen, Compile.perform, Compile.perform]
      refine .bind (modifyContext fun ctx ctx' same => ?_) fun _ _ _ => build lasts ?_
      · refine Context.seen_declareAll ?_ (twice names) words
        exact congrArg
          (fun ctx : Context => { ctx with hasParameters := true, seenStatement := true }) same
      · exact congrArg Builder.Call.setParams (texts words)
  | declare names =>
      rw [Command.seen, Compile.perform, Compile.perform]
      refine .bind (declareNames (twice names) words) fun _ _ _ => build lasts ?_
      simp only [Builder.Call.seen, line]
      exact congrArg (Builder.Call.declare · _) (texts words)
  | assign name value =>
      have word := words name (List.mem_singleton_self name)
      rw [Command.seen, Compile.perform, Compile.perform]
      refine build lasts ?_
      simp only [Builder.Call.seen, Token.seen_text_of_naming word, View.name_name, Expr.seen_seen,
        Token.seen_line, v.line_line]
  | beginIf condition =>
      rw [Command.seen, Compile.perform, Compile.perform]
      refine .bind
        (openBlock (f := fun ctx => { ctx with ifCount := Number.wrap (ctx.ifCount + 1) })
          (fun ctx => rfl) (opener .ifBlock []))
        fun _ _ _ => build lasts ?_
      simp only [Builder.Call.seen, line, Expr.seen_seen]
  | elseWord =>
      rw [Command.seen, Compile.perform, Compile.perform]
      exact .bind (changeContext Context.seen_markElse) fun _ _ _ => build lasts rfl
  | endIf =>
      rw [Command.seen, Compile.perform, Compile.perform]
      exact .bind (changeContext fun _ => Context.seen_pop _) fun _ _ _ => build lasts rfl
  | beginFor counter start limit step =>
      have word := words counter (List.mem_singleton_self counter)
      rw [Command.seen, Compile.perform, Compile.perform, Token.seen_text_of_naming word]
      refine .bind
        (openBlock (f := fun ctx => { ctx with forDepth := Number.wrap (ctx.forDepth + 1) })
          (fun ctx => rfl) (opener .forBlock counter.text))
        fun _ _ _ => build lasts ?_
      simp only [Builder.Call.seen, line, View.name_name, Expr.seen_seen, Option.map_map]
      congr 2
      funext e
      exact (Expr.seen_seen v e).symm
  | endFor counter =>
      rw [Command.seen, Compile.perform, Compile.perform]
      exact .bind (changeContext fun _ => Context.seen_pop _) fun _ _ _ => build lasts rfl
  | beginWhile condition =>
      rw [Command.seen, Compile.perform, Compile.perform]
      refine .bind
        (openBlock (f := fun ctx => { ctx with doDepth := Number.wrap (ctx.doDepth + 1) })
          (fun ctx => rfl) (opener .doBlock []))
        fun _ _ _ => build lasts ?_
      simp only [Builder.Call.seen, line, Expr.seen_seen]
  | endWhile =>
      rw [Command.seen, Compile.perform, Compile.perform]
      exact .bind (changeContext fun _ => Context.seen_pop _) fun _ _ _ => build lasts rfl
  | finish =>
      rw [Command.seen, Compile.perform, Compile.perform]
      exact build lasts (congrArg Builder.Call.finishScript line)
  | setColor choice =>
      rw [Command.seen, Compile.perform, Compile.perform]
      refine Twin.get.bind fun w w' same => ?_
      have colors : w.context.colors = w'.context.colors :=
        show (w.context.seen v).colors = (w'.context.seen v).colors from
          congrArg Context.colors (Workbench.context_of_seen same)
      rw [colors]
      refine .bind (changeContext fun ctx => rfl) fun _ _ _ => build lasts ?_
      exact congrArg (Builder.Call.setColor _) line
  | say row col value =>
      rw [Command.seen, Compile.perform, Compile.perform]
      refine build lasts ?_
      simp only [Builder.Call.seen, line, Expr.seen_seen]
  | print values newline =>
      rw [Command.seen, Compile.perform, Compile.perform]
      refine build lasts ?_
      simp only [Builder.Call.seen, line, List.map_map]
      congr 2
      funext e
      exact (Expr.seen_seen v e).symm
  | beginClass name base oneLine =>
      have word := words name (List.mem_singleton_self name)
      rw [Command.seen, Compile.perform, Compile.perform, Token.seen_text_of_naming word]
      refine .bind (build lasts ?_) fun _ _ _ => .ite Iff.rfl (build lasts rfl) ?_
      · simp only [Builder.Call.seen, line, View.name_name]
      · exact openBlock (f := id) (fun ctx => rfl) (opener .classBlock [])
  | property name value =>
      have word := words name (List.mem_singleton_self name)
      rw [Command.seen, Compile.perform, Compile.perform, Token.seen_text_of_naming word,
        Text.lower_of_upperASCII (v.upperASCII_name name.text)]
      refine build lasts ?_
      simp only [Builder.Call.seen, line, Expr.seen_seen]
  | endClass =>
      rw [Command.seen, Compile.perform, Compile.perform]
      exact .bind (changeContext fun _ => Context.seen_pop _) fun _ _ _ => build lasts rfl

theorem perform {first first' last last' : Token} (firsts : first.seen v = first'.seen v)
    (lasts : last.seen v = last'.seen v) {c c' : Command} (commands : Command.Alike v c c') :
    Alike v Eq (Compile.perform first last c) (Compile.perform first' last' c') := by
  have there := performSeen firsts lasts c commands.2
  have back : Alike v Eq (Compile.perform first' last' (c.seen v))
      (Compile.perform first' last' c') := by
    rw [commands.1]
    refine (performSeen rfl rfl c' commands.words).symm ?_ ?_ ?_
    · exact fun _ _ same => same.symm
    · exact fun _ _ same => same.symm
    · exact fun _ _ same => same.symm
  exact there.trans (fun _ => rfl) (fun _ _ _ => Eq.trans) (fun _ _ _ => Eq.trans)
    (fun _ _ _ => Eq.trans) back

/-- Lines that look the same are compiled alike. -/
theorem statement {first first' : Token} {line line' : Line} (firsts : first.seen v = first'.seen v)
    (lines : line.seen v = line'.seen v) :
    Alike v Eq (Compile.statement first line) (Compile.statement first' line') := by
  have kinds := Token.kind_of_seen firsts
  have lasts : (line.tokens.getLast?.getD first).seen v =
      (line'.tokens.getLast?.getD first').seen v := by
    have tokens : line.tokens.map (Token.seen v) = line'.tokens.map (Token.seen v) :=
      congrArg (·.1) lines
    have last (toks : List Token) (first : Token) : (toks.getLast?.getD first).seen v =
        (toks.map (Token.seen v)).getLast?.getD (first.seen v) := by
      rw [List.getLast?_map, Option.getD_map]
    rw [last, last, tokens, firsts]
  refine Twin.get.bind fun w w' same => ?_
  have contexts := Workbench.context_of_seen same
  refine .guard ?_ (Fault.seen_at rfl firsts) ?_
  · rw [Context.inClass_of_seen contexts, Context.belongsInClass, Context.belongsInClass, kinds]
  refine .optional (by rw [kinds]) (changeContext fun ctx => rfl) ?_
  refine .bind (require (Context.admits_alike contexts firsts)) fun _ _ _ => ?_
  refine .bind (read lines .command) fun found found' ⟨commands, rests⟩ => ?_
  refine .bind (checkCounter commands) fun _ _ _ => ?_
  refine .bind (.discard (read rests .expectEnd)) fun _ _ _ => ?_
  refine .bind (perform firsts lasts commands) fun _ _ _ => ?_
  refine Twin.get.bind fun w w' same => ?_
  have depths : w.builder.depth = w'.builder.depth :=
    show (w.builder.seen v).depth = (w'.builder.seen v).depth from
      congrArg Builder.depth (Workbench.builder_of_seen same)
  rw [depths]
  exact changeContext fun ctx => rfl

theorem content {line line' : Line} (lines : line.seen v = line'.seen v) :
    Alike v Eq (Compile.content line) (Compile.content line') := by
  have tokens : line.tokens.map (Token.seen v) = line'.tokens.map (Token.seen v) :=
    congrArg (·.1) lines
  unfold Compile.content
  cases first : line.tokens with
  | nil =>
      rw [first, List.map_nil, eq_comm, List.map_eq_nil_iff] at tokens
      rw [tokens]
      exact .pure rfl
  | cons tok toks =>
      cases second : line'.tokens with
      | nil => rw [first, second] at tokens; cases tokens
      | cons tok' toks' =>
          rw [first, second] at tokens
          exact statement (List.cons.inj tokens).1 lines

/-- The ends of scripts that look the same are compiled alike. -/
theorem finish {eof eof' : Token} (ends : eof.seen v = eof'.seen v) :
    Alike v (InvImage Eq (Compiled.seen v)) (Compile.finish eof) (Compile.finish eof') := by
  refine Twin.get.bind fun w w' same => ?_
  have contexts := Workbench.context_of_seen same
  have blocks := Context.blocks_of_seen contexts
  cases first : w.context.blocks with
  | cons block rest =>
      cases second : w'.context.blocks with
      | nil => rw [first, second] at blocks; cases blocks
      | cons block' rest' =>
          rw [first, second] at blocks
          exact .throw (Fault.seen_at rfl (congrArg OpenConstruct.opener (List.cons.inj blocks).1))
  | nil =>
      rw [first, List.map_nil, eq_comm, List.map_eq_nil_iff] at blocks
      rw [blocks]
      have ifs : w.context.ifCount = w'.context.ifCount :=
        show (w.context.seen v).ifCount = (w'.context.seen v).ifCount from
          congrArg Context.ifCount contexts
      have endifs : w.context.endifCount = w'.context.endifCount :=
        show (w.context.seen v).endifCount = (w'.context.seen v).endifCount from
          congrArg Context.endifCount contexts
      refine .guard (by rw [Context.balanced, Context.balanced, ifs, endifs])
        (Fault.seen_at rfl ends) ?_
      obtain ⟨finished, after⟩ := Builder.finish_alike (Workbench.builder_of_seen same)
      dsimp only
      dsimp only [outcome] at finished after
      generalize (Builder.finish.run).run w.builder = closed at finished after ⊢
      generalize (Builder.finish.run).run w'.builder = closed' at finished after ⊢
      obtain ⟨result, builder⟩ := closed
      obtain ⟨result', builder'⟩ := closed'
      cases finished with
      | error => exact .throw (Fault.seen_at rfl ends)
      | ok compiled =>
          refine .bind (.set ?_) fun _ _ _ => .pure compiled
          simp only [InvImage, Workbench.seen, contexts, Workbench.warnings_of_seen same]
          rw [after]

/-- Scripts whose lines look the same are compiled alike. -/
theorem script {lines lines' : List Line}
    (same : lines.map (Line.seen v) = lines'.map (Line.seen v)) :
    Alike v (InvImage Eq (Compiled.seen v)) (Compile.script lines) (Compile.script lines') := by
  induction lines generalizing lines' with
  | nil =>
      rw [List.map_nil, eq_comm, List.map_eq_nil_iff] at same
      subst same
      exact finish rfl
  | cons line lines ih =>
      cases lines' with
      | nil => cases same
      | cons line' lines' =>
          rw [List.map_cons, List.map_cons, List.cons.injEq] at same
          obtain ⟨heads, rest⟩ := same
          have ends : line.ending.seen v = line'.ending.seen v := congrArg (·.2) heads
          have contents := content heads
          obtain ⟨toks, ending⟩ := line
          obtain ⟨toks', ending'⟩ := line'
          intro w w' alike
          cases ending with
          | error e =>
              cases ending' with
              | token => cases ends
              | error e' =>
                  rw [outcome_script_error, outcome_script_error]
                  have failed : Alike v (InvImage Eq (Compiled.seen v)) (throw (.scan e))
                      (throw (.scan e')) := .throw (Sum.inr.inj ends)
                  exact contents.bind (fun _ _ _ => failed) w w' alike
          | token stop =>
              cases ending' with
              | error => cases ends
              | token stop' =>
                  have stops : stop.seen v = stop'.seen v := Sum.inl.inj ends
                  rw [outcome_script_line, outcome_script_line]
                  refine contents.bind (fun _ _ _ => .ite ?_ (finish stops) (ih rest)) w w' alike
                  rw [Token.kind_of_seen stops]

end Alike

end Compile

/-- Scripts whose tokens look the same are compiled alike, from a fresh context. -/
theorem compileIn_alike {v : View} {file file' : File} (d : Dialect) (name : Text)
    (ids : file.id = file'.id) (paths : file.path = file'.path)
    (same : (TokenStream.ofFile file d).seen v = (TokenStream.ofFile file' d).seen v) :
    Ends (InvImage Eq (ScriptError.seen v)) (InvImage Eq (Compiled.seen v))
        (compileIn file d name {}).result (compileIn file' d name {}).result ∧
      (compileIn file d name {}).warnings.map (Diagnostic.seen v) =
        (compileIn file' d name {}).warnings.map (Diagnostic.seen v) := by
  by_cases isScript : d = .dbase
  · subst isScript
    have names : programName file name = programName file' name := by
      rw [programName, programName, paths]
    rw [compileIn_eq, compileIn_eq, names]
    have lines := Line.seen_ofStream same
    obtain ⟨ends, after⟩ := Compile.Alike.script lines
      { context := {}, builder := .start (programName file' name) } _ rfl
    generalize outcome (Compile.script (Line.ofStream (.ofFile file .dbase))) _ = first
      at ends after ⊢
    generalize outcome (Compile.script (Line.ofStream (.ofFile file' .dbase))) _ = second
      at ends after ⊢
    obtain ⟨result, w⟩ := first
    obtain ⟨result', w'⟩ := second
    have warnings := Workbench.warnings_of_seen after
    cases ends with
    | ok compiled => exact ⟨.ok compiled, warnings⟩
    | error fault =>
        refine ⟨.error ?_, warnings⟩
        simp only [InvImage, Fault.seen_error]
        exact fault
  · rw [compileIn, compileIn, if_neg isScript, if_neg isScript]
    refine ⟨.error ?_, rfl⟩
    simp only [InvImage, ScriptError.seen, noStatementsError, ids, ScriptError.code]

/-- The program or the error of a compilation. -/
theorem compile_result (file : File) (d : Dialect) (limit : Int) (name : Text) :
    (compile file (some d) limit name).result =
      (compileIn file d name {}).result.mapError .script := by
  unfold compile
  dsimp only
  split
  next ended => rw [ended]; rfl
  next ended => rw [ended]; rfl

end PrgScript
