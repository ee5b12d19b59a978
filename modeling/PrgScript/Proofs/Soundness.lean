import PrgScript.Machine.Recorder
import PrgScript.Proofs.Acceptance
import PrgScript.Proofs.ReadBack
import PrgScript.Proofs.Running
import PrgScript.Script.Compilation

/-!
# Compiled programs are sound

A sound program has no part that an execution could refuse: nothing is left out or
of an unknown kind, and every operator stands where it can. The check of a program
does not look at operators, so soundness is more than passing the check.

The grammar gives no other programs. Each of its rules is gone through once: an
expression has the operators of its levels, a line has the expressions that were read
from it, and a block has the statements of its lines, however deep they are nested.
With what can stop a run, all that is left to blame for a fault is the script itself.
-/

namespace PrgScript

open Step Grammar Compile

/-! ### Sound parts -/

/-- An expression in which nothing is refused whatever the variables are. -/
def Expr.IsSound (e : Expr) : Prop := ∀ x ∈ e.nodes, ∀ cause, ¬x.Rejects cause

/-- A statement that is not refused whatever the variables are, what it holds apart. -/
def Stmt.IsSound (s : Stmt) : Prop := ∀ cause, ¬s.Rejects cause

theorem Stmt.isSound_of_expressions {s : Stmt} (whole : s.isBroken = false)
    (own : ∀ e ∈ s.expressions, e.IsSound) : s.IsSound := by
  intro cause rejects
  cases rejects with
  | expression mem inside rejects => exact own _ mem _ inside cause rejects
  | content | kind => cases whole

theorem Stmt.partsOf_append (ss ts : List Stmt) :
    partsOf (ss ++ ts) = partsOf ss ++ partsOf ts := by
  induction ss with
  | nil => rfl
  | cons s ss ih => rw [List.cons_append, partsOf, partsOf, ih, List.append_assoc]

def Stmt.AllSound (ss : List Stmt) : Prop := ∀ s ∈ partsOf ss, s.IsSound

namespace Stmt.AllSound

theorem nil : AllSound [] := by
  intro s mem
  cases mem

theorem cons {s : Stmt} {ss : List Stmt} (own : s.IsSound)
    (held : ∀ body ∈ s.bodies, AllSound body) (rest : AllSound ss) : AllSound (s :: ss) := by
  unfold AllSound
  rw [partsOf, parts_eq, List.cons_append, List.forall_mem_cons, List.forall_mem_append,
    List.forall_mem_flatMap]
  exact ⟨own, held, rest⟩

theorem append {ss ts : List Stmt} (first : AllSound ss) (second : AllSound ts) :
    AllSound (ss ++ ts) := by
  intro s mem
  rw [partsOf_append] at mem
  rcases List.mem_append.1 mem with mem | mem
  · exact first s mem
  · exact second s mem

end Stmt.AllSound

/-- A class with a known base and sound properties. -/
structure Class.IsSound (c : Class) : Prop where
  base : c.base.isValid = true
  properties : ∀ p ∈ c.properties, p.value.IsSound

/-- A program of which no part is refused. -/
structure Program.IsSound (p : Program) : Prop where
  body : Stmt.AllSound p.body
  classes : ∀ c ∈ p.classes, c.IsSound

namespace Program.IsSound

variable {p : Program}

theorem node (h : p.IsSound) {x : Expr} (mem : x ∈ p.nodes) (cause : ExecCause) :
    ¬x.Rejects cause := by
  intro rejects
  obtain ⟨e, stands, inside⟩ := List.mem_flatMap.1 mem
  rcases List.mem_append.1 stands with stands | stands
  · obtain ⟨s, mem, own⟩ := List.mem_flatMap.1 stands
    exact h.body s mem cause (.expression own inside rejects)
  · obtain ⟨c, mem, own⟩ := List.mem_flatMap.1 stands
    obtain ⟨property, sets, rfl⟩ := List.mem_map.1 own
    exact (h.classes c mem).properties property sets x inside cause rejects

/-- A sound program passes the check. -/
theorem fault? (h : p.IsSound) : p.fault? = none := by
  rw [fault?_eq_none_iff]
  refine ⟨fun s mem => ?_, fun x mem => ?_, fun c mem => (h.classes c mem).base⟩
  · have sound := h.body s mem
    cases s with
    | malformed kind line =>
        by_cases known : 1 ≤ kind ∧ kind ≤ 8
        · exact absurd (.content known line) (sound _)
        · exact absurd (.kind known line) (sound _)
    | _ => rfl
  · have sound := h.node mem
    cases x with
    | missing => exact absurd .missing (sound _)
    | malformed kind line => exact absurd (.malformed kind line) (sound _)
    | _ => rfl

/-- A run of a sound program on a console that never fails can only fail for the script. -/
theorem run_error {m : Machine} (h : m.program.IsSound) {σ : Type} {c : Console σ}
    (answers : ∀ message, ¬c.Fails message) {console : σ} {tracer : Trace.Tracer}
    {parent rounds : Nat} {args : List Value} {e : ExecError}
    (failed : (m.run c console tracer parent rounds args).result = .error (.fault e)) :
    e.code.blamesScript = true := by
  obtain blames | ⟨message, fails, -⟩ | ⟨s, mem, rejects⟩ := Machine.run_error failed
  · exact blames
  · exact absurd fails (answers message)
  · exact absurd rejects (h.body s mem e.cause)

theorem instantiate_error {m : Machine} (h : m.program.IsSound) {name : Text} {e : ExecError}
    (failed : m.instantiate name = .error e) : e.code.blamesScript = true := by
  obtain blames | ⟨x, mem, rejects⟩ := Machine.instantiate_error failed
  · exact blames
  · exact absurd rejects (h.node mem e.cause)

end Program.IsSound

/-! ### What the grammar gives -/

namespace Grammar

theorem OneSided.isOneSided {level : Level} {kind : Kind} {op : Op} (h : OneSided level kind op) :
    op.isOneSided = true := by
  cases h <;> rfl

theorem TwoSided.isTwoSided {level : Level} {kind : Kind} {op : Op} (h : TwoSided level kind op) :
    op.isTwoSided = true := by
  cases h <;> rfl

theorem Expression.isSound {level : Level} {toks : List Token} {e : Expr}
    (h : Expression Read.folding level toks e) : e.IsSound := by
  induction h with
  | number | string | logical | name =>
      intro x mem cause rejects
      cases List.mem_singleton.1 mem
      cases rejects
  | parens _ _ _ ih => exact ih
  | tighter _ _ ih => exact ih
  | oneSided sign _ ih =>
      intro x mem cause rejects
      rcases List.mem_cons.1 mem with rfl | inside
      · cases rejects with
        | unary wrong =>
            rw [sign.isOneSided] at wrong
            cases wrong
      · exact ih x inside cause rejects
  | @twoSided level tok op xs ys l r _ sign _ ihLeft ihRight =>
      rcases Read.folding_cases op l r tok.line with ⟨s, t, k, n, -, -, -, same⟩ | same
      · rw [same]
        intro x mem cause rejects
        cases List.mem_singleton.1 mem
        cases rejects
      · rw [same]
        intro x mem cause rejects
        rcases List.mem_cons.1 mem with rfl | inside
        · cases rejects with
          | binary wrong =>
              rw [sign.isTwoSided] at wrong
              cases wrong
        · rcases List.mem_append.1 inside with inside | inside
          · exact ihLeft x inside cause rejects
          · exact ihRight x inside cause rejects

theorem Listed.forall_isSound {toks : List Token} {es : List Expr} (h : Listed Value toks es) :
    ∀ e ∈ es, e.IsSound := by
  induction h with
  | one part => exact List.forall_mem_singleton.2 part.isSound
  | more part _ _ ih => exact List.forall_mem_cons.2 ⟨part.isSound, ih⟩

end Grammar

def Command.expressions : Command → List Expr
  | .assign _ value => [value]
  | .beginIf condition => [condition]
  | .beginFor _ start limit step => start :: limit :: step.toList
  | .beginWhile condition => [condition]
  | .say row col value => [row, col, value]
  | .print values _ => values
  | .property _ value => [value]
  | _ => []

theorem Plain.bodies_stmt (p : Plain) : p.stmt.bodies = [] := by
  cases p <;> rfl

theorem Item.flatMap_tree (ts : List Tree) :
    (ts.map Item.tree).flatMap Item.stmts = Tree.stmts ts ∧
      (ts.map Item.tree).flatMap Item.classes = [] := by
  induction ts with
  | nil => exact ⟨rfl, rfl⟩
  | cons t ts ih => simp [Item.stmts, Item.classes, Tree.stmts, ih]

namespace Grammar

variable {toks xs : List Token} {first : Token} {c : Command} {colors colors' : ColorPair}

theorem Phrase.isSound (h : Phrase toks c) : ∀ e ∈ c.expressions, e.IsSound := by
  cases h with
  | assign _ _ value => exact List.forall_mem_singleton.2 value.isSound
  | beginIf _ condition => exact List.forall_mem_singleton.2 condition.isSound
  | beginFor _ _ _ start _ limit =>
      simp [Command.expressions, start.isSound, limit.isSound]
  | beginForStep _ _ _ start _ limit _ step =>
      simp [Command.expressions, start.isSound, limit.isSound, step.isSound]
  | beginWhile _ _ condition => exact List.forall_mem_singleton.2 condition.isSound
  | say _ row _ col _ value =>
      simp [Command.expressions, row.isSound, col.isSound, value.isSound]
  | print _ list => exact list.forall_isSound
  | property _ _ _ _ value => exact List.forall_mem_singleton.2 value.isSound
  | _ => exact List.forall_mem_nil _

theorem Sentence.isSound (h : Sentence xs first c) : ∀ e ∈ c.expressions, e.IsSound := by
  cases h with
  | mk phrase ends => exact phrase.isSound

/-- A plain line becomes a statement with the expressions of its command. -/
theorem Sentence.isSound_plain (h : Sentence xs first c) {p : Plain}
    (statement : c.plain? first colors = some p) : p.stmt.IsSound := by
  have sound := h.isSound
  cases c <;> cases statement <;> exact Stmt.isSound_of_expressions rfl sound

theorem Block.allSound {ts : List Tree} (h : Block colors toks ts colors') :
    Stmt.AllSound (Tree.stmts ts) := by
  induction h with
  | nil => exact .nil
  | blank _ _ ih => exact ih
  | plain line statement _ ih =>
      refine .cons (line.isSound_plain statement) ?_ ih
      rw [Tree.stmt, Plain.bodies_stmt]
      exact List.forall_mem_nil _
  | branch opening _ _ _ ihBody ih =>
      refine .cons (Stmt.isSound_of_expressions rfl opening.isSound) ?_ ih
      exact List.forall_mem_cons.2 ⟨ihBody, List.forall_mem_singleton.2 .nil⟩
  | branchElse opening _ _ _ _ _ ihThen ihElse ih =>
      refine .cons (Stmt.isSound_of_expressions rfl opening.isSound) ?_ ih
      exact List.forall_mem_cons.2 ⟨ihThen, List.forall_mem_singleton.2 ihElse⟩
  | forTo opening _ _ _ ihBody ih | whileDo opening _ _ _ ihBody ih =>
      refine .cons (Stmt.isSound_of_expressions rfl opening.isSound) ?_ ih
      exact List.forall_mem_singleton.2 ihBody

theorem Properties.isSound {ps : List Property} (h : Properties toks ps) :
    ∀ p ∈ ps, p.value.IsSound := by
  induction h with
  | nil => exact List.forall_mem_nil _
  | blank _ _ ih => exact ih
  | cons line _ ih => exact List.forall_mem_cons.2 ⟨line.isSound _ List.mem_cons_self, ih⟩

theorem ClassLines.isSound {d : Class} (h : ClassLines toks d) (valid : d.base.isValid = true) :
    d.IsSound := by
  cases h with
  | single => exact ⟨valid, List.forall_mem_nil _⟩
  | lines _ inner _ => exact ⟨valid, inner.isSound⟩

theorem Items.isSound {items : List Item} (h : Items colors toks items) :
    Stmt.AllSound (items.flatMap Item.stmts) ∧ ∀ d ∈ items.flatMap Item.classes, d.IsSound := by
  induction h with
  | @statements _ _ _ ts block =>
      rw [(Item.flatMap_tree ts).1, (Item.flatMap_tree ts).2]
      exact ⟨block.allSound, List.forall_mem_nil _⟩
  | @classDef _ _ _ _ _ ts d items block definition valid _ ih =>
      simp only [List.flatMap_append, List.flatMap_cons, (Item.flatMap_tree ts).1,
        (Item.flatMap_tree ts).2, Item.stmts, Item.classes, List.nil_append, List.singleton_append]
      exact ⟨block.allSound.append ih.1,
        List.forall_mem_cons.2 ⟨definition.isSound valid, ih.2⟩⟩

theorem Script.isSound {params : List Text} {items : List Item} (h : Script toks params items)
    (name : Text) : (Compiled.ofItems name params items).program.IsSound := by
  have all : Stmt.AllSound (items.flatMap Item.stmts) ∧
      ∀ d ∈ items.flatMap Item.classes, d.IsSound := by
    induction h with
    | blank _ _ ih => exact ih
    | parameters _ rest | items rest => exact rest.isSound
  exact ⟨all.1, all.2⟩

end Grammar

/-! ### Compiled programs -/

theorem isSound_of_compileIn {file : File} {name : Text} {compiled : Compiled}
    (compiles : (compileIn file .dbase name {}).result = .ok compiled) :
    compiled.program.IsSound := by
  obtain ⟨toks, eof, params, items, -, script, rfl⟩ := script_of_compileIn compiles
  exact script.isSound _

theorem compileIn_of_compile {file : File} {limit : Int} {name : Text} {compiled : Compiled}
    (compiles : (compile file (some .dbase) limit name).result = .ok compiled) :
    (compileIn file .dbase name {}).result = .ok compiled := by
  unfold compile at compiles
  dsimp only at compiles
  split at compiles
  next compiled' same =>
    cases compiles
    exact same
  next => cases compiles

/-- A compiled program passes the check, and a machine takes it. Every run that ends, on a console
that never fails, ends well or with a fault that blames the script, and so does every building of an
object after it. -/
theorem compiled_faults (file : File) (limit : Int) (name : Text) (compiled : Compiled)
    (compiles : (compile file (some .dbase) limit name).result = .ok compiled) :
    compiled.program.fault? = none ∧
    Machine.ofProgram (some compiled.program) true = .ok { program := compiled.program } ∧
    ∀ (m : Machine) (σ : Type) (c : Console σ) (console : σ) (tracer : Trace.Tracer)
      (parent rounds : Nat) (args : List Value),
      m.program = compiled.program → (∀ message, ¬c.Fails message) →
        let ran := m.run c console tracer parent rounds args
        (ran.result ≠ .error .outOfFuel →
          ran.result = .ok () ∨
            ∃ e, ran.result = .error (.fault e) ∧ e.code.blamesScript = true) ∧
        ∀ className, (∃ inst, ran.machine.instantiate className = .ok inst) ∨
          ∃ e, ran.machine.instantiate className = .error e ∧ e.code.blamesScript = true := by
  have sound := isSound_of_compileIn (compileIn_of_compile compiles)
  refine ⟨sound.fault?, by simp [Machine.ofProgram, sound.fault?], ?_⟩
  intro m σ c console tracer parent rounds args same answers ran
  rw [← same] at sound
  constructor
  · intro ends
    cases ended : ran.result with
    | ok _ => exact .inl rfl
    | error stop =>
        cases stop with
        | outOfFuel => exact absurd ended ends
        | fault e => exact .inr ⟨e, rfl, sound.run_error answers ended⟩
  · intro className
    cases built : ran.machine.instantiate className with
    | ok inst => exact .inl ⟨inst, rfl⟩
    | error e =>
        have blames := Program.IsSound.instantiate_error (m := ran.machine) sound built
        exact .inr ⟨e, rfl, blames⟩

/-- After a run that ends well, a property that refers to a variable without a value is the
script's fault. -/
theorem compiled_faults_class :
    let file : File := ⟨0, "demo.prg", "? .T.\nCLASS c OF FORM\nTHIS.a = b + 'x'\nENDCLASS\n", 0⟩
    ∃ compiled, (compile file (some .dbase) 10 []).result = .ok compiled ∧
      let ran := Machine.run { program := compiled.program } Recorder.console {} {} 0 1 []
      ran.result = .ok () ∧
        ∃ e, ran.machine.instantiate "C" = .error e ∧ e.code.blamesScript = true := by
  intro file
  let run (compiled : Compiled) :=
    Machine.run { program := compiled.program } Recorder.console {} {} 0 1 []
  have ends : (compile file (some .dbase) 10 []).result.toOption.map (fun compiled =>
      ((run compiled).result.isOk, ((run compiled).machine.instantiate "C").isOk)) =
      some (true, false) := by
    decide +kernel
  obtain ⟨compiled, found, both⟩ := Option.map_eq_some_iff.1 ends
  obtain ⟨well, fails⟩ := Prod.mk.inj both
  have compiles : (compile file (some .dbase) 10 []).result = .ok compiled := by
    cases result : (compile file (some .dbase) 10 []).result with
    | ok compiled' =>
        rw [result] at found
        cases found
        rfl
    | error e =>
        rw [result] at found
        cases found
  have answers (message : Text) : ¬Recorder.console.Fails message := by
    rintro (failed | failed | failed) <;> cases failed
  obtain ⟨-, -, runs⟩ := compiled_faults file 10 [] compiled compiles
  obtain ⟨-, builds⟩ := runs { program := compiled.program } _ _ {} {} 0 1 [] rfl answers
  refine ⟨compiled, compiles, ?_, ?_⟩
  · cases result : (run compiled).result with
    | ok _ => rfl
    | error stop =>
        rw [result] at well
        cases well
  · rcases builds "C" with ⟨inst, built⟩ | failed
    · rw [show (run compiled).machine.instantiate "C" = .ok inst from built] at fails
      cases fails
    · exact failed

end PrgScript
