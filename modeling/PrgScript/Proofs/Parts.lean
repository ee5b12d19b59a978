import PrgScript.Program.Basic

/-!
# The parts of a program

A statement holds statements and expressions, and an expression holds expressions.
`Stmt.partsOf` and `Expr.nodes` list everything that is held at any depth, and
`Program.statements` and `Program.nodes` collect both for a program.

The check of a program is a recursion of its own that stops at the first fault.
`Program.fault?_eq_none_iff` says what it comes to: a program passes exactly if no
part of it is left out or of an unknown kind, and every class extends a known kind
of object. Operators are not looked at.
-/

namespace PrgScript

namespace Expr

/-- An expression and all expressions inside it. -/
def nodes : Expr → List Expr
  | .unary op operand line => .unary op operand line :: operand.nodes
  | .binary op left right line => .binary op left right line :: (left.nodes ++ right.nodes)
  | e => [e]

theorem mem_nodes (e : Expr) : e ∈ e.nodes := by
  cases e <;> exact List.mem_cons_self

/-- Whether there is nothing where an expression should be, or something of an unknown kind. -/
def isBroken : Expr → Bool
  | .missing | .malformed .. => true
  | _ => false

/-- A missing operand is a fault on its own, so the check need not look for it apart. -/
theorem isMissing_eq_false {e : Expr} (h : e.fault? = none) : e.isMissing = false := by
  cases e with
  | missing => cases h
  | _ => rfl

/-- An expression passes the check exactly if nothing in it is broken. -/
theorem fault?_eq_none_iff (e : Expr) : e.fault? = none ↔ ∀ x ∈ e.nodes, x.isBroken = false := by
  induction e with
  | number | string | logical | ident => simp [fault?, nodes, isBroken]
  | missing | malformed => simp [fault?, nodes, isBroken]
  | unary op operand line ih =>
      simp only [fault?, nodes, List.forall_mem_cons, ← ih]
      constructor
      · intro h
        split at h
        · cases h
        · exact ⟨rfl, h⟩
      · rintro ⟨-, h⟩
        simp [isMissing_eq_false h, h]
  | binary op left right line ihLeft ihRight =>
      simp only [fault?, nodes, List.forall_mem_cons, List.forall_mem_append, ← ihLeft, ← ihRight]
      constructor
      · intro h
        split at h
        · cases h
        · exact ⟨rfl, Option.or_eq_none_iff.1 h⟩
      · rintro ⟨-, first, second⟩
        simp [isMissing_eq_false first, isMissing_eq_false second, first, second]

end Expr

namespace Stmt

/-- The sequences of statements that a statement holds. -/
def bodies : Stmt → List (List Stmt)
  | .branch _ thenBody elseBody _ => [thenBody, elseBody]
  | .forTo _ _ _ _ body _ => [body]
  | .whileDo _ body _ => [body]
  | _ => []

/-- The expressions that a statement evaluates itself. -/
def expressions : Stmt → List Expr
  | .assign _ value _ => [value]
  | .branch condition _ _ _ => [condition]
  | .forTo _ start limit step _ _ => start :: limit :: step.toList
  | .whileDo condition _ _ => [condition]
  | .say row col value _ => [row, col, value]
  | .print values _ _ => values
  | _ => []

/-- The names of the variables that a statement sets itself. -/
def sets : Stmt → List Text
  | .declare names _ => names
  | .assign name _ _ => [name]
  | .forTo counter _ _ _ _ _ => [counter]
  | _ => []

/-- Whether a statement lacks its content or is of an unknown kind. -/
def isBroken : Stmt → Bool
  | .malformed .. => true
  | _ => false

mutual

/-- A statement and all statements inside it. -/
def parts : Stmt → List Stmt
  | .branch condition thenBody elseBody line =>
    .branch condition thenBody elseBody line :: (partsOf thenBody ++ partsOf elseBody)
  | .forTo counter start limit step body line =>
    .forTo counter start limit step body line :: partsOf body
  | .whileDo condition body line => .whileDo condition body line :: partsOf body
  | s => [s]

def partsOf : List Stmt → List Stmt
  | [] => []
  | s :: ss => s.parts ++ partsOf ss

end

theorem parts_eq (s : Stmt) : s.parts = s :: s.bodies.flatMap partsOf := by
  cases s <;> simp [parts, bodies]

/-- Induction on a sequence of statements: what the first one holds, and the ones behind it. -/
theorem block_induction {motive : List Stmt → Prop} (nil : motive [])
    (cons : ∀ s, (∀ body ∈ s.bodies, motive body) → ∀ ss, motive ss → motive (s :: ss))
    (ss : List Stmt) : motive ss := by
  refine @Stmt.rec_1 (fun s => ∀ ss, motive ss → motive (s :: ss)) motive
    ?_ ?_ ?_ ?_ ?_ ?_ ?_ ?_ ?_ ?_ nil (fun s ss head tail => head ss tail) ss
  case refine_3 => exact fun _ _ _ _ first second => cons _ (by simp [bodies, first, second])
  case refine_4 => exact fun _ _ _ _ _ _ inner => cons _ (by simp [bodies, inner])
  case refine_5 => exact fun _ _ _ inner => cons _ (by simp [bodies, inner])
  all_goals
    intros
    exact cons _ (by simp [bodies]) _ ‹_›

/-- The check of a statement in one step: the statement itself, its own expressions, and what it
holds. -/
theorem fault?_eq_none (s : Stmt) :
    s.fault? = none ↔
      s.isBroken = false ∧ (∀ e ∈ s.expressions, e.fault? = none) ∧
        ∀ body ∈ s.bodies, blockFault? body = none := by
  cases s with
  | malformed kind line =>
      simp only [fault?, isBroken]
      split <;> simp
  | _ => simp [fault?, isBroken, expressions, bodies, and_assoc]

/-- Statements pass the check exactly if none of them and nothing they hold is broken. -/
theorem blockFault?_eq_none_iff (ss : List Stmt) :
    blockFault? ss = none ↔
      ∀ s ∈ partsOf ss, s.isBroken = false ∧ ∀ e ∈ s.expressions, e.fault? = none := by
  induction ss using block_induction with
  | nil => simp [blockFault?, partsOf]
  | cons s inner ss ih =>
      have held : (∀ body ∈ s.bodies, blockFault? body = none) ↔
          ∀ x ∈ s.bodies.flatMap partsOf,
            x.isBroken = false ∧ ∀ e ∈ x.expressions, e.fault? = none := by
        rw [List.forall_mem_flatMap]
        exact forall₂_congr inner
      rw [blockFault?, Option.or_eq_none_iff, fault?_eq_none, ih, held, partsOf, parts_eq,
        List.cons_append, List.forall_mem_cons, List.forall_mem_append]
      simp only [and_assoc]

end Stmt

namespace Program

def statements (p : Program) : List Stmt := Stmt.partsOf p.body

/-- All expressions that stand in a statement or a property of a program. -/
def expressions (p : Program) : List Expr :=
  p.statements.flatMap Stmt.expressions ++ p.classes.flatMap (·.properties.map (·.value))

def nodes (p : Program) : List Expr := p.expressions.flatMap Expr.nodes

theorem mem_nodes_of_statement {p : Program} {s : Stmt} {e x : Expr} (mem : s ∈ p.statements)
    (own : e ∈ s.expressions) (inside : x ∈ e.nodes) : x ∈ p.nodes := by
  refine List.mem_flatMap.2 ⟨e, ?_, inside⟩
  exact List.mem_append_left _ (List.mem_flatMap.2 ⟨s, mem, own⟩)

theorem mem_nodes_of_property {p : Program} {c : Class} {property : Property} {x : Expr}
    (mem : c ∈ p.classes) (own : property ∈ c.properties) (inside : x ∈ property.value.nodes) :
    x ∈ p.nodes := by
  refine List.mem_flatMap.2 ⟨property.value, ?_, inside⟩
  exact List.mem_append_right _ (List.mem_flatMap.2 ⟨c, mem, List.mem_map_of_mem own⟩)

/-- A program passes the check exactly if none of its statements and expressions is broken and
every class extends a known kind of object. -/
theorem fault?_eq_none_iff (p : Program) :
    p.fault? = none ↔
      (∀ s ∈ p.statements, s.isBroken = false) ∧ (∀ x ∈ p.nodes, x.isBroken = false) ∧
        ∀ c ∈ p.classes, c.base.isValid = true := by
  have classes (c : Class) : c.fault? = none ↔
      c.base.isValid = true ∧ ∀ e ∈ c.properties.map (·.value), e.fault? = none := by
    unfold Class.fault?
    split <;> simp_all
  have nodes : (∀ x ∈ p.nodes, x.isBroken = false) ↔ ∀ e ∈ p.expressions, e.fault? = none := by
    simp only [Program.nodes, List.forall_mem_flatMap, Expr.fault?_eq_none_iff]
  rw [nodes, fault?, Option.or_eq_none_iff, Stmt.blockFault?_eq_none_iff,
    List.findSome?_eq_none_iff, expressions]
  simp only [classes, List.forall_mem_append, List.forall_mem_flatMap, statements]
  constructor
  · rintro ⟨body, declared⟩
    exact ⟨fun s mem => (body s mem).1, ⟨fun s mem => (body s mem).2,
      fun c mem => (declared c mem).2⟩, fun c mem => (declared c mem).1⟩
  · rintro ⟨whole, ⟨body, properties⟩, bases⟩
    exact ⟨fun s mem => ⟨whole s mem, body s mem⟩, fun c mem => ⟨bases c mem, properties c mem⟩⟩

end Program

end PrgScript
