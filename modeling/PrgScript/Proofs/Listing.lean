import PrgScript.Proofs.Bytes
import PrgScript.Proofs.Tree

/-!
# The listing of a whole program

A program is a sequence of items, each a tree of statements or a class. Told to
a new builder item by item, it is rebuilt: every call succeeds, and finishing
gives the parameters, the statements and the classes in order, with the listing
that `Item.listing` describes between the header and the last `end`.

A listing is made to be read line by line, so a second result is that no line
of it holds a line feed. Quoted strings, numbers and colours never do, and the
names are the only texts that a caller can put in unquoted.
-/

namespace PrgScript

open Step

/-! ### Texts of one line -/

namespace Text

/-- A text without a line feed. -/
def OneLine (t : Text) : Prop := newline ∉ t

instance (t : Text) : Decidable t.OneLine := inferInstanceAs (Decidable (¬_))

namespace OneLine

variable {s t : Text}

theorem nil : OneLine [] := List.not_mem_nil

theorem append (hs : OneLine s) (ht : OneLine t) : OneLine (s ++ t) := by
  intro h
  rcases List.mem_append.1 h with h | h
  · exact hs h
  · exact ht h

theorem append_iff : OneLine (s ++ t) ↔ OneLine s ∧ OneLine t := by
  simp [OneLine]

theorem join {separator : Text} (hs : OneLine separator) {parts : List Text}
    (h : ∀ part ∈ parts, OneLine part) : OneLine (Text.join separator parts) := by
  fun_induction Text.join separator parts with
  | case1 => exact nil
  | case2 part => exact h part (by simp)
  | case3 part parts _ ih =>
      exact ((h part (by simp)).append hs).append (ih fun p hp => h p (by simp [hp]))

theorem replicate {b : UInt8} (h : b ≠ newline) (n : Nat) : OneLine (List.replicate n b) := by
  intro mem
  exact h (List.eq_of_mem_replicate mem).symm

theorem of_isDigit (h : ∀ b ∈ t, IsDigit b) : OneLine t := by
  intro mem
  exact absurd (h _ mem) (by decide)

theorem ofNat (n : Nat) : OneLine (Text.ofNat n) :=
  of_isDigit fun _ h => isDigit_of_mem_ofNat n h

theorem ofHex (width n : Nat) : OneLine (Text.ofHex width n) := by
  refine (replicate (by decide) _).append ?_
  intro h
  obtain ⟨c, hc, same⟩ := List.mem_map.1 h
  obtain ⟨d, small, rfl⟩ := exists_of_mem_toDigits (by decide) hc
  have visible : ∀ d < 16, UInt8.ofNat (Nat.digitChar d).toNat ≠ newline := by decide
  exact visible d small same

theorem quoteChar (c : Char) : OneLine (Text.quoteChar c) := by
  unfold Text.quoteChar
  split
  · decide
  split
  · decide
  split
  next printable =>
      intro h
      have feed : c.toNat = 10 := toNat_of_mem_ofChar h (by decide)
      have : c = '\n' := Char.toNat_inj.1 feed
      subst this
      revert printable
      decide +kernel
  next =>
      have escape {mark : Text} (h : OneLine mark) (width n : Nat) :
          OneLine (mark ++ Text.ofHex width n) := h.append (ofHex width n)
      repeat' split
      all_goals first | decide | exact escape (by decide) _ _

theorem quoteAfter (skip : Nat) (t : Text) : OneLine (Text.quoteAfter skip t) := by
  fun_induction Text.quoteAfter skip t with
  | case1 => exact nil
  | case2 skip b t ih => exact ih
  | case3 b t _ ih => exact (quoteChar _).append ih
  | case4 b t _ ih => exact ((by decide : OneLine _).append (ofHex _ _)).append ih

theorem quote (t : Text) : OneLine (Text.quote t) :=
  ((by decide : OneLine _).append (quoteAfter 0 t)).append (by decide)

theorem positional (d : Number.Decimal) : OneLine d.positional := by
  have digits := ofNat d.digits
  unfold Number.Decimal.positional
  split
  · exact digits.append (replicate (by decide) _)
  simp only
  split
  · exact (by decide : OneLine _).append ((replicate (by decide) _).append digits)
  · refine OneLine.append (OneLine.append ?_ (by decide)) ?_
    · exact fun h => digits (List.mem_of_mem_take h)
    · exact fun h => digits (List.mem_of_mem_drop h)

theorem format (x : Float) : OneLine (Number.format x) := by
  unfold Number.format
  split
  · decide
  · split <;> decide
  next mantissa exponent _ =>
      have body : OneLine (if mantissa = 0 then Text.ofString "0"
          else ((Number.shortest mantissa exponent).trim 20).positional) := by
        split
        · decide
        · exact positional _
      simp only
      split
      · exact (by decide : OneLine _).append body
      · exact body

theorem color (c : Color) : OneLine c.text := by
  unfold Color.text
  obtain ⟨r, g, b⟩ := c.rgb
  have mark {t : Text} (h : OneLine t) (n : Nat) : OneLine (t ++ Text.ofNat n) := h.append (ofNat n)
  exact (mark ((mark ((mark (by decide) r).append (by decide)) g).append (by decide)) b).append
    (by decide)

theorem logical (b : Bool) : OneLine (logicalText b) := by
  cases b <;> decide

theorem widget (w : Widget) : OneLine w.name := by
  cases w
  case unknown code => exact ((by decide : OneLine _).append (ofNat _)).append (by decide)
  all_goals decide

theorem op (o : Op) : OneLine o.text := by
  cases o
  case unknown => exact (by decide : OneLine (ofString "?"))
  all_goals decide

end OneLine

end Text

/-! ### The names a program is written with -/

namespace Expr

def names : Expr → List Text
  | .ident name _ => [name]
  | .unary _ operand _ => operand.names
  | .binary _ left right _ => left.names ++ right.names
  | _ => []

theorem oneLine_textIn (e : Expr) (h : ∀ name ∈ e.names, name.OneLine) (outer : Nat) :
    (e.textIn outer).OneLine := by
  have wrap (need : Bool) {t : Text} (h : t.OneLine) : (parenthesize need t).OneLine := by
    cases need
    · exact h
    · exact ((by decide : Text.OneLine _).append h).append (by decide)
  have blank : (Text.ofString " ").OneLine := by decide
  induction e generalizing outer with
  | number value line => exact .format value
  | string value line => exact .quote value
  | logical value line => exact .logical value
  | ident name line => exact h name (by simp [names])
  | unary op operand line ih =>
      refine wrap _ (((Text.OneLine.op op).append ?_).append (ih h _))
      unfold Text.onlyIf
      split
      · exact blank
      · exact .nil
  | binary op left right line ihLeft ihRight =>
      have left' := ihLeft (fun name mem => h name (by simp [names, mem])) op.precedence
      have right' := ihRight (fun name mem => h name (by simp [names, mem])) (op.precedence + 1)
      exact wrap _ ((((left'.append blank).append (.op op)).append blank).append right')
  | missing => exact .nil
  | malformed kind line => exact (by decide : Text.OneLine (Text.ofString "<invalid>"))

theorem oneLine_text {e : Expr} (h : ∀ name ∈ e.names, name.OneLine) : e.text.OneLine :=
  e.oneLine_textIn h 0

end Expr

namespace Plain

def names : Plain → List Text
  | .declare names _ => names
  | .assign name value _ => name :: value.names
  | .setColor .. => []
  | .say row col value _ => row.names ++ col.names ++ value.names
  | .print values _ _ => values.flatMap Expr.names
  | .finish _ => []

theorem oneLine_of_mem_texts {p : Plain} (h : ∀ name ∈ p.names, name.OneLine) :
    ∀ text ∈ p.texts, text.OneLine := by
  have value {e : Expr} (mem : ∀ name ∈ e.names, name ∈ p.names) : e.text.OneLine :=
    Expr.oneLine_text fun name hname => h name (mem name hname)
  intro text mem
  cases p with
  | declare names line =>
      obtain ⟨name, hname, rfl⟩ := List.mem_map.1 mem
      have := h name hname
      simp +decide [Text.OneLine.append_iff, this]
  | assign name e line =>
      have := h name (by simp [names])
      have := value (e := e) (by simp +contextual [names])
      simp_all +decide [texts, Text.OneLine.append_iff]
  | setColor colors line =>
      simp_all +decide [texts, Text.OneLine.append_iff, Text.OneLine.color]
  | say row col e line =>
      have := value (e := row) (by simp +contextual [names])
      have := value (e := col) (by simp +contextual [names])
      have := value (e := e) (by simp +contextual [names])
      simp_all +decide [texts, Text.OneLine.append_iff]
  | print values newline line =>
      have list : (Text.join ", " (values.map Expr.text)).OneLine := by
        refine .join (by decide) fun part hpart => ?_
        obtain ⟨e, he, rfl⟩ := List.mem_map.1 hpart
        exact value fun name hname => List.mem_flatMap.2 ⟨e, he, hname⟩
      cases newline <;> simp_all +decide [texts, Text.OneLine.append_iff]
  | finish line => simp_all +decide [texts]

end Plain

namespace Tree

mutual

def names : Tree → List Text
  | .plain p => p.names
  | .branch condition thenBody _ => condition.names ++ namesOf thenBody
  | .branchElse condition thenBody elseBody _ =>
    condition.names ++ namesOf thenBody ++ namesOf elseBody
  | .forTo counter start limit step body _ =>
    counter :: (start.names ++ limit.names ++ step.elim [] Expr.names) ++ namesOf body
  | .whileDo condition body _ => condition.names ++ namesOf body

def namesOf : List Tree → List Text
  | [] => []
  | t :: ts => t.names ++ namesOf ts

end

theorem oneLine_indented {text : Text} (h : text.OneLine) (depth : Nat) :
    (indented depth text).OneLine :=
  (Text.OneLine.replicate (by decide) _).append h

/-- A line is a keyword, the text of an expression whose names are of one line, or both. -/
theorem oneLine_head {e : Expr} (h : ∀ name ∈ e.names, name.OneLine) {before after : Text}
    (hb : before.OneLine) (ha : after.OneLine) (depth : Nat) :
    (indented depth (before ++ e.text ++ after)).OneLine :=
  oneLine_indented ((hb.append (Expr.oneLine_text h)).append ha) depth

theorem oneLine_of_mem_listingOf {ts : List Tree} (h : ∀ name ∈ namesOf ts, name.OneLine)
    (depth : Nat) : ∀ line ∈ listingOf depth ts, line.OneLine := by
  have last (depth : Nat) : (indented depth "end").OneLine := oneLine_indented (by decide) depth
  induction ts using forest_induction generalizing depth with
  | nil => simp [listingOf]
  | plain p ts ih =>
      simp only [namesOf, names, List.forall_mem_append] at h
      simp only [listingOf, listing, List.forall_mem_append, List.forall_mem_map]
      exact ⟨fun text mem => oneLine_indented (Plain.oneLine_of_mem_texts h.1 text mem) depth,
        ih h.2 depth⟩
  | branch condition thenBody line ts ihThen ih =>
      simp only [namesOf, names, List.forall_mem_append] at h
      obtain ⟨⟨hc, hThen⟩, rest⟩ := h
      simp only [listingOf, listing, List.forall_mem_append, List.forall_mem_cons]
      exact ⟨⟨oneLine_head hc (by decide) (by decide) depth, ihThen hThen _, last depth, by simp⟩,
        ih rest depth⟩
  | branchElse condition thenBody elseBody line ts ihThen ihElse ih =>
      simp only [namesOf, names, List.forall_mem_append] at h
      obtain ⟨⟨⟨hc, hThen⟩, hElse⟩, rest⟩ := h
      simp only [listingOf, listing, List.forall_mem_append, List.forall_mem_cons]
      exact ⟨⟨oneLine_head hc (by decide) (by decide) depth, ihThen hThen _,
        oneLine_indented (by decide) depth, ihElse hElse _, last depth, by simp⟩, ih rest depth⟩
  | forTo counter start limit step body line ts ihBody ih =>
      simp only [namesOf, names, List.forall_mem_append, List.forall_mem_cons] at h
      obtain ⟨⟨⟨hcounter, ⟨hstart, hlimit⟩, hstep⟩, hbody⟩, rest⟩ := h
      have step' : (step.elim (Text.ofString "1") Expr.text).OneLine := by
        cases step with
        | none => decide
        | some e => exact Expr.oneLine_text hstep
      simp only [listingOf, listing, List.forall_mem_append, List.forall_mem_cons]
      refine ⟨⟨oneLine_indented ?_ depth, ihBody hbody _, last depth, by simp⟩, ih rest depth⟩
      simp +decide [Text.OneLine.append_iff, hcounter, Expr.oneLine_text hstart,
        Expr.oneLine_text hlimit, step']
  | whileDo condition body line ts ihBody ih =>
      simp only [namesOf, names, List.forall_mem_append] at h
      obtain ⟨⟨hc, hbody⟩, rest⟩ := h
      simp only [listingOf, listing, List.forall_mem_append, List.forall_mem_cons]
      exact ⟨⟨oneLine_head hc (by decide) (by decide) depth, ihBody hbody _, last depth, by simp⟩,
        ih rest depth⟩

end Tree

/-! ### Items -/

/-- What stands at the top of a program: a statement, or a class that extends a known kind of
object. -/
inductive Item where
  | tree (t : Tree)
  | classDef (c : Class) (valid : c.base.isValid = true)

namespace Item

def calls : Item → List Builder.Call
  | .tree t => t.calls
  | .classDef c _ =>
    .beginClass c.name c.base c.line ::
      (c.properties.map (fun p => .classProperty p.name p.value p.line) ++ [.endClass])

def stmts : Item → List Stmt
  | .tree t => [t.stmt]
  | .classDef .. => []

def classes : Item → List Class
  | .tree _ => []
  | .classDef c _ => [c]

/-- The line of a property in the listing, without indentation. -/
def propertyText (p : Property) : Text := "this." ++ p.name ++ " = " ++ p.value.text

/-- The listing of an item. The constructor of a class stands one level deeper than the class, and
what the constructor does two. -/
def listing : Item → List Text
  | .tree t => t.listing 1
  | .classDef c _ =>
    [Tree.indented 1 ("class " ++ c.name ++ " extends " ++ c.base.name),
      Tree.indented 2 "constructor()", Tree.indented 3 "super()"] ++
    c.properties.map (fun p => Tree.indented 3 (propertyText p)) ++
    [Tree.indented 2 "end", Tree.indented 1 "end"]

def names : Item → List Text
  | .tree t => t.names
  | .classDef c _ => c.name :: c.properties.flatMap fun p => p.name :: p.value.names

theorem oneLine_of_mem_listing {item : Item} (h : ∀ name ∈ item.names, name.OneLine) :
    ∀ line ∈ item.listing, line.OneLine := by
  cases item with
  | tree t =>
      have names : ∀ name ∈ Tree.namesOf [t], name.OneLine := by
        simpa [Tree.namesOf, Item.names] using h
      simpa [Tree.listingOf, listing] using Tree.oneLine_of_mem_listingOf names 1
  | classDef c valid =>
      simp only [names, List.forall_mem_cons, List.forall_mem_flatMap] at h
      obtain ⟨hname, hproperties⟩ := h
      have fixed {text : Text} (h : text.OneLine) (depth : Nat) := Tree.oneLine_indented h depth
      simp only [listing, List.forall_mem_append, List.forall_mem_cons, List.forall_mem_map]
      refine ⟨⟨⟨fixed ?_ 1, fixed (by decide) 2, fixed (by decide) 3, by simp⟩,
        fun p hp => fixed ?_ 3⟩, fixed (by decide) 2, fixed (by decide) 1, by simp⟩
      · simp +decide [Text.OneLine.append_iff, hname, Text.OneLine.widget]
      · obtain ⟨hp, hvalue⟩ := hproperties p hp
        simp +decide [propertyText, Text.OneLine.append_iff, hp, Expr.oneLine_text hvalue]

end Item

namespace Builder

/-- A builder between two items of the top level. -/
structure Top (b : Builder) : Prop extends Live b where
  level : b.depth = 1
  closed : b.frames = []
  noClass : b.openClass = none

/-- The state with statements and classes added to the program. -/
def extend (stmts : List Stmt) (classes : List Class) (b : Builder) : Builder :=
  let program := b.compiled.program
  { b with
    compiled :=
      { b.compiled with
        program :=
          { program with body := program.body ++ stmts, classes := program.classes ++ classes } } }

variable {b : Builder}

theorem Top.addLines (top : b.Top) (lines : List Text) : (b.addLines lines).Top where
  toLive := top.toLive.addLines lines
  level := (b.addLines_depth lines).trans top.level
  closed := (b.addLines_frames lines).trans top.closed
  noClass := (b.addLines_openClass lines).trans top.noClass

theorem Top.extend (top : b.Top) (stmts : List Stmt) (classes : List Class) :
    (b.extend stmts classes).Top :=
  ⟨⟨top.unfinished, top.unsealed, top.deep⟩, top.level, top.closed, top.noClass⟩

theorem extend_extend (b : Builder) (stmts stmts' : List Stmt) (classes classes' : List Class) :
    (b.extend stmts classes).extend stmts' classes' =
      b.extend (stmts ++ stmts') (classes ++ classes') := by
  simp [extend]

theorem addLines_extend (b : Builder) (lines : List Text) (stmts : List Stmt)
    (classes : List Class) :
    (b.extend stmts classes).addLines lines = (b.addLines lines).extend stmts classes := by
  induction lines generalizing b with
  | nil => rfl
  | cons line lines ih =>
      have first : (b.extend stmts classes).addLine line =
          (b.addLine line).extend stmts classes := by
        cases h : b.hasHeader <;> simp [addLine, withHeader, Builder.extend, h]
      change Builder.addLines lines ((b.extend stmts classes).addLine line) = _
      rw [first]
      exact ih (b.addLine line)

/-- The state inside the constructor of a class of the top level. -/
def inClass (c : Class) (b : Builder) : Builder :=
  { b with depth := 3, frames := [⟨.classBody, 1⟩], openClass := some c }

theorem Live.inClass (live : b.Live) (c : Class) : (b.inClass c).Live :=
  ⟨live.unfinished, live.unsealed, by simp [Builder.inClass]⟩

theorem addLines_inClass (b : Builder) (lines : List Text) (c : Class) :
    (b.inClass c).addLines lines = (b.addLines lines).inClass c :=
  addLines_moved b lines 3 [⟨.classBody, 1⟩] (some c)

theorem beginClass_of_top (top : b.Top) {c : Class} (valid : c.base.isValid = true) :
    b.call (.beginClass c.name c.base c.line) =
      (.ok (), (b.addLines
        [Tree.indented 1 ("class " ++ c.name ++ " extends " ++ c.base.name),
          Tree.indented 2 "constructor()", Tree.indented 3 "super()"]).inClass
        { c with properties := [] }) := by
  refine (outcome_beginClass top.toLive top.noClass valid c.line).trans ?_
  simp [inClass, top.level, top.closed, Tree.indented_eq]

theorem classProperty_of_inClass (live : b.Live) (c : Class) (p : Property) :
    (b.inClass c).call (.classProperty p.name p.value p.line) =
      (.ok (), (b.addLine (Tree.indented 3 (Item.propertyText p))).inClass
        { c with properties := c.properties ++ [p] }) := by
  refine (outcome_classProperty (live.inClass c) rfl p.name p.value p.line).trans ?_
  have text : indentation (b.inClass c).depth ++ ("this." ++ p.name ++ " = " ++ p.value.text) =
      Tree.indented 3 (Item.propertyText p) := (Tree.indented_eq 3 _).symm
  rw [text, show (b.inClass c).addLine _ = (b.addLine _).inClass c from addLines_inClass b [_] c]
  rfl

theorem performs_properties (live : b.Live) (c : Class) (properties : List Property) :
    Performs (b.inClass c) (properties.map fun p => .classProperty p.name p.value p.line)
      ((b.addLines (properties.map fun p => Tree.indented 3 (Item.propertyText p))).inClass
        { c with properties := c.properties ++ properties }) := by
  induction properties generalizing b c with
  | nil => simpa [addLines] using Performs.nil (b.inClass c)
  | cons p properties ih =>
      refine .cons (classProperty_of_inClass live c p) ?_
      simpa [addLines] using ih (live.addLine _) { c with properties := c.properties ++ [p] }

theorem endClass_of_inClass (top : b.Top) (c : Class) :
    (b.inClass c).call .endClass =
      (.ok (), (b.addLines [Tree.indented 2 "end", Tree.indented 1 "end"]).extend [] [c]) := by
  refine (outcome_endClass (top.toLive.inClass c) rfl (by simp [inClass]) (by decide) rfl).trans ?_
  obtain ⟨⟨lines, program, _⟩, depth, hasHeader, _, frames, _⟩ := b
  obtain ⟨⟨rfl, rfl, _⟩, rfl, rfl, rfl⟩ := top
  cases hasHeader <;> simp [addLines, addLine, withHeader, inClass, extend, Tree.indented_eq]

/-- An item adds the lines of its listing, its statements and its classes. -/
theorem performs_item (top : b.Top) (item : Item) :
    Performs b item.calls ((b.addLines item.listing).extend item.stmts item.classes) := by
  cases item with
  | tree t =>
      have grown := grows [t] b 1 top.toLive top.level
      simp only [Tree.callsOf, List.append_nil, grow, Tree.listingOf, Tree.stmts] at grown
      have added : (b.addLines (t.listing 1)).addStmts [t.stmt] =
          (b.addLines (t.listing 1)).extend [t.stmt] [] := by
        simp [addStmts, addStmt, addToBody, extend, top.closed]
      rwa [added] at grown
  | classDef c valid =>
      refine .cons (beginClass_of_top top valid)
        ((performs_properties (top.toLive.addLines _) _ c.properties).append (.single ?_))
      rw [endClass_of_inClass ((top.addLines _).addLines _)]
      simp only [Item.listing, addLines_append, Item.stmts, Item.classes, List.nil_append]

theorem performs_items (top : b.Top) (items : List Item) :
    Performs b (items.flatMap Item.calls)
      ((b.addLines (items.flatMap Item.listing)).extend (items.flatMap Item.stmts)
        (items.flatMap Item.classes)) := by
  induction items generalizing b with
  | nil => simpa [addLines, extend] using Performs.nil b
  | cons item items ih =>
      refine (performs_item top item).append ?_
      have rest := ih ((top.addLines item.listing).extend item.stmts item.classes)
      rw [addLines_extend, extend_extend, ← addLines_append] at rest
      exact rest

def startWith (name : Text) (params : List Text) : Builder :=
  { compiled := { program := { name, params } } }

theorem top_startWith (name : Text) (params : List Text) : (startWith name params).Top :=
  ⟨⟨rfl, rfl, Int.one_nonneg⟩, rfl, rfl, rfl⟩

end Builder

open Builder

/-- What a build should give for the items of a program. -/
def Compiled.ofItems (name : Text) (params : List Text) (items : List Item) : Compiled where
  lines := header params :: (items.flatMap Item.listing ++ [Text.ofString "end"])
  program :=
    { name, params, body := items.flatMap Item.stmts, classes := items.flatMap Item.classes }

namespace Builder

theorem finish_items (name : Text) (params : List Text) (items : List Item) :
    ∃ b', outcome finish
        (((startWith name params).addLines (items.flatMap Item.listing)).extend
          (items.flatMap Item.stmts) (items.flatMap Item.classes)) =
      (.ok (Compiled.ofItems name params items), b') := by
  let b := (startWith name params).addLines (items.flatMap Item.listing)
  let ended := b.extend (items.flatMap Item.stmts) (items.flatMap Item.classes)
  have top : ended.Top := ((top_startWith name params).addLines _).extend _ _
  have written : (b.addLine "end").compiled = _ :=
    addLines_addLine_compiled (startWith name params) (items.flatMap Item.listing) "end"
  have compiled : (ended.addLine "end").compiled = Compiled.ofItems name params items := by
    have moved : ended.addLine "end" = (b.addLine "end").extend _ _ :=
      addLines_extend b [Text.ofString "end"] _ _
    rw [moved, extend, written]
    rfl
  exact ⟨_, by rw [← compiled]; exact outcome_finish top.toLive top.closed⟩

/-- Telling a new builder the parameters and then the items rebuilds the program they describe,
line by line. Without parameters the first call makes no difference. -/
theorem build_items (name : Text) (params : List Text) (items : List Item) :
    ∃ b compiled b',
      Performs (start name) (.setParams params :: items.flatMap Item.calls) b ∧
      (params = [] → Performs (start name) (items.flatMap Item.calls) b) ∧
      outcome finish b = (.ok compiled, b') ∧
      compiled.program =
        { name, params, body := items.flatMap Item.stmts, classes := items.flatMap Item.classes } ∧
      compiled.lines =
        ("proc main(" ++ Text.join ", " params ++ ")") ::
          (items.flatMap Item.listing ++ [Text.ofString "end"]) ∧
      ((∀ name ∈ params ++ items.flatMap Item.names, name.OneLine) →
        ∀ line ∈ compiled.lines, line.OneLine) := by
  have first : (start name).call (.setParams params) = (.ok (), startWith name params) := rfl
  have performs := performs_items (top_startWith name params) items
  obtain ⟨b', finished⟩ := finish_items name params items
  refine ⟨_, Compiled.ofItems name params items, b', .cons first performs, ?_, finished, rfl, rfl,
    fun h => ?_⟩
  · rintro rfl
    exact performs
  simp only [List.forall_mem_append, List.forall_mem_flatMap] at h
  simp only [Compiled.ofItems, List.forall_mem_cons, List.forall_mem_append,
    List.forall_mem_flatMap]
  refine ⟨?_, fun item mem => Item.oneLine_of_mem_listing (h.2 item mem), by decide, by simp⟩
  have list : (Text.join ", " params).OneLine := .join (by decide) h.1
  simp +decide [header, Text.OneLine.append_iff, list]

/-- A branch with an empty else part and a loop inside, and a class whose property holds a line
feed: its listing has no line feed within a line. -/
theorem build_items_form :
    let params : List Text := ["who"]
    let items : List Item :=
      [.tree (.branchElse (.ident "who" 2)
          [.forTo "i" (.ident "a" 3) (.ident "b" 3) none [.plain (.print [.ident "i" 4] true 4)] 3]
          [] 2),
        .classDef { name := "Main", base := .form, line := 7
                    properties := [⟨"text", .string [72, 10] 8, 8⟩] } rfl]
    (∀ name ∈ params ++ items.flatMap Item.names, name.OneLine) ∧
      ∃ b compiled b',
        Performs (start "demo") (.setParams params :: items.flatMap Item.calls) b ∧
        outcome finish b = (.ok compiled, b') ∧ ∀ line ∈ compiled.lines, line.OneLine := by
  intro params items
  have named : ∀ name ∈ params ++ items.flatMap Item.names, name.OneLine := by decide
  obtain ⟨b, compiled, b', performs, -, finished, -, -, lines⟩ := build_items "demo" params items
  exact ⟨named, b, compiled, b', performs, finished, lines named⟩

end Builder

end PrgScript
