import PrgScript.Proofs.LetterCase
import PrgScript.Proofs.Parts
import PrgScript.Script.Compile

/-!
# Looking at scripts through a view

Two scripts can be alike without being equal: their statements may stand on other
lines, or their names may be written in other letter case. A `View` says what is
overlooked. It maps the bytes of names, and the lines, columns and spans of places.
Everything that is made from a script can be looked at through a view: tokens,
trees, listings, the context of a statement. Two of them are alike if they look
the same.

A view may change nothing about a name but the case of ASCII letters, so nothing
that is found by name gets lost. Looking twice shows nothing new. Of an error only
its code and its place are seen.
-/

namespace PrgScript

/-- What is overlooked in names and places. -/
structure View where
  byte : UInt8 → UInt8
  line : Nat → Nat
  col : Nat → Nat
  span : Span → Span
  upper_byte (b : UInt8) : Text.upperByte (byte b) = Text.upperByte b
  byte_byte (b : UInt8) : byte (byte b) = byte b
  line_line (n : Nat) : line (line n) = line n
  col_col (n : Nat) : col (col n) = col n
  span_span (s : Span) : span (span s) = span s

namespace View

/-- The view that overlooks nothing. -/
def exact : View where
  byte := id
  line := id
  col := id
  span := id
  upper_byte _ := rfl
  byte_byte _ := rfl
  line_line _ := rfl
  col_col _ := rfl
  span_span _ := rfl

/-- The view that overlooks columns and spans. -/
def lines : View :=
  { exact with col _ := 0, span _ := ⟨0, 0, 0⟩, col_col _ := rfl, span_span _ := rfl }

/-- The view that overlooks all places. -/
def placeless : View := { lines with line _ := 0, line_line _ := rfl }

/-- The view that overlooks the case of ASCII letters in names. -/
def caseless : View :=
  { exact with
    byte := Text.upperByte
    upper_byte := Text.upperByte_upperByte
    byte_byte := Text.upperByte_upperByte }

def name (v : View) (t : Text) : Text := t.map v.byte

variable (v : View)

@[simp] theorem name_nil : v.name [] = [] := rfl

@[simp] theorem name_append (s t : Text) : v.name (s ++ t) = v.name s ++ v.name t :=
  List.map_append

@[simp] theorem name_name (t : Text) : v.name (v.name t) = v.name t := by
  rw [name, name, List.map_map]
  exact List.map_congr_left fun b _ => v.byte_byte b

theorem upperASCII_name (t : Text) : Text.upperASCII (v.name t) = Text.upperASCII t := by
  rw [Text.upperASCII_eq_map, Text.upperASCII_eq_map, name, List.map_map]
  exact List.map_congr_left fun b _ => v.upper_byte b

variable {v} {s t : Text}

/-- Names that look the same differ in the case of ASCII letters at most. -/
theorem upperASCII_of_name (same : v.name s = v.name t) :
    Text.upperASCII s = Text.upperASCII t := by
  rw [← upperASCII_name v s, ← upperASCII_name v t, same]

theorem name_join (separator : Text) (ts : List Text) :
    v.name (Text.join separator ts) = Text.join (v.name separator) (ts.map v.name) := by
  induction ts with
  | nil => rfl
  | cons t ts ih =>
      cases ts with
      | nil => rfl
      | cons t' ts => simp only [Text.join, name_append, ih, List.map_cons]

end View

/-! ### Tokens and lines -/

/-- Whether tokens of a kind can be names: identifiers and reserved words. -/
def Kind.isNaming : Kind → Bool
  | .ident | .reserved | .keyword _ => true
  | _ => false

namespace Token

/-- A token as it is seen. Its text matters for numbers and words only. -/
def seen (v : View) (tok : Token) : Token where
  kind := tok.kind
  text := if tok.kind = .number then tok.text else if tok.kind.isNaming then v.name tok.text else []
  value := tok.value
  line := v.line tok.line
  col := v.col tok.col
  span := v.span tok.span

@[simp] theorem seen_kind (v : View) (tok : Token) : (tok.seen v).kind = tok.kind := rfl

@[simp] theorem seen_line (v : View) (tok : Token) : (tok.seen v).line = v.line tok.line := rfl

theorem seen_text_of_naming {v : View} {tok : Token} (word : tok.kind.isNaming = true) :
    (tok.seen v).text = v.name tok.text := by
  have notNumber : tok.kind ≠ .number := by
    intro number
    rw [number] at word
    cases word
  simp only [seen, if_neg notNumber, if_pos word]

theorem seen_seen (v : View) (tok : Token) : (tok.seen v).seen v = tok.seen v := by
  simp only [seen, v.line_line, v.col_col, v.span_span]
  by_cases number : tok.kind = .number
  · simp only [if_pos number]
  · by_cases word : tok.kind.isNaming = true
    · simp only [if_neg number, if_pos word, View.name_name]
    · simp only [if_neg number, if_neg word]

section Same

variable {v : View} {tok tok' : Token} (same : tok.seen v = tok'.seen v)

include same

theorem kind_of_seen : tok.kind = tok'.kind :=
  show (tok.seen v).kind = (tok'.seen v).kind from congrArg Token.kind same

theorem value_of_seen : tok.value = tok'.value :=
  show (tok.seen v).value = (tok'.seen v).value from congrArg Token.value same

theorem line_of_seen : v.line tok.line = v.line tok'.line := congrArg Token.line same

theorem text_of_number (number : tok.kind = .number) : tok.text = tok'.text := by
  have texts := congrArg Token.text same
  simpa [seen, number, ← kind_of_seen same] using texts

theorem name_of_word (word : tok.kind.isNaming = true) : v.name tok.text = v.name tok'.text := by
  have word' : tok'.kind.isNaming = true := kind_of_seen same ▸ word
  rw [← seen_text_of_naming word, ← seen_text_of_naming word', same]

end Same

end Token

/-- What a view shows of an error. -/
structure Complaint where
  code : Code
  line : Nat
  col : Nat
  span : Span
deriving DecidableEq

def ScriptError.seen (v : View) (e : ScriptError) : Complaint :=
  ⟨e.code, v.line e.line, v.col e.col, v.span e.span⟩

/-- A fault as it is seen. The path of the script is not shown. -/
def Fault.seen (v : View) (fault : Fault) : Complaint := (fault.error []).seen v

theorem Fault.seen_error (v : View) (fault : Fault) (path : Text) :
    (fault.error path).seen v = fault.seen v := by
  cases fault <;> rfl

/-- A fault at a token is seen by its code and the place of the token. -/
theorem Fault.seen_at {v : View} {cause cause' : Cause} {tok tok' : Token}
    (codes : cause.code = cause'.code) (same : tok.seen v = tok'.seen v) :
    (Fault.at cause tok).seen v = (Fault.at cause' tok').seen v := by
  have line := congrArg Token.line same
  have col := congrArg Token.col same
  have span := congrArg Token.span same
  simp only [Token.seen] at line col span
  simp only [Fault.seen, Fault.error, ScriptError.seen, ScriptError.code, codes, line, col, span]

def LineEnd.seen (v : View) : LineEnd → Token ⊕ Complaint
  | .token tok => .inl (tok.seen v)
  | .error e => .inr (e.seen v)

def Line.seen (v : View) (line : Line) : List Token × (Token ⊕ Complaint) :=
  (line.tokens.map (Token.seen v), line.ending.seen v)

def Reading.seen (v : View) (r : Reading) : (List Token × (Token ⊕ Complaint)) × Int :=
  (r.line.seen v, r.parens)

def Ending.seen (v : View) : Ending → Token ⊕ Complaint
  | .eof tok => .inl (tok.seen v)
  | .error e _ => .inr (e.seen v)

def TokenStream.seen (v : View) (s : TokenStream) : List Token × (Token ⊕ Complaint) :=
  (s.tokens.map (Token.seen v), s.ending.seen v)

/-- Token sequences that look the same fall into lines that look the same. -/
theorem Line.seen_ofTokens {v : View} {ending ending' : LineEnd}
    (ends : ending.seen v = ending'.seen v) {toks toks' : List Token}
    (same : toks.map (Token.seen v) = toks'.map (Token.seen v)) :
    (ofTokens ending toks).map (Line.seen v) = (ofTokens ending' toks').map (Line.seen v) := by
  induction toks generalizing toks' with
  | nil =>
      rw [List.map_nil, eq_comm, List.map_eq_nil_iff] at same
      subst same
      simp only [ofTokens, List.map_cons, List.map_nil, Line.seen, ends]
  | cons tok toks ih =>
      cases toks' with
      | nil => cases same
      | cons tok' toks' =>
          rw [List.map_cons, List.map_cons, List.cons.injEq] at same
          obtain ⟨head, tail⟩ := same
          have lines := ih tail
          simp only [ofTokens, Token.kind_of_seen head]
          split
          · rw [List.map_cons, List.map_cons, lines]
            simp only [Line.seen, LineEnd.seen, head, List.map_nil]
          · cases whole : ofTokens ending toks with
            | nil =>
                rw [whole, List.map_nil, eq_comm, List.map_eq_nil_iff] at lines
                rw [lines]
                simp only [List.map_cons, List.map_nil, Line.seen, ends, head]
            | cons line rest =>
                cases whole' : ofTokens ending' toks' with
                | nil => rw [whole, whole'] at lines; cases lines
                | cons line' rest' =>
                    rw [whole, whole', List.map_cons, List.map_cons, List.cons.injEq] at lines
                    obtain ⟨first, rest⟩ := lines
                    simp only [Line.seen, Prod.mk.injEq] at first
                    simp only [List.map_cons, Line.seen, head, first, rest]

theorem Line.seen_ofStream {v : View} {s s' : TokenStream} (same : s.seen v = s'.seen v) :
    (ofStream s).map (Line.seen v) = (ofStream s').map (Line.seen v) := by
  obtain ⟨toks, ending⟩ := s
  obtain ⟨toks', ending'⟩ := s'
  simp only [TokenStream.seen, Prod.mk.injEq] at same
  refine seen_ofTokens ?_ same.1
  cases ending with
  | eof tok =>
      cases ending' with
      | eof tok' => exact same.2
      | error => cases same.2
  | error e tok =>
      cases ending' with
      | eof => cases same.2
      | error e' tok' => exact same.2

/-! ### Trees -/

namespace Expr

def seen (v : View) : Expr → Expr
  | .number value line => .number value (v.line line)
  | .string value line => .string value (v.line line)
  | .logical value line => .logical value (v.line line)
  | .ident name line => .ident (v.name name) (v.line line)
  | .unary op operand line => .unary op (operand.seen v) (v.line line)
  | .binary op left right line => .binary op (left.seen v) (right.seen v) (v.line line)
  | .missing => .missing
  | .malformed kind line => .malformed kind (v.line line)

theorem seen_seen (v : View) (e : Expr) : (e.seen v).seen v = e.seen v := by
  induction e with
  | unary op operand line ih => simp only [seen, ih, v.line_line]
  | binary op left right line ihLeft ihRight => simp only [seen, ihLeft, ihRight, v.line_line]
  | missing => rfl
  | ident name line => simp only [seen, v.name_name, v.line_line]
  | _ => simp only [seen, v.line_line]

/-- The text of an expression looks the same as that of what is seen of it. -/
theorem name_textIn (v : View) (e : Expr) (outer : Nat) :
    v.name ((e.seen v).textIn outer) = v.name (e.textIn outer) := by
  have parens (need : Bool) {s t : Text} (same : v.name s = v.name t) :
      v.name (parenthesize need s) = v.name (parenthesize need t) := by
    cases need with
    | false => exact same
    | true => simp [parenthesize, same]
  induction e generalizing outer with
  | ident name line => exact v.name_name name
  | unary op operand line ih =>
      simp only [seen, textIn]
      apply parens
      simp only [View.name_append, ih]
  | binary op left right line ihLeft ihRight =>
      simp only [seen, textIn]
      apply parens
      simp only [View.name_append, ihLeft, ihRight]
  | _ => rfl

theorem name_text (v : View) (e : Expr) : v.name (e.seen v).text = v.name e.text :=
  name_textIn v e 0

end Expr

namespace Stmt

mutual

def seen (v : View) : Stmt → Stmt
  | .declare names line => .declare (names.map v.name) (v.line line)
  | .assign name value line => .assign (v.name name) (value.seen v) (v.line line)
  | .branch condition thenBody elseBody line =>
    .branch (condition.seen v) (seenAll v thenBody) (seenAll v elseBody) (v.line line)
  | .forTo counter start limit step body line =>
    .forTo (v.name counter) (start.seen v) (limit.seen v) (step.map (Expr.seen v)) (seenAll v body)
      (v.line line)
  | .whileDo condition body line => .whileDo (condition.seen v) (seenAll v body) (v.line line)
  | .setColor colors line => .setColor colors (v.line line)
  | .say row col value line => .say (row.seen v) (col.seen v) (value.seen v) (v.line line)
  | .print values newline line => .print (values.map (Expr.seen v)) newline (v.line line)
  | .finish line => .finish (v.line line)
  | .malformed kind line => .malformed kind (v.line line)

def seenAll (v : View) : List Stmt → List Stmt
  | [] => []
  | s :: ss => s.seen v :: seenAll v ss

end

theorem seenAll_append (v : View) (ss ss' : List Stmt) :
    seenAll v (ss ++ ss') = seenAll v ss ++ seenAll v ss' := by
  induction ss with
  | nil => rfl
  | cons s ss ih => simp only [List.cons_append, seenAll, ih]

end Stmt

def Property.seen (v : View) (p : Property) : Property :=
  ⟨v.name p.name, p.value.seen v, v.line p.line⟩

def Class.seen (v : View) (c : Class) : Class :=
  ⟨v.name c.name, c.base, c.properties.map (Property.seen v), v.line c.line⟩

def Program.seen (v : View) (p : Program) : Program :=
  ⟨p.name, p.params.map v.name, Stmt.seenAll v p.body, p.classes.map (Class.seen v)⟩

def Compiled.seen (v : View) (c : Compiled) : Compiled :=
  ⟨c.lines.map v.name, c.program.seen v, c.isSealed⟩

/-! ### Exact views -/

section Exact

variable {v : View} (bytes : ∀ b, v.byte b = b) (lines : ∀ n, v.line n = n)

include bytes in
theorem View.name_of_exact (t : Text) : v.name t = t := List.map_id'' bytes t

include bytes lines

theorem Expr.seen_of_exact (e : Expr) : e.seen v = e := by
  induction e with
  | ident name line => rw [seen, View.name_of_exact bytes, lines]
  | unary op operand line ih => rw [seen, ih, lines]
  | binary op left right line ihLeft ihRight => rw [seen, ihLeft, ihRight, lines]
  | missing => rfl
  | _ => rw [seen, lines]

theorem Stmt.seenAll_of_exact (ss : List Stmt) : seenAll v ss = ss := by
  have names := List.map_id'' (View.name_of_exact bytes)
  have values := List.map_id'' (Expr.seen_of_exact bytes lines)
  induction ss using block_induction with
  | nil => rfl
  | cons s inner ss ih =>
      rw [seenAll, ih]
      refine congrArg (· :: ss) ?_
      cases s with
      | forTo counter start limit step body line =>
          cases step <;>
            simp_all [seen, Expr.seen_of_exact, View.name_of_exact, bodies]
      | _ => simp_all [seen, Expr.seen_of_exact, View.name_of_exact, bodies]

/-- A view that shows names and lines as they are shows everything about a program. -/
theorem Compiled.seen_of_exact (c : Compiled) : c.seen v = c := by
  have names := View.name_of_exact bytes
  have property (p : Property) : p.seen v = p := by
    rw [Property.seen, names, Expr.seen_of_exact bytes lines, lines]
  have class_ (c : Class) : c.seen v = c := by
    rw [Class.seen, names, List.map_id'' property, lines]
  obtain ⟨listing, program, isSealed⟩ := c
  obtain ⟨name, params, body, classes⟩ := program
  simp only [Compiled.seen, Program.seen, List.map_id'' names, Stmt.seenAll_of_exact bytes lines,
    List.map_id'' class_]

end Exact

end PrgScript
