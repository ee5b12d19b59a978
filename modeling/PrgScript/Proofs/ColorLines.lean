import PrgScript.Proofs.Placement
import PrgScript.Proofs.Soundness

/-!
# The lines that choose colours

A line that chooses a foreground only takes its background from the lines before it. Which
lines these are is decided by how the script is written: `ColorLine.among` collects the lines
of a sequence of tokens that choose colours, in order, and `ColorLine.choices` goes through
them from the first to the last.

The rules of the grammar thread the colours through the lines in just this way, whatever
blocks the lines stand in. So the statements of a compiled program that choose colours are,
from the first to the last and at any depth, the choices of the script's lines. The lines are
told apart by their numbers, since no two statements share a line.
-/

namespace PrgScript

open Step Grammar

/-! ### The order of tokens -/

/-- A token that stands before another: not on a later line, and on an earlier one if it ends
its line. -/
structure Token.Before (a b : Token) : Prop where
  le : a.line ≤ b.line
  lt : a.kind.isEnd = true → a.line < b.line

theorem Cursor.line_le_skip (n : Nat) (c : Cursor) : c.pos.line ≤ (c.skip n).pos.line := by
  rw [skip_eq, Pos.foldl_advance]
  exact Nat.le_add_right _ _

namespace Scanner

/-- A line feed token is a line feed. -/
theorem char_of_newline {d : Dialect} {g : Glyph} {rest : List Glyph} {value : Text} {more : Nat}
    (h : lexeme d g rest = .token .newline value more) : g.char = '\n' := by
  rcases lexeme_inv h with ⟨-, word⟩ | ⟨-, numeral⟩ | literal | ⟨-, lineFeed⟩
  · obtain ⟨-, ⟨name, -⟩ | reserved⟩ := identifier_inv word
    · cases name
    · cases reserved
  · cases kind_of_number numeral
  · cases (stringRest_inv literal).1
  · exact lineFeed rfl

/-- A step of scanning goes on to later lines only, and to the next one at least if it gives a
token that ends its line. -/
theorem Gives.lines {file : File} {d : Dialect} {c c' : Cursor} {result : Scanned}
    (h : Gives file d c result c') :
    c.pos.line ≤ result.token.line ∧ result.token.line ≤ c'.pos.line ∧
      (result.token.kind = .newline → result.token.line < c'.pos.line) := by
  cases h with
  | @eof count => exact ⟨c.line_le_skip count, Nat.le_refl _, fun same => by cases same⟩
  | @token count more g rest kind value skipped ahead lexed =>
      refine ⟨c.line_le_skip count, Cursor.line_le_skip _ _, ?_⟩
      rintro ⟨⟩
      have ends : g.isEnd = true := beq_iff_eq.2 (char_of_newline lexed)
      show (c.skip count).pos.line < ((c.skip count).skip (more + 1)).pos.line
      rw [Cursor.skip_eq (more + 1), Pos.foldl_advance, ahead, List.take_succ_cons,
        List.countP_cons_of_pos ends]
      show _ < _ + (_ + 1)
      omega
  | @badComment before more =>
      exact ⟨c.line_le_skip (before + more + 1), Nat.le_refl _, fun same => by cases same⟩
  | @badLexeme count start more =>
      refine ⟨?_, Nat.le_refl _, fun same => by cases same⟩
      exact Nat.le_trans (c.line_le_skip count) (Cursor.line_le_skip _ _)

end Scanner

namespace TokenStream

variable {file : File} {d : Dialect}

theorem before_scanFrom (fuel : Nat) (c : Cursor) :
    (∀ tok ∈ (scanFrom file d fuel c).all, c.pos.line ≤ tok.line) ∧
      (scanFrom file d fuel c).all.Pairwise Token.Before := by
  induction fuel generalizing c with
  | zero => simp [scanFrom, all, Scanner.tokenBetween]
  | succ fuel ih =>
      obtain ⟨behind, ahead, next⟩ := (Scanner.gives_scan file d c).lines
      rw [scanFrom]
      split
      next => exact ⟨fun tok mem => (List.not_mem_nil mem).elim, .nil⟩
      next token c' scanned =>
        rw [scanned] at behind ahead next
        split
        next => exact ⟨List.forall_mem_singleton.2 behind, List.pairwise_singleton _ _⟩
        next inside =>
          obtain ⟨later, ordered⟩ := ih c'
          rw [all_cons, List.forall_mem_cons, List.pairwise_cons]
          refine ⟨⟨behind, fun tok mem => ?_⟩, fun tok mem => ⟨?_, fun ends => ?_⟩, ordered⟩
          · exact Nat.le_trans (Nat.le_trans behind ahead) (later tok mem)
          · exact Nat.le_trans ahead (later tok mem)
          · have newline : token.kind = .newline := by
              apply Classical.byContradiction
              intro other
              rw [Compile.isEnd_eq_false other inside] at ends
              cases ends
            exact Nat.lt_of_lt_of_le (next newline) (later tok mem)

/-- The tokens of a script stand in the order of their lines. -/
theorem before_ofFile (file : File) (d : Dialect) : (ofFile file d).all.Pairwise Token.Before :=
  (before_scanFrom _ _).2

end TokenStream

/-! ### Lines -/

/-- A line that chooses colours: its number and its choice. -/
structure ColorLine where
  line : Nat
  choice : ColorChoice
deriving DecidableEq, Repr

namespace ColorLine

/-- What a command chooses that starts with a token. -/
def ofCommand? (first : Token) : Command → Option ColorLine
  | .setColor choice => some ⟨first.line, choice⟩
  | _ => none

/-- What a line of tokens chooses, if it is a statement that chooses colours. -/
def ofTokens? (toks : List Token) : Option ColorLine :=
  match toks, (outcome Read.command ⟨⟨toks, .token { kind := .newline }⟩, 0⟩).1 with
  | first :: _, .ok c => ofCommand? first c
  | _, _ => none

theorem ofTokens?_phrase {first : Token} {more : List Token} {c : Command}
    (phrase : Phrase (first :: more) c) : ofTokens? (first :: more) = ofCommand? first c := by
  unfold ofTokens?
  rw [Read.outcome_command rfl phrase]

theorem line_of_ofTokens? {toks : List Token} {l : ColorLine} (h : ofTokens? toks = some l) :
    ∃ tok ∈ toks, l.line = tok.line := by
  unfold ofTokens? at h
  split at h
  next first more c _ =>
    refine ⟨first, List.mem_cons_self, ?_⟩
    cases c <;> cases h
    rfl
  next => cases h

/-- The lines among tokens that choose colours, in order. -/
def among (toks : List Token) : List ColorLine :=
  (toks.splitOnP (·.kind.isEnd)).filterMap ofTokens?

@[simp] theorem among_nil : among [] = [] := rfl

section Split

variable {line toks : List Token} {stop : Token} (inside : ∀ tok ∈ line, tok.kind.isEnd = false)

include inside

theorem among_last : among line = (ofTokens? line).toList := by
  rw [among, List.splitOnP_eq_singleton inside, List.filterMap_cons]
  cases ofTokens? line <;> rfl

theorem among_line (ends : stop.kind.isEnd = true) :
    among (line ++ stop :: toks) = (ofTokens? line).toList ++ among toks := by
  have split := List.splitOnP_append_cons (p := fun tok : Token => tok.kind.isEnd) line toks ends
  rw [among, split, List.filterMap_append]
  exact congrArg (· ++ among toks) (among_last inside)

end Split

/-- The lines that choose colours are lines of tokens, and stand in the order of these. -/
theorem pairwise_among {toks : List Token} (ordered : toks.Pairwise Token.Before) :
    (∀ l ∈ among toks, ∃ tok ∈ toks, l.line = tok.line) ∧
      (among toks).Pairwise (·.line < ·.line) := by
  have own {line : List Token} : ∀ l ∈ (ofTokens? line).toList, ∃ tok ∈ line, l.line = tok.line :=
    fun l mem => line_of_ofTokens? (Option.mem_toList.1 mem)
  have one (line : List Token) : (ofTokens? line).toList.Pairwise (·.line < ·.line) := by
    cases ofTokens? line with
    | none => exact .nil
    | some l => exact List.pairwise_singleton _ _
  cases found : toks.find? (·.kind.isEnd) with
  | none =>
      have inside : ∀ tok ∈ toks, tok.kind.isEnd = false := by simpa using found
      rw [among_last inside]
      exact ⟨own, one toks⟩
  | some stop =>
      obtain ⟨ends, line, rest, rfl, others⟩ := List.find?_eq_some_iff_append.1 found
      have inside : ∀ tok ∈ line, tok.kind.isEnd = false := by simpa using others
      obtain ⟨-, tail, across⟩ := List.pairwise_append.1 ordered
      obtain ⟨later, tail⟩ := List.pairwise_cons.1 tail
      obtain ⟨lines, increasing⟩ := pairwise_among tail
      rw [among_line inside ends, List.forall_mem_append, List.pairwise_append]
      refine ⟨⟨fun l mem => ?_, fun l mem => ?_⟩, one line, increasing, fun l mem l' mem' => ?_⟩
      · obtain ⟨tok, mem, same⟩ := own l mem
        exact ⟨tok, List.mem_append_left _ mem, same⟩
      · obtain ⟨tok, mem, same⟩ := lines l mem
        exact ⟨tok, List.mem_append_right _ (List.mem_cons_of_mem _ mem), same⟩
      · -- The token between the two lines ends the first one.
        obtain ⟨tok, mem, same⟩ := own l mem
        obtain ⟨tok', mem', same'⟩ := lines l' mem'
        have first := (across tok mem stop List.mem_cons_self).le
        have second := (later tok' mem').lt ends
        omega
termination_by toks.length

/-! ### Choices -/

def after (colors : ColorPair) (lines : List ColorLine) : ColorPair :=
  lines.foldl (fun colors l => Compile.chosen colors l.choice) colors

/-- The colours that lines choose one after another, each with the number of its line. -/
def choices (colors : ColorPair) : List ColorLine → List (ColorPair × Nat)
  | [] => []
  | l :: lines =>
    (Compile.chosen colors l.choice, l.line) :: choices (Compile.chosen colors l.choice) lines

theorem choices_append (colors : ColorPair) (lines lines' : List ColorLine) :
    choices colors (lines ++ lines') =
      choices colors lines ++ choices (after colors lines) lines' := by
  induction lines generalizing colors with
  | nil => rfl
  | cons l lines ih => exact congrArg (_ :: ·) (ih _)

theorem after_take_succ (colors : ColorPair) (lines : List ColorLine) (i : Fin lines.length) :
    after colors (lines.take (i + 1)) =
      Compile.chosen (after colors (lines.take i)) (lines.get i).choice := by
  rw [after, List.take_succ_eq_append_getElem i.isLt, List.foldl_append]
  rfl

/-- Each line chooses what is in effect behind it. -/
theorem choices_eq (colors : ColorPair) (lines : List ColorLine) :
    choices colors lines =
      (List.finRange lines.length).map fun i : Fin lines.length =>
        (after colors (lines.take (i + 1)), (lines.get i).line) := by
  induction lines generalizing colors with
  | nil => rfl
  | cons l lines ih =>
      have places : List.finRange (l :: lines).length =
          0 :: (List.finRange lines.length).map Fin.succ := List.finRange_succ
      rw [choices, ih, places, List.map_cons, List.map_map]
      rfl

end ColorLine

/-! ### Statements -/

namespace Stmt

/-- The colours that a statement chooses itself, with its line. -/
def colors? : Stmt → Option (ColorPair × Nat)
  | .setColor colors line => some (colors, line)
  | _ => none

/-- The colours that statements choose, at any depth and in the order they are written. -/
def choices (ss : List Stmt) : List (ColorPair × Nat) := (partsOf ss).filterMap colors?

theorem choices_cons (s : Stmt) (ss : List Stmt) :
    choices (s :: ss) = s.colors?.toList ++ (s.bodies.flatMap choices ++ choices ss) := by
  have held : (s.bodies.flatMap partsOf).filterMap colors? = s.bodies.flatMap choices :=
    List.filterMap_flatMap
  rw [choices, partsOf, parts_eq, List.cons_append, List.filterMap_cons, List.filterMap_append,
    held]
  cases s.colors? <;> rfl

theorem choices_append (ss ts : List Stmt) : choices (ss ++ ts) = choices ss ++ choices ts := by
  rw [choices, partsOf_append, List.filterMap_append]
  rfl

end Stmt

namespace Grammar

/-- Whole lines of tokens that choose colours one after another, from the colours before them to
those after. -/
structure Paints (colors : ColorPair) (toks : List Token) (painted : List (ColorPair × Nat))
    (colors' : ColorPair) : Prop where
  exists_lines : ∃ lines, (∀ rest, ColorLine.among (toks ++ rest) = lines ++ ColorLine.among rest) ∧
    painted = ColorLine.choices colors lines ∧ colors' = ColorLine.after colors lines

namespace Paints

variable {colors colors₁ colors₂ : ColorPair} {xs ys : List Token} {first : Token} {c : Command}
  {painted painted' : List (ColorPair × Nat)}

theorem nil (colors : ColorPair) : Paints colors [] [] colors :=
  ⟨[], fun _ => rfl, rfl, rfl⟩

theorem append (h : Paints colors xs painted colors₁) (h' : Paints colors₁ ys painted' colors₂) :
    Paints colors (xs ++ ys) (painted ++ painted') colors₂ := by
  obtain ⟨lines, split, rfl, rfl⟩ := h
  obtain ⟨lines', split', rfl, rfl⟩ := h'
  refine ⟨lines ++ lines', fun rest => ?_, (ColorLine.choices_append _ _ _).symm, ?_⟩
  · rw [List.append_assoc, split, split', List.append_assoc]
  · exact List.foldl_append.symm

theorem blank {stop : Token} (ends : stop.kind.isEnd = true)
    (h : Paints colors xs painted colors₁) : Paints colors (stop :: xs) painted colors₁ := by
  have empty : Paints colors [stop] [] colors :=
    ⟨[], fun rest => ColorLine.among_line (List.forall_mem_nil _) ends, rfl, rfl⟩
  exact empty.append h

theorem sentence (colors : ColorPair) (line : Sentence xs first c) :
    Paints colors xs (ColorLine.choices colors (ColorLine.ofCommand? first c).toList)
      (ColorLine.after colors (ColorLine.ofCommand? first c).toList) := by
  cases line with
  | mk phrase ends =>
      refine ⟨_, fun rest => ?_, rfl, rfl⟩
      rw [List.append_assoc, List.singleton_append, ColorLine.among_line phrase.inside.inner ends,
        ColorLine.ofTokens?_phrase phrase]

/-- A line that chooses no colours. -/
theorem other (line : Sentence xs first c) (other : ColorLine.ofCommand? first c = none) :
    Paints colors xs [] colors := by
  have whole := sentence colors line
  rw [other] at whole
  exact whole

/-- A line that is a plain statement chooses what the statement does. -/
theorem plain {p : Plain} (line : Sentence xs first c)
    (statement : c.plain? first colors = some p) :
    Paints colors xs p.stmt.colors?.toList (colorsAfter colors c) := by
  have whole := sentence colors line
  cases c <;> cases statement <;> exact whole

end Paints

variable {colors colors' : ColorPair} {toks : List Token}

/-- The lines of a block choose what its statements do, at any depth. -/
theorem Block.paints {ts : List Tree} (h : Block colors toks ts colors') :
    Paints colors toks (Stmt.choices (Tree.stmts ts)) colors' := by
  -- The lines that open, divide and close a block choose nothing, so its parts follow each other.
  induction h with
  | nil colors => exact .nil colors
  | blank ends _ ih => exact ih.blank ends
  | @plain _ _ _ _ p _ _ _ line statement _ ih =>
      have whole := (Paints.plain line statement).append ih
      rw [Tree.stmts, Tree.stmt, Stmt.choices_cons, Plain.bodies_stmt]
      exact whole
  | branch opening _ closing _ inner ih =>
      have whole := (Paints.other opening rfl).append
        (inner.append ((Paints.other closing rfl).append ih))
      rw [Tree.stmts, Tree.stmt, Stmt.choices_cons]
      simpa [Stmt.colors?, Stmt.bodies, Stmt.choices, Stmt.partsOf] using whole
  | branchElse opening _ dividing _ closing _ inner inner' ih =>
      have whole := (Paints.other opening rfl).append (inner.append
        ((Paints.other dividing rfl).append (inner'.append ((Paints.other closing rfl).append ih))))
      rw [Tree.stmts, Tree.stmt, Stmt.choices_cons]
      simpa [Stmt.colors?, Stmt.bodies] using whole
  | forTo opening _ closing _ inner ih | whileDo opening _ closing _ inner ih =>
      have whole := (Paints.other opening rfl).append
        (inner.append ((Paints.other closing rfl).append ih))
      rw [Tree.stmts, Tree.stmt, Stmt.choices_cons]
      simpa [Stmt.colors?, Stmt.bodies] using whole

theorem Properties.paints {ps : List Property} (h : Properties toks ps) :
    Paints colors toks [] colors := by
  induction h with
  | nil => exact .nil colors
  | blank ends _ ih => exact ih.blank ends
  | cons line _ ih => exact (Paints.other line rfl).append ih

theorem ClassLines.paints {d : Class} (h : ClassLines toks d) : Paints colors toks [] colors := by
  cases h with
  | single line => exact .other line rfl
  | lines opening inner closing =>
      exact (Paints.other opening rfl).append (inner.paints.append (.other closing rfl))

theorem Items.paints {items : List Item} (h : Items colors toks items) :
    ∃ colors', Paints colors toks (Stmt.choices (items.flatMap Item.stmts)) colors' := by
  induction h with
  | @statements _ colors' _ ts block =>
      rw [(Item.flatMap_tree ts).1]
      exact ⟨colors', block.paints⟩
  | @classDef _ _ _ _ _ ts _ _ block definition _ _ ih =>
      obtain ⟨colors', rest⟩ := ih
      have whole := block.paints.append (definition.paints.append rest)
      refine ⟨colors', ?_⟩
      simpa only [List.flatMap_append, List.flatMap_cons, (Item.flatMap_tree ts).1, Item.stmts,
        List.nil_append, Stmt.choices_append] using whole

theorem Script.paints {params : List Text} {items : List Item} (h : Script toks params items) :
    ∃ colors', Paints .default toks (Stmt.choices (items.flatMap Item.stmts)) colors' := by
  induction h with
  | blank ends _ ih =>
      obtain ⟨colors', rest⟩ := ih
      exact ⟨colors', rest.blank ends⟩
  | parameters line rest =>
      obtain ⟨colors', rest⟩ := rest.paints
      exact ⟨colors', (Paints.other line rfl).append rest⟩
  | items rest => exact rest.paints

end Grammar

/-! ### Scripts -/

/-- The lines of a script that choose colours, from its first to its last. -/
def File.colorLines (file : File) : List ColorLine :=
  ColorLine.among (TokenStream.ofFile file .dbase).all

/-- The lines of a script that choose colours have increasing numbers. -/
theorem File.pairwise_colorLines (file : File) :
    file.colorLines.Pairwise (·.line < ·.line) :=
  (ColorLine.pairwise_among (TokenStream.before_ofFile file .dbase)).2

/-- The statements of a compiled program choose what the lines of its script do. -/
theorem choices_of_compileIn {file : File} {name : Text} {compiled : Compiled}
    (compiles : (compileIn file .dbase name {}).result = .ok compiled) :
    Stmt.choices compiled.program.body = ColorLine.choices .default file.colorLines := by
  obtain ⟨toks, eof, params, items, scanned, script, rfl⟩ := script_of_compileIn compiles
  obtain ⟨colors', lines, split, painted, -⟩ := script.paints
  have all : file.colorLines = lines := by
    have whole := split []
    rw [List.append_nil, ColorLine.among_nil, List.append_nil] at whole
    rw [File.colorLines, scanned]
    exact whole
  rw [all]
  exact painted

end PrgScript
