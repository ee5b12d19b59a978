import PrgScript.Proofs.RaisedGlyphs
import PrgScript.Proofs.Spans
import PrgScript.Proofs.TwinCompile
import PrgScript.Proofs.TwinRun
import PrgScript.Proofs.TwinScan

/-!
# Scripts in other letter case

Letter case does not matter in a dBase script, except in strings. If the case of ASCII letters
is changed in words only, the script has the same tokens at the same places, is compiled to
the same errors and warnings, and runs in the same way.

In strings and comments the two scripts have the same bytes, because the bytes that one call of the
lexer reads belong to no token of another call.
-/

namespace PrgScript

open Text Step

/-! ### Cursors -/

theorem Pos.foldl_advance_recased {gs gs' : List Glyph}
    (sames : gs.map Glyph.raised = gs'.map Glyph.raised) (p : Pos) :
    gs.foldl Pos.advance p = gs'.foldl Pos.advance p := by
  induction gs generalizing gs' p with
  | nil =>
      rw [List.map_nil, eq_comm, List.map_eq_nil_iff] at sames
      rw [sames]
  | cons g gs ih =>
      obtain ⟨g', gs', rfl, same, rest⟩ := Scanner.exists_cons_recased sames
      have isEnd : (g.char = '\n') = (g'.char = '\n') :=
        Glyph.of_raised (f := (· = '\n')) (by decide) same
      have length : g.bytes.length = g'.bytes.length := by
        have := congrArg (·.bytes.length) same
        simpa [Glyph.raised, upperASCII_eq_map] using this
      have step : p.advance g = p.advance g' := by simp only [Pos.advance, isEnd, length]
      rw [List.foldl_cons, List.foldl_cons, step, ih rest]

/-- Cursors at the same place, with glyphs ahead that differ in letter case at most. -/
structure Cursor.Recased (c c' : Cursor) : Prop where
  pos : c.pos = c'.pos
  rest : c.rest.map Glyph.raised = c'.rest.map Glyph.raised

theorem Cursor.Recased.skip {c c' : Cursor} (h : c.Recased c') (n : Nat) :
    (c.skip n).Recased (c'.skip n) := by
  constructor
  · have taken : (c.rest.take n).map Glyph.raised = (c'.rest.take n).map Glyph.raised := by
      rw [List.map_take, List.map_take, h.rest]
    rw [skip_eq, skip_eq, h.pos, Pos.foldl_advance_recased taken]
  · rw [skip_rest, skip_rest]
    exact Scanner.drop_recased h.rest n

/-- Two glyphs that differ in letter case at most are equal if they are written with the same
bytes. -/
theorem Glyph.eq_of_bytes {g g' : Glyph} {t t' : Text} (leads : g.Leads t) (leads' : g'.Leads t')
    (same : g.raised = g'.raised) (bytes : g.bytes = g'.bytes) : g = g' := by
  have chars : g.char.toUpper = g'.char.toUpper := congrArg Glyph.char same
  obtain rfl | ⟨b, low, rfl⟩ | ⟨high, highs⟩ := leads.shape
  all_goals obtain rfl | ⟨b', low', rfl⟩ | ⟨high', highs'⟩ := leads'.shape
  · rfl
  · cases bytes
  · rw [← bytes] at highs'
    exact absurd (highs' carriageReturn (by simp)) (by decide)
  · cases bytes
  · cases bytes
    rfl
  · rw [← bytes] at highs'
    exact absurd (highs' b (by simp)) (Nat.not_le.2 low)
  · rw [bytes] at highs
    exact absurd (highs carriageReturn (by simp)) (by decide)
  · rw [bytes] at highs
    exact absurd (highs b' (by simp)) (Nat.not_le.2 low')
  · obtain ⟨char, written⟩ := g
    obtain ⟨char', written'⟩ := g'
    rw [toUpper_of_high high, toUpper_of_high high'] at chars
    exact congr (congrArg Glyph.mk chars) bytes

theorem Glyph.eq_of_text {gs gs' : List Glyph} (leads : ∀ g ∈ gs, ∃ t, g.Leads t)
    (leads' : ∀ g ∈ gs', ∃ t, g.Leads t) (sames : gs.map raised = gs'.map raised)
    (bytes : text gs = text gs') : gs = gs' := by
  induction gs generalizing gs' with
  | nil =>
      rw [List.map_nil, eq_comm, List.map_eq_nil_iff] at sames
      exact sames.symm
  | cons g gs ih =>
      obtain ⟨g', gs', rfl, same, rest⟩ := Scanner.exists_cons_recased sames
      rw [List.forall_mem_cons] at leads leads'
      have length : g.bytes.length = g'.bytes.length := by
        have := congrArg (·.bytes.length) same
        simpa [Glyph.raised, upperASCII_eq_map] using this
      rw [text_cons, text_cons] at bytes
      obtain ⟨first, others⟩ := List.append_inj bytes length
      obtain ⟨⟨t, lead⟩, leads⟩ := leads
      obtain ⟨⟨t', lead'⟩, leads'⟩ := leads'
      rw [eq_of_bytes lead lead' same first, ih leads leads' rest others]

/-- The bytes of the glyphs ahead of a cursor are those of the file from there on. -/
theorem Cursor.In.getElem?_text {file : File} {c : Cursor} (h : c.In file) {m j : Nat}
    (inside : j < (Glyph.text (c.rest.take m)).length) :
    (Glyph.text (c.rest.take m))[j]? = file.content[c.pos.offset + j]? := by
  obtain ⟨before, whole, length⟩ := h.content
  have cut : Glyph.text c.rest = Glyph.text (c.rest.take m) ++ Glyph.text (c.rest.drop m) := by
    rw [← Glyph.text_append, List.take_append_drop]
  rw [whole, cut, ← length, List.getElem?_append_right (Nat.le_add_right _ _),
    Nat.add_sub_cancel_left, List.getElem?_append_left inside]

/-! ### Calls -/

namespace Lexer

variable {file : File} {d : Dialect} {lx : Lexer}

theorem Of.offset_le_next (h : lx.Of file d) :
    lx.cursor.pos.offset ≤ lx.next.1.token.span.start ∧
      lx.next.1.token.span.start ≤ lx.next.1.token.span.stop ∧
      lx.next.1.token.span.stop = lx.next.2.cursor.pos.offset := by
  obtain ⟨-, fits, stop⟩ := h.next
  exact ⟨fits.behind, fits.ordered, stop⟩

theorem Of.offset_mono (h : lx.Of file d) {m n : Nat} (le : m ≤ n) :
    (lx.after m).cursor.pos.offset ≤ (lx.after n).cursor.pos.offset := by
  induction le with
  | refl => exact Nat.le_refl _
  | @step n _ ih =>
      obtain ⟨first, second, third⟩ := (h.after n).offset_le_next
      rw [Lexer.after, ← third]
      omega

/-- A byte of a token belongs to the call that gave the token. -/
theorem Of.call_eq (h : lx.Of file d) {m n i : Nat}
    (start : (lx.after m).next.1.token.span.start ≤ i)
    (stop : i < (lx.after m).next.1.token.span.stop)
    (reached : (lx.after n).cursor.pos.offset ≤ i)
    (notPassed : i < (lx.after (n + 1)).cursor.pos.offset) : m = n := by
  obtain ⟨first, second, third⟩ := (h.after m).offset_le_next
  rcases Nat.lt_trichotomy m n with less | same | more
  · have := h.offset_mono (m := m + 1) less
    rw [Lexer.after, ← third] at this
    omega
  · exact same
  · have := h.offset_mono (m := n + 1) more
    omega

end Lexer

/-! ### Scripts -/

/-- The kinds of tokens in which letter case does not matter: names, reserved words, and words
between dots. -/
def Kind.isWordlike : Kind → Bool
  | .ident | .keyword _ | .logical | .and | .or | .not => true
  | _ => false

/-- The same script with the case of ASCII letters changed in words only, be they before or behind
an error. -/
structure File.Recased (file file' : File) : Prop where
  id_eq : file'.id = file.id
  path_eq : file'.path = file.path
  letters : upperASCII file'.content = upperASCII file.content
  inWords : ∀ i, file'.content[i]? ≠ file.content[i]? →
    ∃ n, let scanned := ((Lexer.start file .dbase).after n).next.1
      scanned.error = none ∧ scanned.token.kind.isWordlike = true ∧
        scanned.token.span.start ≤ i ∧ i < scanned.token.span.stop

/-- Two results of calls that look the same. -/
def Scanned.Alike (v : View) (r r' : Scanned) : Prop :=
  r.token.seen v = r'.token.seen v ∧
    r.error.map (ScriptError.seen v) = r'.error.map (ScriptError.seen v)

namespace Scanner

open Glyph

variable {file file' : File} {c c' : Cursor}

/-- A numeral has no letters. -/
theorem eq_of_isNumeral {t t' : Text} (numeral : IsNumeral t) (numeral' : IsNumeral t')
    (same : upperASCII t = upperASCII t') : t = t' := by
  have kept {t : Text} (numeral : IsNumeral t) : upperASCII t = t := by
    rw [upperASCII_eq_map]
    conv => rhs; rw [← List.map_id t]
    refine List.map_congr_left fun b mem => ?_
    apply UInt8.toNat_inj.1
    rw [toNat_upperByte, if_neg, id]
    rcases numeral.2 b mem with digit | rfl
    · have : b.toNat ≤ 57 := UInt8.le_iff_toNat_le.1 digit.2
      omega
    · decide
  rw [← kept numeral, ← kept numeral', same]

theorem seen_tokenBetween_recased (ids : file'.id = file.id) (cursors : c.Recased c') (kind : Kind)
    (value : Text) (n m : Nat)
    (numeral : kind = .number → IsNumeral (text (c.rest.take n)) ∧
      IsNumeral (text (c'.rest.take n))) :
    (tokenBetween file kind value n c (c.skip m)).seen .caseless =
      (tokenBetween file' kind value n c' (c'.skip m)).seen .caseless := by
  have texts : upperASCII (text (c.rest.take n)) = upperASCII (text (c'.rest.take n)) := by
    rw [← text_map_raised, ← text_map_raised, List.map_take, List.map_take, cursors.rest]
  have start := cursors.pos
  have stop := (cursors.skip m).pos
  have names : View.caseless.name (text (c.rest.take n)) =
      View.caseless.name (text (c'.rest.take n)) := texts
  simp only [Token.seen, tokenBetween, names, start, stop, ids]
  by_cases number : kind = .number
  · obtain ⟨first, second⟩ := numeral number
    rw [eq_of_isNumeral first second texts]
  · simp only [if_neg number]

theorem failed_recased (ids : file'.id = file.id) {cause cause' : Cause}
    (codes : cause.code = cause'.code) {start start' stop stop' : Cursor}
    (starts : start.Recased start') (stops : stop.Recased stop') :
    Scanned.Alike .caseless (failed file cause start stop) (failed file' cause' start' stop') := by
  simp only [Scanned.Alike, failed, Token.seen, ScriptError.seen, ScriptError.code, Option.map_some,
    starts.pos, stops.pos, ids, codes, and_self]

section Step

variable (recased : file.Recased file') {n : Nat}
  (here : (Lexer.start file .dbase).after n = ⟨file, .dbase, c, none⟩) (cursors : c.Recased c')
  (inside' : c'.In file')

theorem inside_of_call (here : (Lexer.start file .dbase).after n = ⟨file, .dbase, c, none⟩) :
    c.In file := by
  obtain ⟨c₁, same, inside⟩ := (Lexer.Of.start file .dbase).after n
  rw [here] at same
  cases same
  exact inside

include recased here in
/-- A call that gives no word leaves its bytes as they are. -/
theorem bytes_of_call {i : Nat} (reached : c.pos.offset ≤ i)
    (notPassed : i < (scan file .dbase c).2.pos.offset)
    (noWord : (scan file .dbase c).1.error = none →
      (scan file .dbase c).1.token.kind.isWordlike = false) :
    file'.content[i]? = file.content[i]? := by
  apply Classical.byContradiction
  intro differs
  obtain ⟨k, clean, word, start, stop⟩ := recased.inWords i differs
  have next : ((Lexer.start file .dbase).after n).next.1 = (scan file .dbase c).1 := by
    rw [here]
    rfl
  obtain rfl : k = n := by
    refine (Lexer.Of.start file .dbase).call_eq start stop ?_ ?_
    · rw [here]
      exact reached
    · rw [Lexer.after, here]
      exact notPassed
  rw [next] at clean word
  rw [noWord clean] at word
  cases word

include recased here cursors inside' in
/-- The glyphs of a string literal are the same in both scripts. -/
theorem literal_untouched {k : Nat} (skipped : skipTrivia .dbase .between 0 c.rest = .clear k)
    {g g' : Glyph} {gs gs' : List Glyph} (ahead : (c.skip k).rest = g :: gs)
    (ahead' : (c'.skip k).rest = g' :: gs') (isQuote : Dialect.dbase.isQuote g.char = true) :
    gs.take (lexeme .dbase g gs).more = gs'.take (lexeme .dbase g gs).more := by
  generalize size : (lexeme .dbase g gs).more + 1 = m
  have starts := cursors.skip k
  have inside := inside_of_call here
  -- The call reads up to the end of the literal, and gives a string or an error.
  obtain ⟨stop, noWord⟩ : (scan file .dbase c).2 = (c.skip k).skip m ∧
      ((scan file .dbase c).1.error = none →
        (scan file .dbase c).1.token.kind.isWordlike = false) := by
    have literal : lexeme .dbase g gs = _ := lexeme_of_isQuote isQuote
    cases lexed : lexeme .dbase g gs with
    | token kind value more =>
        rw [lexed] at size literal
        rw [scan_token file skipped ahead lexed, ← size]
        refine ⟨rfl, fun _ => ?_⟩
        rw [(stringRest_inv literal.symm).1]
        rfl
    | fault cause start more =>
        rw [lexed] at size
        rw [scan_badLexeme file skipped ahead lexed, ← size]
        exact ⟨rfl, nofun⟩
  have bytes : text ((c.skip k).rest.take m) = text ((c'.skip k).rest.take m) := by
    have offsets := congrArg Pos.offset (starts.skip m).pos
    have offset := congrArg Pos.offset starts.pos
    have passed := Cursor.skip_offset k c
    rw [Cursor.skip_offset m (c.skip k), Cursor.skip_offset m (c'.skip k)] at offsets
    apply List.ext_getElem?
    intro j
    rcases Nat.lt_or_ge j (text ((c.skip k).rest.take m)).length with inLiteral | behind
    · rw [(inside.skip k).getElem?_text inLiteral, (inside'.skip k).getElem?_text (by omega),
        ← offset]
      refine (bytes_of_call recased here ?_ ?_ noWord).symm
      · omega
      · rw [stop, Cursor.skip_offset m (c.skip k)]
        omega
    · rw [List.getElem?_eq_none behind, List.getElem?_eq_none (by omega)]
  have leads {file : File} {c : Cursor} (inside : c.In file) :
      ∀ g ∈ c.rest.take m, ∃ t, g.Leads t := by
    intro g mem
    rw [← inside.ofText_rest] at mem
    exact Glyph.exists_leads_of_mem (List.mem_of_mem_take mem)
  have sames : ((c.skip k).rest.take m).map raised = ((c'.skip k).rest.take m).map raised := by
    rw [List.map_take, List.map_take, starts.rest]
  have glyphs := Glyph.eq_of_text (leads (inside.skip k)) (leads (inside'.skip k)) sames bytes
  rw [ahead, ahead', ← size, List.take_succ_cons, List.take_succ_cons, List.cons.injEq] at glyphs
  exact glyphs.2

include recased here cursors inside' in
/-- One call gives results that look the same. -/
theorem scan_recased :
    Scanned.Alike .caseless (scan file .dbase c).1 (scan file' .dbase c').1 ∧
      (scan file .dbase c).2.Recased (scan file' .dbase c').2 := by
  have trivia : skipTrivia .dbase .between 0 c'.rest = skipTrivia .dbase .between 0 c.rest := by
    rw [← skipTrivia_raised, ← skipTrivia_raised .dbase .between 0 c.rest, cursors.rest]
  have inside := inside_of_call here
  cases skipped : skipTrivia .dbase .between 0 c.rest with
  | fault before more cause =>
      rw [scan_badComment file skipped, scan_badComment file' (trivia.trans skipped)]
      exact ⟨failed_recased recased.id_eq rfl (cursors.skip _) (cursors.skip _), cursors.skip _⟩
  | clear k =>
      have skipped' := trivia.trans skipped
      have starts := cursors.skip k
      have rests := starts.rest
      cases ahead : (c.skip k).rest with
      | nil =>
          rw [ahead, List.map_nil, eq_comm, List.map_eq_nil_iff] at rests
          rw [scan_end file skipped ahead, scan_end file' skipped' rests]
          exact ⟨⟨seen_tokenBetween_recased recased.id_eq starts .eof [] 0 0 nofun, rfl⟩, starts⟩
      | cons g gs =>
          rw [ahead] at rests
          obtain ⟨g', gs', ahead', same, rest⟩ := exists_cons_recased rests
          have lexemes := lexeme_recased same rest
            (literal_untouched recased here cursors inside' skipped ahead ahead')
          generalize lexed : lexeme .dbase g gs = first at lexemes
          generalize lexed' : lexeme .dbase g' gs' = second at lexemes
          cases lexemes with
          | @token kind value more =>
              have scanned := scan_token file skipped ahead lexed
              have scanned' := scan_token file' skipped' ahead' lexed'
              have faithful {file : File} {c : Cursor} (inside : c.In file) :
                  ∀ g ∈ c.rest, Faithful g := by
                intro g mem
                rw [← inside.ofText_rest] at mem
                exact Glyph.bytes_of_mem mem
              have written := (written_of_scan (faithful inside) scanned).1
              have written' := (written_of_scan (faithful inside') scanned').1
              rw [scanned, scanned']
              refine ⟨⟨seen_tokenBetween_recased recased.id_eq starts kind value _ _ ?_, rfl⟩,
                starts.skip _⟩
              exact fun number => ⟨written.numeral number, written'.numeral number⟩
          | fault codes =>
              rw [scan_badLexeme file skipped ahead lexed,
                scan_badLexeme file' skipped' ahead' lexed']
              exact ⟨failed_recased recased.id_eq codes (starts.skip _) (starts.skip _),
                starts.skip _⟩

end Step

end Scanner

/-- The calls of both lexers. -/
theorem File.Recased.calls {file file' : File} (recased : file.Recased file') (n : Nat) :
    ∃ c c', (Lexer.start file .dbase).after n = ⟨file, .dbase, c, none⟩ ∧
      (Lexer.start file' .dbase).after n = ⟨file', .dbase, c', none⟩ ∧ c.Recased c' := by
  induction n with
  | zero =>
      refine ⟨_, _, rfl, rfl, rfl, ?_⟩
      show (Glyph.ofText file.content).map _ = (Glyph.ofText file'.content).map _
      rw [← Glyph.ofText_upperASCII, ← Glyph.ofText_upperASCII, recased.letters]
  | succ n ih =>
      obtain ⟨c, c', here, here', cursors⟩ := ih
      have step := Scanner.scan_recased recased here cursors (Scanner.inside_of_call here')
      refine ⟨_, _, ?_, ?_, step.2⟩
      · rw [Lexer.after, here, Lexer.next_eq]
      · rw [Lexer.after, here', Lexer.next_eq]

theorem File.Recased.next {file file' : File} (recased : file.Recased file') (n : Nat) :
    Scanned.Alike .caseless ((Lexer.start file .dbase).after n).next.1
      ((Lexer.start file' .dbase).after n).next.1 := by
  obtain ⟨c, c', here, here', cursors⟩ := recased.calls n
  rw [here, here', Lexer.next_eq, Lexer.next_eq]
  exact (Scanner.scan_recased recased here cursors (Scanner.inside_of_call here')).1

theorem TokenStream.seen_of_recased {file file' : File} (recased : file.Recased file') :
    (ofFile file .dbase).seen .caseless = (ofFile file' .dbase).seen .caseless := by
  apply seen_ofFile (Q := fun c c' => ∃ n,
    (Lexer.start file .dbase).after n = ⟨file, .dbase, c, none⟩ ∧
      (Lexer.start file' .dbase).after n = ⟨file', .dbase, c', none⟩ ∧ c.Recased c')
  · rintro c c' ⟨n, here, here', cursors⟩
    obtain ⟨⟨tokens, errors⟩, behind⟩ :=
      Scanner.scan_recased recased here cursors (Scanner.inside_of_call here')
    have after : (Lexer.start file .dbase).after (n + 1) =
        ⟨file, .dbase, (Scanner.scan file .dbase c).2, none⟩ := by
      rw [Lexer.after, here, Lexer.next_eq]
    have after' : (Lexer.start file' .dbase).after (n + 1) =
        ⟨file', .dbase, (Scanner.scan file' .dbase c').2, none⟩ := by
      rw [Lexer.after, here', Lexer.next_eq]
    generalize Scanner.scan file .dbase c = first at *
    generalize Scanner.scan file' .dbase c' = second at *
    obtain ⟨⟨tok, _ | e⟩, c₁⟩ := first
    · obtain ⟨⟨tok', _ | e'⟩, c₁'⟩ := second
      · exact .token tokens ⟨n + 1, after, after', behind⟩
      · cases errors
    · obtain ⟨⟨tok', _ | e'⟩, c₁'⟩ := second
      · cases errors
      · exact .error (Option.some.inj errors)
  · obtain ⟨c, c', here, here', cursors⟩ := recased.calls 0
    cases here
    cases here'
    exact ⟨0, rfl, rfl, cursors⟩

/-! ### What is reported, and how a program runs -/

namespace Bag

variable {v : View} {bag bag' : Bag}

/-- Two bags with the same limit whose diagnostics look the same. -/
def Alike (v : View) (bag bag' : Bag) : Prop :=
  bag.limit = bag'.limit ∧ bag.items.map (Diagnostic.seen v) = bag'.items.map (Diagnostic.seen v)

theorem Alike.add (h : Alike v bag bag') {d d' : Diagnostic} (same : d.seen v = d'.seen v) :
    Alike v (bag.add d) (bag'.add d') := by
  have length : bag.items.length = bag'.items.length := by
    rw [← List.length_map (Diagnostic.seen v), h.2, List.length_map]
  have full : bag.isFull = bag'.isFull := by rw [isFull, isFull, h.1, length]
  unfold Bag.add
  rw [full]
  split
  · exact h
  · refine ⟨h.1, ?_⟩
    rw [List.map_append, List.map_append, h.2, List.map_singleton, List.map_singleton, same]

theorem Alike.addAll (h : Alike v bag bag') {ds ds' : List Diagnostic}
    (sames : ds.map (Diagnostic.seen v) = ds'.map (Diagnostic.seen v)) :
    Alike v (bag.addAll ds) (bag'.addAll ds') := by
  induction ds generalizing bag bag' ds' with
  | nil =>
      rw [List.map_nil, eq_comm, List.map_eq_nil_iff] at sames
      rw [sames]
      exact h
  | cons d ds ih =>
      cases ds' with
      | nil => cases sames
      | cons d' ds' =>
          rw [List.map_cons, List.map_cons, List.cons.injEq] at sames
          exact ih (h.add sames.1) sames.2

/-- Sorting asks for places, severities and codes only. -/
theorem Alike.sort (h : Alike .caseless bag bag') : Alike .caseless bag.sort bag'.sort := by
  refine ⟨h.1, ?_⟩
  have sorted (ds : List Diagnostic) : (ds.mergeSort notAfter).map (Diagnostic.seen .caseless) =
      (ds.map (Diagnostic.seen .caseless)).mergeSort notAfter :=
    List.map_mergeSort fun _ _ _ _ => rfl
  rw [Bag.sort, Bag.sort, sorted, sorted, h.2]

end Bag

/-- The code and the line of a fault, or nothing if a loop has used up its bound. -/
def Stop.place : Stop → Option (Code × Nat)
  | .fault e => some (e.code, e.line)
  | .outOfFuel => none

/-- Compiling a recased script. -/
theorem compile_recased {file file' : File} (recased : file.Recased file') (limit : Int)
    (name : Text) :
    let compiled := compile file (some .dbase) limit name
    let compiled' := compile file' (some .dbase) limit name
    Bag.Alike .caseless compiled.bag compiled'.bag ∧
      Ends (InvImage Eq (ScriptError.seen .caseless)) (InvImage Eq (Compiled.seen .caseless))
        (compileIn file .dbase name {}).result (compileIn file' .dbase name {}).result := by
  obtain ⟨ends, warnings⟩ := compileIn_alike .dbase name recased.id_eq.symm recased.path_eq.symm
    (TokenStream.seen_of_recased recased)
  have start : Bag.Alike .caseless { limit } { limit } := ⟨rfl, rfl⟩
  have bags := start.addAll warnings
  refine ⟨?_, ends⟩
  unfold compile
  dsimp only
  generalize (compileIn file .dbase name {}).result = first at ends ⊢
  generalize (compileIn file' .dbase name {}).result = second at ends ⊢
  cases ends with
  | ok => exact bags.sort
  | error same =>
      have code := congrArg Complaint.code same
      have span := congrArg Complaint.span same
      refine bags.add ?_
      simp only [ScriptError.seen] at code span
      simp only [Diagnostic.seen, ScriptError.diagnostic, code, span]

/-- Two runs that stop alike stop with the same code on the same line. -/
theorem Stop.place_of_seen {stop stop' : Stop}
    (same : stop.seen .caseless = stop'.seen .caseless) : stop.place = stop'.place := by
  cases stop with
  | fault e =>
      cases stop' with
      | outOfFuel => cases same
      | fault e' =>
          simp only [Stop.seen, Stop.fault.injEq, ExecError.mk.injEq] at same
          have cause := congrArg ExecCause.code same.1
          rw [ExecCause.code_seen, ExecCause.code_seen] at cause
          have line : e.line = e'.line := same.2
          rw [place, place, ExecError.code, ExecError.code, cause, line]
  | outOfFuel =>
      cases stop' with
      | fault => cases same
      | outOfFuel => rfl

/-- Letter case does not matter in a dBase script outside of strings and comments. If the case of
ASCII letters is changed in words, all calls of the lexer give the same kinds at the same places.
Compiling reports diagnostics of the same codes and spans, and ends with an error of the same code
at the same place, or with programs that run in the same way on every console: they make
the same calls, execute as many statements, and end well or with a fault of the same code on the
same line. The variables they leave have the same values, in whatever letter case one asks for
them. -/
theorem recased_alike (file file' : File) (recased : file.Recased file') (limit : Int)
    (name : Text) :
    (∀ n, let scanned := ((Lexer.start file .dbase).after n).next.1
      let scanned' := ((Lexer.start file' .dbase).after n).next.1
      scanned.token.kind = scanned'.token.kind ∧ scanned.token.line = scanned'.token.line ∧
        scanned.token.col = scanned'.token.col ∧ scanned.token.span = scanned'.token.span ∧
        (scanned.error.map fun e => (e.code, e.line, e.col, e.span)) =
          scanned'.error.map fun e => (e.code, e.line, e.col, e.span)) ∧
    let compiled := compile file (some .dbase) limit name
    let compiled' := compile file' (some .dbase) limit name
    (compiled.bag.items.map fun d => (d.code, d.span)) =
        (compiled'.bag.items.map fun d => (d.code, d.span)) ∧
      ((∃ e e', compiled.result = .error (.script e) ∧ compiled'.result = .error (.script e') ∧
          e.code = e'.code ∧ e.line = e'.line ∧ e.col = e'.col) ∨
        ∃ done done', compiled.result = .ok done ∧ compiled'.result = .ok done' ∧
          ∀ (σ : Type) (c : Console σ) (console : σ) (tracer : Trace.Tracer) (parent rounds : Nat)
            (args : List Value),
            let ran := Machine.run { program := done.program } c console tracer parent rounds args
            let ran' := Machine.run { program := done'.program } c console tracer parent rounds args
            ran.console = ran'.console ∧ ran.machine.steps = ran'.machine.steps ∧
              ran.result.mapError Stop.place = ran'.result.mapError Stop.place ∧
              ∀ spelling spelling', upper spelling = upper spelling' →
                ran.machine.valueOf? spelling = ran'.machine.valueOf? spelling') := by
  constructor
  · intro n scanned scanned'
    obtain ⟨tokens, errors⟩ := recased.next n
    have col := congrArg Token.col tokens
    have span := congrArg Token.span tokens
    have places := congrArg (Option.map fun e : Complaint =>
      (e.code, e.line, e.col, e.span)) errors
    rw [Option.map_map, Option.map_map] at places
    exact ⟨Token.kind_of_seen tokens, Token.line_of_seen tokens, col, span, places⟩
  · intro compiled compiled'
    obtain ⟨bags, ends⟩ := compile_recased recased limit name
    constructor
    · have reports := congrArg (List.map fun d : Diagnostic => (d.code, d.span)) bags.2
      rw [List.map_map, List.map_map] at reports
      exact reports
    have result : compiled.result = _ := compile_result file .dbase limit name
    have result' : compiled'.result = _ := compile_result file' .dbase limit name
    generalize (compileIn file .dbase name {}).result = first at ends result
    generalize (compileIn file' .dbase name {}).result = second at ends result'
    cases ends with
    | error same =>
        exact .inl ⟨_, _, result, result', congrArg Complaint.code same,
          congrArg Complaint.line same, congrArg Complaint.col same⟩
    | @ok done done' same =>
        refine .inr ⟨done, done', result, result', ?_⟩
        intro σ c console tracer parent rounds args ran ran'
        have programs : ({ program := done.program } : Machine).program.seen .caseless =
            ({ program := done'.program } : Machine).program.seen .caseless :=
          congrArg Compiled.program same
        obtain ⟨stops, consoles, steps, vars⟩ :=
          Machine.run_alike programs c console tracer tracer parent parent rounds args
        refine ⟨consoles, steps, ?_, fun spelling spelling' spelled => ?_⟩
        · change Ends _ _ ran.result ran'.result at stops
          generalize ran.result = r at stops ⊢
          generalize ran'.result = r' at stops ⊢
          cases stops with
          | ok => rfl
          | error same => exact congrArg Except.error (Stop.place_of_seen same)
        · change ran.machine.vars = ran'.machine.vars at vars
          rw [Machine.valueOf?, Machine.valueOf?, vars, Variables.get?, Variables.get?,
            Variables.key, Variables.key, spelled]

/-- A script with a reserved word, a word between dots and a name in other letter case. -/
theorem recased_alike_if :
    let file : File := ⟨0, "a.prg", "If .t. // t\nx=\"a\"\n? X\nEndif", 0⟩
    let file' : File := ⟨0, "a.prg", "iF .T. // t\nX=\"a\"\n? x\neNDIF", 0⟩
    file.Recased file' ∧
      ∃ done done', (compile file (some .dbase) 10 []).result = .ok done ∧
        (compile file' (some .dbase) 10 []).result = .ok done' ∧
        ∀ (σ : Type) (c : Console σ) (console : σ) (rounds : Nat),
          let ran := Machine.run { program := done.program } c console {} 0 rounds []
          let ran' := Machine.run { program := done'.program } c console {} 0 rounds []
          ran.console = ran'.console ∧ ran.machine.steps = ran'.machine.steps ∧
            ran.result.mapError Stop.place = ran'.result.mapError Stop.place ∧
            ran.machine.valueOf? "x" = ran'.machine.valueOf? "X" := by
  intro file file'
  have changed : ∀ i < file.content.length, file'.content[i]? ≠ file.content[i]? →
      ∃ n < 12, let scanned := ((Lexer.start file .dbase).after n).next.1
        scanned.error = none ∧ scanned.token.kind.isWordlike = true ∧
          scanned.token.span.start ≤ i ∧ i < scanned.token.span.stop := by
    decide +kernel
  have recased : file.Recased file' := by
    refine ⟨rfl, rfl, by decide, fun i differs => ?_⟩
    by_cases inside : i < file.content.length
    · obtain ⟨n, -, word⟩ := changed i inside differs
      exact ⟨n, word⟩
    · have length : file'.content.length = file.content.length := by decide
      rw [List.getElem?_eq_none (by omega), List.getElem?_eq_none (by omega)] at differs
      exact absurd rfl differs
  have accepted : (compile file (some .dbase) 10 []).result.toOption.isSome = true := by
    decide +kernel
  refine ⟨recased, ?_⟩
  obtain ⟨-, -, ⟨e, e', refused, -⟩ | ⟨done, done', result, result', runs⟩⟩ :=
    recased_alike file file' recased 10 []
  · rw [refused] at accepted
    cases accepted
  · refine ⟨done, done', result, result', fun σ c console rounds => ?_⟩
    obtain ⟨consoles, steps, stops, values⟩ := runs σ c console {} 0 rounds []
    exact ⟨consoles, steps, stops, values "x" "X" (by decide)⟩

end PrgScript
