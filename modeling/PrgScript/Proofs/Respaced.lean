import PrgScript.Proofs.Fillers
import PrgScript.Proofs.Separated
import PrgScript.Proofs.TwinCompile

/-!
# Scripts with other gaps

Blanks and comments between tokens do not matter. If every gap between two neighbouring tokens
of a script is replaced by another one that starts with a blank, the script has the same
tokens, and the same program is made of it, up to the lines of its statements.

A new gap has to start with a blank, because a token may look ahead: `1.` and a letter
are a number, a point and a name, while `1.`, a blank and a letter are two tokens. What
comes behind the blank is of no concern to the token before it. Before a line end and at the
end of the script there may be no gap at all.
-/

namespace PrgScript

open Text Step

/-- What may be put between two tokens, given the text behind it: a gap that starts with a blank or
a line feed, and does not end with half of a line end. It may be empty if the text starts with a
line end, or is empty itself. -/
structure Dialect.Filler (d : Dialect) (filler behind : Text) : Prop where
  gap : d.Gap filler behind
  parts : ∀ b ∈ (filler ++ behind).head?, b ∈ blankBytes ∨ b = newline
  uncut : Glyph.Uncut filler behind

/-- Texts in which tokens stand one behind the other, with a filler before each of them. -/
inductive Dialect.Spaced (d : Dialect) : List Token → Text → Prop
  | nil : Spaced d [] []
  | cons {tok : Token} {toks : List Token} {filler rest : Text}
      (fills : d.Filler filler (tok.text ++ rest)) (more : Spaced d toks rest) :
      Spaced d (tok :: toks) (filler ++ (tok.text ++ rest))

/-- The same tokens with other gaps between them. What stands before the first token may stay as
it is, or be replaced by any other gap. -/
inductive Dialect.Respaced (d : Dialect) (content : Text) : List Token → Text → Prop
  | same {tok : Token} {toks : List Token} {rest : Text} (more : d.Spaced toks rest) :
      Respaced d content (tok :: toks) (content.take tok.span.start ++ (tok.text ++ rest))
  | other {tok : Token} {toks : List Token} {gap rest : Text} (isGap : d.Gap gap (tok.text ++ rest))
      (uncut : Glyph.Uncut gap (tok.text ++ rest)) (more : d.Spaced toks rest) :
      Respaced d content (tok :: toks) (gap ++ (tok.text ++ rest))

namespace Scanner

variable {d : Dialect}

/-- A blank or a line end parts what stands before it from what follows, and so does the end. -/
theorem parted_of_head {text : Text} (h : ∀ b ∈ text.head?, b ∈ blankBytes ∨ b = newline) :
    (∀ b ∈ text.head?, b.toNat < 128) ∧ Parted (Glyph.ofText text) := by
  cases text with
  | nil =>
      constructor
      · intro b mem
        cases mem
      · intro g mem
        cases mem
  | cons b t =>
      obtain ⟨low, char⟩ : b.toNat < 128 ∧
          (isBlank (Char.ofNat b.toNat) = true ∨ Char.ofNat b.toNat = '\n') := by
        rcases h b rfl with isBlank | rfl
        · exact (Dialect.Gap.isBlank_of_mem isBlank).imp_right .inl
        · exact ⟨by decide, .inr rfl⟩
      refine ⟨fun x mem => Option.some.inj mem ▸ low, ?_⟩
      obtain ⟨g, rest, leads, same⟩ := Glyph.exists_leads b t
      rw [same, leads.ofText]
      intro x mem
      cases mem
      obtain rfl | ⟨x, -, rfl⟩ | ⟨-, high⟩ := leads.shape
      · exact .inr rfl
      · rw [← (List.cons.inj same).1]
        exact char
      · obtain ⟨x, more, bytes⟩ := List.exists_cons_of_ne_nil leads.bytes_ne_nil
        rw [bytes] at same high
        have := high b ((List.cons.inj same).1 ▸ List.mem_cons_self)
        omega

/-- Only a carriage return ends with a carriage return. -/
theorem eq_return {g : Glyph} {t : Text} (leads : g.Leads t)
    (last : g.bytes.getLast? = some carriageReturn) : g = ⟨'\r', [carriageReturn]⟩ := by
  obtain rfl | ⟨b, -, rfl⟩ | ⟨-, high⟩ := leads.shape
  · cases last
  · cases last
    rfl
  · exact absurd (high _ (List.mem_of_getLast? last)) (by decide)

/-- Where some glyphs end with a carriage return, the last one is a glyph of its own. -/
theorem exists_return {gs behind : List Glyph}
    (read : Glyph.ofText (Glyph.text (gs ++ behind)) = gs ++ behind)
    (last : (Glyph.text gs).getLast? = some carriageReturn) :
    gs.getLast? = some ⟨'\r', [carriageReturn]⟩ ∧ (Glyph.text behind).head? ≠ some newline := by
  rcases List.eq_nil_or_concat gs with rfl | ⟨before, g, rfl⟩
  · cases last
  · rw [List.concat_eq_append] at read last ⊢
    rw [List.append_assoc, List.singleton_append] at read
    obtain ⟨rest, leads, -, same⟩ := Glyph.leads_of_ofText (Glyph.ofText_text_of_append read)
    have whole : Glyph.text behind = rest := by rw [← same, Glyph.text_ofText]
    have bytes : Glyph.text (before ++ [g]) = Glyph.text before ++ g.bytes := by simp
    have ends := List.getLast?_eq_some_getLast leads.bytes_ne_nil
    rw [bytes, List.getLast?_append, ends, Option.some_or, ← ends] at last
    obtain rfl := eq_return leads last
    refine ⟨List.getLast?_concat, fun feed => ?_⟩
    exact leads.alone ⟨rfl, whole ▸ feed⟩

/-- A line end is not cut between two glyphs. -/
theorem uncut_of_split {gs behind : List Glyph}
    (read : Glyph.ofText (Glyph.text (gs ++ behind)) = gs ++ behind) :
    Glyph.Uncut (Glyph.text gs) (Glyph.text behind) := by
  rintro ⟨last, feed⟩
  exact (exists_return read last).2 feed

/-- A line end is not cut behind a glyph that is no carriage return. -/
theorem EndsSolid.uncut {gs : List Glyph} (h : EndsSolid gs)
    (read : Glyph.ofText (Glyph.text gs) = gs) (behind : Text) :
    Glyph.Uncut (Glyph.text gs) behind := by
  rintro ⟨last, -⟩
  rw [← List.append_nil gs] at read
  exact h _ (exists_return read last).1 rfl

/-- Whether a text starts with a line end shows before it is over, if no line end is cut behind
it. -/
theorem startsLineEnd_of_uncut {t u v : Text} (present : t ≠ [])
    (uncut : ∀ behind, Glyph.Uncut t behind) (starts : StartsLineEnd (t ++ u)) :
    StartsLineEnd (t ++ v) := by
  obtain ⟨b, t, rfl⟩ := List.exists_cons_of_ne_nil present
  rcases starts with ⟨behind, same⟩ | ⟨behind, same⟩
  · obtain ⟨rfl, -⟩ := List.cons.inj same
    exact .inl (List.prefix_append [newline] (t ++ v))
  · obtain ⟨rfl, tail⟩ := List.cons.inj same
    cases t with
    | nil =>
        have feed : u.head? = some newline := congrArg List.head? tail.symm
        exact absurd ⟨rfl, feed⟩ (uncut u)
    | cons c t =>
        obtain ⟨rfl, -⟩ := List.cons.inj tail
        exact .inr (List.prefix_append [carriageReturn, newline] (t ++ v))

section Step

variable {file file' : File} {c c' : Cursor} {tok : Token} {gap rest : Text}

/-- The glyphs of a token that is scanned. -/
theorem glyphs_of_scan (scanned : scan file d c = (⟨tok, none⟩, c')) (inside : c.In file)
    (notEnd : tok.kind ≠ .eof) :
    ∃ g gs more, tok.text = Glyph.text (g :: gs.take more) ∧
      Glyph.ofText tok.text = g :: gs.take more ∧ Solid d g gs ∧
      Keeps d g gs tok.kind tok.value more := by
  have gives := gives_scan file d c
  rw [scanned] at gives
  cases gives with
  | eof => exact absurd rfl notEnd
  | @token count more g gs kind value skipped ahead lexed =>
      have text : (tokenBetween file kind value (more + 1) (c.skip count)
          ((c.skip count).skip (more + 1))).text = Glyph.text (g :: gs.take more) := by
        rw [tokenBetween, ahead, List.take_succ_cons]
      have solid : Solid d g gs := by
        obtain ⟨n, same, solid⟩ := stops_of_skipTrivia skipped
        rw [Nat.zero_add] at same
        rw [Cursor.skip_rest, same] at ahead
        exact solid g gs ahead
      have split : c.rest = c.rest.take count ++ ((g :: gs.take more) ++ gs.drop more) := by
        rw [List.cons_append, List.take_append_drop, ← ahead, Cursor.skip_rest,
          List.take_append_drop]
      have alone := Glyph.ofText_text_left
        (Glyph.ofText_text_of_append (inside.ofText_rest.trans split))
      exact ⟨g, gs, more, text, text ▸ alone, solid, keeps_of_lexeme lexed solid.ne_return⟩

/-- One token is scanned again behind another gap and before a filler. -/
theorem scan_spaced (scanned : scan file d c = (⟨tok, none⟩, c')) (inside : c.In file)
    (notEnd : tok.kind ≠ .eof) (isGap : d.Gap gap (tok.text ++ rest))
    (uncut : Glyph.Uncut gap (tok.text ++ rest)) (low : ∀ b ∈ rest.head?, b.toNat < 128)
    (parted : Parted (Glyph.ofText rest)) (pos : Pos) :
    ∃ tok' pos', scan file' d ⟨pos, Glyph.ofText (gap ++ (tok.text ++ rest))⟩ =
        (⟨tok', none⟩, ⟨pos', Glyph.ofText rest⟩) ∧ tok'.lexed = tok.lexed := by
  obtain ⟨g, gs, more, text, alone, solid, keeps⟩ := glyphs_of_scan scanned inside notEnd
  have length : (gs.take more).length = more := List.length_take_of_le keeps.short
  have read : Glyph.ofText (tok.text ++ rest) = g :: (gs.take more ++ Glyph.ofText rest) := by
    have whole : Glyph.Uncut tok.text rest := by
      rw [text] at alone ⊢
      exact keeps.ends.uncut alone rest
    rw [Glyph.ofText_append low whole, alone, List.cons_append]
  obtain ⟨us, whole, -, passed⟩ := isGap.passed uncut
  generalize Glyph.ofText (gap ++ (tok.text ++ rest)) = gs' at whole ⊢
  have skipped : skipTrivia d .between 0 gs' = .clear us.length := by
    rw [whole, passed, read, (solid.kept parted more).skipTrivia, Nat.zero_add]
  have ahead : (Cursor.skip us.length ⟨pos, gs'⟩).rest =
      g :: (gs.take more ++ Glyph.ofText rest) := by
    rw [Cursor.skip_rest, whole, List.drop_left, read]
  have again := scan_token file' skipped ahead (keeps.kept _ parted)
  generalize Cursor.skip us.length ⟨pos, gs'⟩ = start at ahead again
  have behind : start.skip (more + 1) = ⟨(start.skip (more + 1)).pos, Glyph.ofText rest⟩ := by
    have tail : (start.skip (more + 1)).rest = Glyph.ofText rest := by
      rw [Cursor.skip_rest, ahead, List.drop_succ_cons, List.drop_left' length]
    rw [← tail]
  refine ⟨_, _, again.trans (congrArg _ behind), ?_⟩
  rw [Token.lexed, Token.lexed, text]
  simp only [tokenBetween, ahead, List.take_succ_cons, List.take_left' length]

/-- The gap before a token that is scanned. -/
theorem gap_of_scan (scanned : scan file d c = (⟨tok, none⟩, c')) (inside : c.In file) :
    ∃ gap, (Glyph.text c.rest).take (tok.span.start - c.pos.offset) = gap ∧
      d.Gap gap (tok.text ++ Glyph.text c'.rest) ∧
      Glyph.Uncut gap (tok.text ++ Glyph.text c'.rest) := by
  have gives := gives_scan file d c
  rw [scanned] at gives
  obtain ⟨gap, isGap, whole, start, -⟩ := gives.gap inside
  have taken : (Glyph.text c.rest).take (tok.span.start - c.pos.offset) = gap := by
    rw [start, Nat.add_sub_cancel_left, whole, List.take_left]
  refine ⟨gap, taken, isGap, ?_⟩
  -- The gap takes up whole glyphs.
  obtain ⟨count, offset⟩ : ∃ count, tok.span.start = (c.skip count).pos.offset := by
    cases gives with
    | @eof count => exact ⟨count, rfl⟩
    | @token count => exact ⟨count, rfl⟩
  have split : Glyph.text c.rest =
      Glyph.text (c.rest.take count) ++ Glyph.text (c.rest.drop count) := by
    rw [← Glyph.text_append, List.take_append_drop]
  have length : gap.length = (Glyph.text (c.rest.take count)).length := by
    rw [Cursor.skip_offset] at offset
    omega
  obtain ⟨same, behind⟩ := List.append_inj (whole.symm.trans split) length
  have read := inside.ofText_rest
  rw [← List.take_append_drop count c.rest] at read
  rw [same, behind]
  exact uncut_of_split read

end Step

/-- The end of a script is found again behind another gap. -/
theorem scan_spaced_end {file file' : File} {c c' : Cursor} {eof : Token} {gap : Text}
    (scanned : scan file d c = (⟨eof, none⟩, c')) (last : eof.kind = .eof)
    (isGap : d.Gap gap (eof.text ++ [])) (pos : Pos) :
    ∃ eof' c', scan file' d ⟨pos, Glyph.ofText (gap ++ (eof.text ++ []))⟩ = (⟨eof', none⟩, c') ∧
      c'.atEnd = true ∧ eof'.lexed = eof.lexed := by
  have gives := gives_scan file d c
  rw [scanned] at gives
  cases gives with
  | token skipped ahead lexed => exact absurd last (kind_ne_eof_of_lexeme lexed)
  | @eof count skipped ends =>
      have nothing : (tokenBetween file .eof [] 0 (c.skip count) (c.skip count)).text ++ [] = [] :=
        rfl
      rw [nothing] at isGap ⊢
      obtain ⟨us, whole, -, passed⟩ := isGap.passed (by rintro ⟨-, feed⟩; cases feed)
      generalize Glyph.ofText (gap ++ []) = gs at whole ⊢
      have skipped' : skipTrivia d .between 0 gs = .clear us.length := by
        rw [whole, passed, Nat.zero_add]
        rfl
      have ends' : (Cursor.skip us.length ⟨pos, gs⟩).rest = [] := by
        rw [Cursor.skip_rest, whole, List.drop_left]
        rfl
      refine ⟨_, _, scan_end file' skipped' ends', by rw [Cursor.atEnd, ends']; rfl, rfl⟩

end Scanner

namespace Lexer

variable {file file' : File} {d : Dialect} {lx : Lexer} {toks : List Token} {eof : Token}

/-- A call of a lexer is a step of scanning. -/
theorem Of.scan {lx' : Lexer} {result : Scanned} (of : lx.Of file d)
    (next : lx.next = (result, lx')) :
    ∃ c c', lx = ⟨file, d, c, none⟩ ∧ c.In file ∧ Scanner.scan file d c = (result, c') := by
  obtain ⟨c, rfl, inside⟩ := of
  rw [next_eq] at next
  obtain ⟨rfl, -⟩ := Prod.mk.inj next
  exact ⟨c, _, rfl, inside, rfl⟩

/-- The tokens of a script are scanned again with other gaps between them. -/
theorem Yields.spaced (yields : lx.Yields toks eof) (of : lx.Of file d) {tok : Token}
    {others : List Token} {gap rest : Text} (tokens : toks ++ [eof] = tok :: others)
    (isGap : d.Gap gap (tok.text ++ rest)) (uncut : Glyph.Uncut gap (tok.text ++ rest))
    (spaced : d.Spaced others rest) (pos : Pos) :
    ∃ toks' eof',
      (⟨file', d, ⟨pos, Glyph.ofText (gap ++ (tok.text ++ rest))⟩, none⟩ : Lexer).Yields
          toks' eof' ∧
        (toks' ++ [eof']).map Token.lexed = (tok :: others).map Token.lexed := by
  induction yields generalizing tok others gap rest pos with
  | @done lx lx' eof ends last atEnd =>
      obtain ⟨rfl, rfl⟩ := List.cons.inj tokens
      cases spaced
      obtain ⟨c, c', -, -, scanned⟩ := of.scan ends
      obtain ⟨eof', c', again, atEnd', lexed⟩ := Scanner.scan_spaced_end scanned last isGap pos
      have last' : eof'.kind = .eof := (congrArg Lexed.kind lexed).trans last
      exact ⟨[], eof', .done (next_of_scan again) last' atEnd', congrArg ([·]) lexed⟩
  | @more lx lx' first eof toks next inside yields ih =>
      obtain ⟨rfl, tokens'⟩ := List.cons.inj tokens
      have of' : lx'.Of file d := by
        have after := of.next.1
        rwa [next] at after
      obtain ⟨c, c', -, within, scanned⟩ := of.scan next
      cases spaced with
      | nil => exact absurd (List.append_eq_nil_iff.1 tokens').2 (List.cons_ne_nil _ _)
      | @cons second others filler rest fills more =>
          obtain ⟨low, parted⟩ := Scanner.parted_of_head fills.parts
          obtain ⟨tok', pos', again, lexed⟩ :=
            Scanner.scan_spaced scanned within inside isGap uncut low parted pos
          obtain ⟨toks', eof', yields', lexed'⟩ := ih of' tokens' fills.gap fills.uncut more pos'
          have kinds : tok'.kind = first.kind := congrArg Lexed.kind lexed
          have inside' : tok'.kind ≠ .eof := by
            rw [kinds]
            exact inside
          refine ⟨tok' :: toks', eof', .more (next_of_scan again) inside' yields', ?_⟩
          rw [List.cons_append, List.map_cons, lexed, lexed']
          rfl

/-- What stands before the first token is a gap. -/
theorem Of.leading {tok : Token} {lx' : Lexer}
    (next : (Lexer.start file d).next = (⟨tok, none⟩, lx')) :
    ∃ c c', c.In file ∧ Scanner.scan file d c = (⟨tok, none⟩, c') ∧
      d.Gap (file.content.take tok.span.start) (tok.text ++ Glyph.text c'.rest) ∧
      Glyph.Uncut (file.content.take tok.span.start) (tok.text ++ Glyph.text c'.rest) := by
  obtain ⟨c, c', same, inside, scanned⟩ := (Of.start file d).scan next
  obtain rfl : Cursor.ofText file.content = c := congrArg Lexer.cursor same
  obtain ⟨gap, taken, isGap⟩ := Scanner.gap_of_scan scanned inside
  have content : Glyph.text (Cursor.ofText file.content).rest = file.content :=
    Glyph.text_ofText file.content
  rw [content] at taken
  exact ⟨_, c', inside, scanned, taken ▸ isGap⟩

/-- The gap before the first token is a gap still when what follows the token changes. -/
theorem Yields.leading (yields : (Lexer.start file d).Yields toks eof) {tok : Token}
    {others : List Token} {rest : Text} (tokens : toks ++ [eof] = tok :: others)
    (spaced : d.Spaced others rest) :
    d.Gap (file.content.take tok.span.start) (tok.text ++ rest) ∧
      Glyph.Uncut (file.content.take tok.span.start) (tok.text ++ rest) := by
  cases yields with
  | done ends last =>
      obtain ⟨rfl, rfl⟩ := List.cons.inj tokens
      cases spaced
      obtain ⟨c, c', -, scanned, isGap⟩ := Of.leading ends
      have nothing : c'.rest = [] := List.isEmpty_iff.1 (Scanner.atEnd_of_scan scanned last)
      rwa [nothing] at isGap
  | @more _ _ first _ _ next notEnd =>
      obtain ⟨rfl, -⟩ := List.cons.inj tokens
      obtain ⟨c, c', inside, scanned, isGap, uncut⟩ := Of.leading next
      obtain ⟨g, gs, more, text, alone, -, keeps⟩ := Scanner.glyphs_of_scan scanned inside notEnd
      have present : first.text ≠ [] := by
        intro nothing
        rw [nothing] at alone
        cases alone
      have whole (behind : Text) : Glyph.Uncut first.text behind := by
        rw [text] at alone ⊢
        exact keeps.ends.uncut alone behind
      have head : (first.text ++ rest).head? = (first.text ++ Glyph.text c'.rest).head? := by
        obtain ⟨b, t, cons⟩ := List.exists_cons_of_ne_nil present
        rw [cons, List.cons_append, List.cons_append, List.head?_cons, List.head?_cons]
      have starts : StartsLineEnd (first.text ++ rest) ↔
          StartsLineEnd (first.text ++ Glyph.text c'.rest) :=
        ⟨Scanner.startsLineEnd_of_uncut present whole, Scanner.startsLineEnd_of_uncut present whole⟩
      exact ⟨isGap.before head starts, fun cut => uncut ⟨cut.1, head ▸ cut.2⟩⟩

end Lexer

/-! ### The same script -/

def Lexed.seen (w : Lexed) : Token where
  kind := w.kind
  text := if w.kind = .number then w.text
    else if w.kind.isNaming then View.placeless.name w.text else []
  value := w.value
  line := 0
  col := 0
  span := ⟨0, 0, 0⟩

theorem Token.seen_of_lexed {toks toks' : List Token}
    (same : toks.map lexed = toks'.map lexed) :
    toks.map (seen .placeless) = toks'.map (seen .placeless) := by
  have seen_lexed (toks : List Token) :
      toks.map (seen .placeless) = (toks.map lexed).map Lexed.seen := by
    rw [List.map_map]
    rfl
  rw [seen_lexed, seen_lexed, same]

/-- Blanks and comments between tokens do not matter. If a script is scanned to its end, and the
gaps between its tokens are replaced by fillers, the new script is scanned to its end as well, with
tokens of the same kinds, texts and values. Either both scripts are refused, or both are compiled,
with the same listing and with programs that differ in line numbers only. -/
theorem respaced_alike (file : File) (d : Dialect) (toks : List Token) (eof : Token)
    (yields : (Lexer.start file d).Yields toks eof) (content : Text)
    (respaced : d.Respaced file.content (toks ++ [eof]) content) :
    let file' : File := { file with content }
    (∃ toks' eof', (Lexer.start file' d).Yields toks' eof' ∧
      (toks' ++ [eof']).map Token.lexed = (toks ++ [eof]).map Token.lexed) ∧
    ∀ (limit : Int) (name : Text),
      let result := (compile file (some d) limit name).result
      let result' := (compile file' (some d) limit name).result
      (∃ e e', result = .error e ∧ result' = .error e') ∨
        ∃ done done', result = .ok done ∧ result' = .ok done' ∧ done.lines = done'.lines ∧
          done.program.seen .placeless = done'.program.seen .placeless := by
  intro file'
  have again : ∃ toks' eof', (Lexer.start file' d).Yields toks' eof' ∧
      (toks' ++ [eof']).map Token.lexed = (toks ++ [eof]).map Token.lexed := by
    generalize tokens : toks ++ [eof] = all at respaced
    cases respaced with
    | @same tok others rest more =>
        obtain ⟨isGap, uncut⟩ := yields.leading tokens more
        exact yields.spaced (.start file d) tokens isGap uncut more {}
    | @other tok others gap rest isGap uncut more =>
        exact yields.spaced (.start file d) tokens isGap uncut more {}
  refine ⟨again, fun limit name => ?_⟩
  obtain ⟨toks', eof', yields', lexed⟩ := again
  have same : (TokenStream.ofFile file d).seen .placeless =
      (TokenStream.ofFile file' d).seen .placeless := by
    have tokens := Token.seen_of_lexed lexed
    rw [List.map_append, List.map_append] at tokens
    obtain ⟨tokens, ends⟩ := List.append_inj' tokens rfl
    rw [TokenStream.ofFile_eq_iff.2 yields, TokenStream.ofFile_eq_iff.2 yields',
      TokenStream.seen, TokenStream.seen, tokens, Ending.seen, Ending.seen, (List.cons.inj ends).1]
  have ids : file.id = file'.id := rfl
  have paths : file.path = file'.path := rfl
  obtain ⟨ends, -⟩ := compileIn_alike d name ids paths same
  intro result result'
  have result_eq : result = _ := compile_result file d limit name
  have result_eq' : result' = _ := compile_result file' d limit name
  generalize (compileIn file d name {}).result = first at ends result_eq
  generalize (compileIn file' d name {}).result = second at ends result_eq'
  cases ends with
  | error => exact .inl ⟨_, _, result_eq, result_eq'⟩
  | @ok done done' same =>
      refine .inr ⟨done, done', result_eq, result_eq', ?_, congrArg Compiled.program same⟩
      have lines := congrArg Compiled.lines same
      have names := List.map_id'' (View.name_of_exact (v := .placeless) fun _ => rfl)
      rw [Compiled.seen, Compiled.seen, names, names] at lines
      exact lines

/-- A number before a word between dots, apart from it and with comments, on a line that ends as
before. -/
theorem respaced_alike_comments :
    let file : File := ⟨0, "a.prg", "?1.AND.y\n", 0⟩
    let content : Text := "? 1 /*a*/ .AND. y // c\n"
    let sign : Token := { kind := .question, text := "?", line := 1, col := 1, span := ⟨0, 0, 1⟩ }
    let one : Token := { kind := .number, text := "1", line := 1, col := 2, span := ⟨0, 1, 2⟩ }
    let both : Token := { kind := .and, text := ".AND.", line := 1, col := 3, span := ⟨0, 2, 7⟩ }
    let y : Token := { kind := .ident, text := "y", line := 1, col := 8, span := ⟨0, 7, 8⟩ }
    let ends : Token := { kind := .newline, text := "\n", line := 1, col := 9, span := ⟨0, 8, 9⟩ }
    let eof : Token := { kind := .eof, line := 2, col := 1, span := ⟨0, 9, 9⟩ }
    (Lexer.start file .dbase).Yields [sign, one, both, y, ends] eof ∧
      Dialect.dbase.Respaced file.content [sign, one, both, y, ends, eof] content ∧
      ∃ done done', (compile file (some .dbase) 10 []).result = .ok done ∧
        (compile { file with content } (some .dbase) 10 []).result = .ok done' ∧
        done.lines = done'.lines ∧
        done.program.seen .placeless = done'.program.seen .placeless := by
  intro file content sign one both y ends eof
  have scanned : TokenStream.ofFile file .dbase = ⟨[sign, one, both, y, ends], .eof eof⟩ := by
    decide +kernel
  have yields := TokenStream.ofFile_eq_iff.1 scanned
  have filler (gap behind : Text) (isGap : Dialect.dbase.Gap (32 :: gap) behind)
      (uncut : Glyph.Uncut (32 :: gap) behind) : Dialect.dbase.Filler (32 :: gap) behind := by
    refine ⟨isGap, fun b mem => ?_, uncut⟩
    cases mem
    exact .inl (by decide)
  have blank (behind : Text) (uncut : Glyph.Uncut [32] behind) : Dialect.dbase.Filler [32] behind :=
    filler [] behind (.blank (by decide) (.nil behind)) uncut
  -- The gaps from the last to the first.
  have nothing : Dialect.dbase.Filler [] ([] ++ []) := by
    refine ⟨.nil _, fun b mem => ?_, by decide⟩
    cases mem
  have fifth : Dialect.dbase.Spaced [eof] _ := .cons nothing .nil
  have lineComment : Dialect.dbase.Gap
      (ofChars CommentForm.slashSlash.opener ++ ([32, 99] ++ [])) [newline] :=
    .lineComment rfl rfl (.cons (by decide) (.cons (by decide) (.nil _ _))) (.inr (by decide))
      (.nil _)
  have fourth : Dialect.dbase.Spaced [ends, eof] _ :=
    .cons (filler _ _ (.blank (by decide) lineComment) (by decide)) fifth
  have third : Dialect.dbase.Spaced [y, ends, eof] _ := .cons (blank _ (by decide)) fourth
  have blockComment (behind : Text) : Dialect.dbase.Gap (ofChars CommentForm.slashStar.opener ++
      ([97] ++ (ofChars CommentForm.slashStar.closer ++ [32]))) behind := by
    apply Dialect.Gap.blockComment rfl rfl
    · apply NoneStarts.cons _ (.nil _ _)
      rintro ⟨t, same⟩
      cases same
    · exact .blank (by decide) (.nil behind)
  have second : Dialect.dbase.Spaced [both, y, ends, eof] _ :=
    .cons (filler _ _ (.blank (by decide) (blockComment _)) (by decide)) third
  have first : Dialect.dbase.Spaced [one, both, y, ends, eof] _ :=
    .cons (blank _ (by decide)) second
  have respaced : Dialect.dbase.Respaced file.content [sign, one, both, y, ends, eof] content :=
    .same first
  have accepted : (compile file (some .dbase) 10 []).result.toOption.isSome = true := by
    decide +kernel
  refine ⟨yields, respaced, ?_⟩
  obtain ⟨-, alike⟩ := respaced_alike file .dbase [sign, one, both, y, ends] eof yields content
    respaced
  rcases alike 10 [] with ⟨e, e', refused, -⟩ | compiled
  · rw [refused] at accepted
    cases accepted
  · exact compiled

end PrgScript
