import PrgScript.Proofs.Gaps
import PrgScript.Proofs.GlyphSteps

/-!
# Going over gaps

Where a gap stands before a text, skipping goes over the gap and is then between comments
before the text. The text may be anything that does not change how the gap is read: a gap
that ends with a carriage return must not stand before a line feed.
-/

namespace PrgScript

open Text

namespace Scanner

variable {d : Dialect} {gs : List Glyph} {n start : Nat} {form : CommentForm}

/-! ### Marks -/

/-- An allowed comment is found where its opening mark stands. -/
theorem commentAt?_opener (allowed : d.usage form = .allowed) (gs : List Glyph) :
    ∃ rest, form.opener.map Glyph.plain ++ gs = Glyph.plain form.first :: rest ∧
      commentAt? d form.first (rest.head?.map (·.char)) = some form := by
  refine ⟨form.second?.toList.map Glyph.plain ++ gs, rfl, ?_⟩
  cases d <;> cases form <;> cases allowed <;> rfl

theorem mark_opener (form : CommentForm) :
    '\r' ∉ form.opener ∧ '\r' ∉ form.closer ∧ form.first ≠ '\n' ∧ isBlank form.first = false := by
  cases form <;> decide

/-- Skipping goes over the mark that opens an allowed comment. -/
theorem skipTrivia_opener (allowed : d.usage form = .allowed) (gs : List Glyph) (n : Nat) :
    skipTrivia d .between n (form.opener.map Glyph.plain ++ gs) =
      skipTrivia d (.opened form n) (n + form.opener.length) gs := by
  obtain ⟨rest, whole, found⟩ := commentAt?_opener allowed gs
  obtain ⟨-, -, inLine, solid⟩ := mark_opener form
  have notForeign : d.usage form ≠ .foreign := by
    rw [allowed]
    decide
  have behind : (Glyph.plain form.first :: rest).drop form.opener.length = gs := by
    rw [← whole, List.drop_left' (List.length_map _)]
  rw [whole, skipTrivia_comment inLine solid found notForeign, behind]

/-- Skipping goes over the mark that closes a comment. -/
theorem skipTrivia_closer (isBlock : form.isBlock = true) (gs : List Glyph) (n : Nat) :
    skipTrivia d (.inBlock form start) n (form.closer.map Glyph.plain ++ gs) =
      skipTrivia d .between (n + form.closer.length) gs := by
  have closes : form.closer <+: (form.closer.map Glyph.plain ++ gs).map (·.char) := by
    rw [List.map_append, List.map_map]
    exact (List.map_id form.closer).symm ▸ List.prefix_append _ _
  rw [skipTrivia_close isBlock closes, List.drop_left' (List.length_map _)]

/-- The glyphs of a mark, found by their characters. -/
theorem plain_of_chars {cs : List Char} (marks : ∀ c ∈ cs, Glyph.IsMark c)
    (read : Glyph.ofText (Glyph.text gs) = gs) (h : cs <+: gs.map (·.char)) :
    cs.map Glyph.plain <+: gs := by
  induction cs generalizing gs with
  | nil => exact List.nil_prefix
  | cons c cs ih =>
      rw [List.forall_mem_cons] at marks
      cases gs with
      | nil => simp at h
      | cons g gs =>
          rw [List.map_cons, List.cons_prefix_cons] at h
          rw [List.map_cons, List.cons_prefix_cons]
          exact ⟨(eq_plain marks.1 h.1.symm read).symm, ih marks.2 (leads_take_drop read 0).2 h.2⟩

/-! ### The bodies of comments -/

/-- The body of a line comment has no line end. -/
theorem inLine_of_noneStarts {body behind : Text} (none : NoneStarts StartsLineEnd body behind) :
    ∀ g ∈ Glyph.ofText body, g.char ≠ '\n' := by
  intro g mem isEnd
  obtain ⟨rest, leads⟩ := Glyph.exists_leads_of_mem mem
  obtain ⟨before, after, split⟩ := List.append_of_mem mem
  have whole : body = Glyph.text before ++ (g.bytes ++ Glyph.text after) := by
    rw [← Glyph.text_cons, ← Glyph.text_append, ← split, Glyph.text_ofText]
  refine none _ _ whole (by simp [leads.bytes_ne_nil]) ?_
  rw [List.append_assoc]
  rcases leads.bytes_of_newline isEnd with bytes | bytes
  · exact .inl (bytes ▸ List.prefix_append _ _)
  · exact .inr (bytes ▸ List.prefix_append _ _)

theorem skipTrivia_lineBody {bs : List Glyph} (inLine : ∀ g ∈ bs, g.char ≠ '\n')
    (gs : List Glyph) (n : Nat) :
    skipTrivia d .inLine n (bs ++ gs) = skipTrivia d .inLine (n + bs.length) gs := by
  induction bs generalizing n with
  | nil => rfl
  | cons g bs ih =>
      rw [List.forall_mem_cons] at inLine
      rw [List.cons_append, skipTrivia_inLine inLine.1, ih inLine.2, List.length_cons,
        Nat.add_assoc, Nat.add_comm 1]

theorem skipTrivia_blockBody {bs : List Glyph}
    (inside : ∀ u v, bs = u ++ v → v ≠ [] → ¬form.closer <+: (v ++ gs).map (·.char)) (n : Nat) :
    skipTrivia d (.inBlock form start) n (bs ++ gs) =
      skipTrivia d (.inBlock form start) (n + bs.length) gs := by
  induction bs generalizing n with
  | nil => rfl
  | cons g bs ih =>
      have first := inside [] (g :: bs) rfl (List.cons_ne_nil _ _)
      rw [List.cons_append] at first
      have others : ∀ u v, bs = u ++ v → v ≠ [] → ¬form.closer <+: (v ++ gs).map (·.char) := by
        intro u v split some
        exact inside (g :: u) v (by rw [split, List.cons_append]) some
      rw [List.cons_append, skipTrivia_inBlock first, ih others, List.length_cons, Nat.add_assoc,
        Nat.add_comm 1]

/-- No closing mark starts in the glyphs of the body of a block comment. -/
theorem inside_of_noneStarts {body behind : Text}
    (none : NoneStarts (ofChars form.closer <+: ·) body behind)
    (read : Glyph.ofText (body ++ behind) = Glyph.ofText body ++ Glyph.ofText behind) :
    ∀ u v, Glyph.ofText body = u ++ v → v ≠ [] →
      ¬form.closer <+: (v ++ Glyph.ofText behind).map (·.char) := by
  intro u v split some closes
  have whole : body = Glyph.text u ++ Glyph.text v := by
    rw [← Glyph.text_append, ← split, Glyph.text_ofText]
  rw [split, List.append_assoc] at read
  have again := Glyph.ofText_text_of_append read
  obtain ⟨rest, marks⟩ := plain_of_chars form.isMark.2 again closes
  refine none _ _ whole ?_ ⟨Glyph.text rest, ?_⟩
  · intro nothing
    have same := Glyph.ofText_text_left (Glyph.ofText_text_of_append read)
    rw [nothing] at same
    exact some same.symm
  · rw [← Glyph.text_plain, ← Glyph.text_append, marks, Glyph.text_append, Glyph.text_ofText]

end Scanner

/-! ### Gaps -/

namespace Dialect.Gap

variable {d : Dialect} {gap rest : Text}

/-- The glyphs of a gap, which skipping goes over. -/
def Passed (d : Dialect) (gap rest : Text) (us : List Glyph) : Prop :=
  Glyph.ofText (gap ++ rest) = us ++ Glyph.ofText rest ∧ Glyph.text us = gap ∧
    ∀ n, Scanner.skipTrivia d .between n (us ++ Glyph.ofText rest) =
      Scanner.skipTrivia d .between (n + us.length) (Glyph.ofText rest)

/-- A glyph that is skipped stands before a gap. -/
theorem Passed.glyph {us : List Glyph} {g : Glyph} (more : Passed d gap rest us)
    (leads : g.Leads (gap ++ rest))
    (skips : ∀ n gs, Scanner.skipTrivia d .between n (g :: gs) =
      Scanner.skipTrivia d .between (n + 1) gs) : Passed d (g.bytes ++ gap) rest (g :: us) := by
  obtain ⟨read, bytes, skipped⟩ := more
  refine ⟨?_, by rw [Glyph.text_cons, bytes], fun n => ?_⟩
  · rw [List.append_assoc, leads.ofText, read, List.cons_append]
  · rw [List.cons_append, skips, skipped, List.length_cons, Nat.add_assoc, Nat.add_comm 1]

theorem leads_lineFeed (t : Text) : Glyph.Leads ⟨'\n', [newline]⟩ t := by
  refine .char ?_ (Front.one (by decide)).decode
  rintro ⟨isReturn, -⟩
  cases isReturn

/-- A line feed makes up a pair with the carriage return before it. -/
theorem Passed.pair {us : List Glyph} (more : Passed d (newline :: gap) rest us) :
    ∃ us, Passed d (carriageReturn :: newline :: gap) rest us := by
  obtain ⟨read, bytes, skipped⟩ := more
  rw [List.cons_append] at read
  have first : Glyph.ofText (newline :: (gap ++ rest)) =
      ⟨'\n', [newline]⟩ :: Glyph.ofText (gap ++ rest) :=
    (leads_lineFeed _).ofText
  rw [first] at read
  cases us with
  | nil => cases bytes
  | cons g us =>
      obtain ⟨rfl, behind⟩ := List.cons.inj read
      have pair := (Glyph.Leads.pair (gap ++ rest)).ofText
      refine ⟨⟨'\n', [carriageReturn, newline]⟩ :: us, ?_, congrArg (carriageReturn :: ·) bytes, ?_⟩
      · exact pair.trans (congrArg (⟨'\n', [carriageReturn, newline]⟩ :: ·) behind)
      · intro n
        rw [List.length_cons] at skipped ⊢
        rw [← skipped, List.cons_append, List.cons_append, Scanner.skipTrivia, Scanner.skipTrivia]

/-- A line comment is over before a line end and before the end of the text. -/
theorem skipTrivia_ends {t : Text} (ends : t = [] ∨ StartsLineEnd t) (n : Nat) :
    Scanner.skipTrivia d .inLine n (Glyph.ofText t) =
      Scanner.skipTrivia d .between n (Glyph.ofText t) := by
  cases t with
  | nil => rfl
  | cons b t =>
      have starts := ends.resolve_left (List.cons_ne_nil b t)
      obtain ⟨g, rest, leads, same⟩ := Glyph.exists_leads b t
      rw [same] at starts ⊢
      rw [leads.ofText, Scanner.skipTrivia_endOfLine (leads.startsLineEnd_iff.1 starts)]

theorem low_of_ends {t : Text} (ends : t = [] ∨ StartsLineEnd t) :
    ∀ b ∈ t.head?, b.toNat < 128 := by
  intro b mem
  rcases ends with rfl | ⟨rest, rfl⟩ | ⟨rest, rfl⟩
  · cases mem
  all_goals
    cases mem
    decide

theorem uncut_of_noneStarts {body behind : Text} (none : NoneStarts StartsLineEnd body behind) :
    Glyph.Uncut body behind := by
  rintro ⟨isReturn, feed⟩
  obtain ⟨before, rfl⟩ := List.getLast?_eq_some_iff.1 isReturn
  obtain ⟨rest, rfl⟩ := List.head?_eq_some_iff.1 feed
  exact none before [carriageReturn] rfl (List.cons_ne_nil _ _) (.inr (List.prefix_append _ rest))

/-- The first byte of a closing mark. -/
theorem closer_byte {form : CommentForm} (isBlock : form.isBlock = true) (t : Text) :
    ∃ b rest, ofChars form.closer ++ t = b :: rest ∧ b.toNat < 128 ∧ b ≠ newline := by
  cases form with
  | slashStar | parenStar => exact ⟨_, _, rfl, by decide, by decide⟩
  | brace => exact ⟨_, _, rfl, by decide, by decide⟩
  | _ => cases isBlock

theorem Passed.lineComment {us : List Glyph} {form : CommentForm} {body : Text}
    (more : Passed d gap rest us) (allowed : d.usage form = .allowed)
    (toLineEnd : form.isBlock = false) (inLine : NoneStarts StartsLineEnd body (gap ++ rest))
    (ends : gap ++ rest = [] ∨ StartsLineEnd (gap ++ rest)) :
    Passed d (ofChars form.opener ++ (body ++ gap)) rest
      (form.opener.map Glyph.plain ++ (Glyph.ofText body ++ us)) := by
  obtain ⟨read, bytes, skipped⟩ := more
  have low := low_of_ends ends
  have uncut := uncut_of_noneStarts inLine
  refine ⟨?_, ?_, fun n => ?_⟩
  · rw [List.append_assoc, List.append_assoc,
      Glyph.ofText_ofChars_append (Scanner.mark_opener form).1, Glyph.ofText_append low uncut, read]
    simp only [List.append_assoc]
  · rw [Glyph.text_append, Glyph.text_append, Glyph.text_plain, Glyph.text_ofText, bytes]
  · have mode : Scanner.SkipMode.opened form n = .inLine := if_neg (by simp [toLineEnd])
    rw [List.append_assoc, List.append_assoc, Scanner.skipTrivia_opener allowed, mode,
      Scanner.skipTrivia_lineBody (Scanner.inLine_of_noneStarts inLine), ← read,
      skipTrivia_ends ends, read, skipped]
    simp only [List.length_append, List.length_map, Nat.add_assoc]

theorem Passed.blockComment {us : List Glyph} {form : CommentForm} {body : Text}
    (more : Passed d gap rest us) (allowed : d.usage form = .allowed)
    (toCloser : form.isBlock = true)
    (inside : NoneStarts (ofChars form.closer <+: ·) body (ofChars form.closer ++ (gap ++ rest))) :
    Passed d (ofChars form.opener ++ (body ++ (ofChars form.closer ++ gap))) rest
      (form.opener.map Glyph.plain ++
        (Glyph.ofText body ++ (form.closer.map Glyph.plain ++ us))) := by
  obtain ⟨read, bytes, skipped⟩ := more
  obtain ⟨noReturn, noReturn', -, -⟩ := Scanner.mark_opener form
  have closer : Glyph.ofText (ofChars form.closer ++ (gap ++ rest)) =
      form.closer.map Glyph.plain ++ (us ++ Glyph.ofText rest) := by
    rw [Glyph.ofText_ofChars_append noReturn', read]
  have whole : Glyph.ofText (body ++ (ofChars form.closer ++ (gap ++ rest))) =
      Glyph.ofText body ++ Glyph.ofText (ofChars form.closer ++ (gap ++ rest)) := by
    obtain ⟨b, behind, first, low, noFeed⟩ := closer_byte toCloser (gap ++ rest)
    rw [first]
    apply Glyph.ofText_append
    · intro x mem
      exact Option.some.inj mem ▸ low
    · rintro ⟨-, feed⟩
      exact noFeed (Option.some.inj feed)
  refine ⟨?_, ?_, fun n => ?_⟩
  · simp only [List.append_assoc]
    rw [Glyph.ofText_ofChars_append noReturn, whole, closer]
  · simp only [Glyph.text_append, Glyph.text_plain, Glyph.text_ofText, bytes]
  · have mode : Scanner.SkipMode.opened form n = .inBlock form n := if_pos toCloser
    simp only [List.append_assoc]
    rw [Scanner.skipTrivia_opener allowed, mode, ← closer,
      Scanner.skipTrivia_blockBody (Scanner.inside_of_noneStarts inside whole), closer,
      Scanner.skipTrivia_closer toCloser, skipped]
    simp only [List.length_append, List.length_map, Nat.add_assoc]

theorem isBlank_of_mem {b : UInt8} (h : b ∈ blankBytes) :
    b.toNat < 128 ∧ Scanner.isBlank (Char.ofNat b.toNat) = true := by
  simp only [blankBytes, List.mem_cons, List.not_mem_nil, or_false] at h
  rcases h with rfl | rfl | rfl | rfl | rfl
  all_goals decide

/-- Skipping goes over a gap. The induction is on the gap. -/
theorem passed (h : d.Gap gap rest) (uncut : Glyph.Uncut gap rest) :
    ∃ us, Passed d gap rest us := by
  induction h with
  | nil rest => exact ⟨[], rfl, rfl, fun n => rfl⟩
  | @blank b gap rest isBlank more ih =>
      have uncut' : Glyph.Uncut gap rest := uncut.of_append (t := [b])
      obtain ⟨us, passed⟩ := ih uncut'
      obtain ⟨low, blank⟩ := isBlank_of_mem isBlank
      by_cases pair : b = carriageReturn ∧ (gap ++ rest).head? = some newline
      · obtain ⟨rfl, feed⟩ := pair
        cases gap with
        | nil => exact absurd ⟨rfl, feed⟩ uncut
        | cons x gap =>
            obtain rfl := Option.some.inj feed
            exact passed.pair
      · have leads : Glyph.Leads ⟨Char.ofNat b.toNat, [b]⟩ (gap ++ rest) :=
          .char pair (Front.one low).decode
        exact ⟨_, passed.glyph leads fun n gs => Scanner.skipTrivia_blank blank⟩
  | @lineFeed gap rest noToken more ih =>
      have uncut' : Glyph.Uncut gap rest := uncut.of_append (t := [newline])
      obtain ⟨us, passed⟩ := ih uncut'
      exact ⟨_, passed.glyph (leads_lineFeed _) fun n gs => Scanner.skipTrivia_lineEnd rfl noToken⟩
  | @lineComment form body gap rest allowed toLineEnd inLine ends more ih =>
      obtain ⟨us, passed⟩ := ih uncut.of_append.of_append
      exact ⟨_, passed.lineComment allowed toLineEnd inLine ends⟩
  | @blockComment form body gap rest allowed toCloser inside more ih =>
      obtain ⟨us, passed⟩ := ih uncut.of_append.of_append.of_append
      exact ⟨_, passed.blockComment allowed toCloser inside⟩

/-! ### Gaps before other texts -/

/-- A line end that starts before a text does not depend on more than its front. -/
theorem startsLineEnd_append {rest' : Text} (head : rest'.head? = rest.head?)
    (starts : StartsLineEnd rest' ↔ StartsLineEnd rest) (t : Text) :
    StartsLineEnd (t ++ rest') ↔ StartsLineEnd (t ++ rest) := by
  have feed (u : Text) : [newline] <+: u ↔ u.head? = some newline := by
    cases u <;> simp [eq_comm]
  cases t with
  | nil => exact starts
  | cons b t =>
      cases t with
      | nil =>
          rw [StartsLineEnd, StartsLineEnd, List.singleton_append, List.singleton_append,
            List.cons_prefix_cons, List.cons_prefix_cons, List.cons_prefix_cons,
            List.cons_prefix_cons, feed, feed, head]
          simp only [List.nil_prefix]
      | cons c t =>
          simp only [StartsLineEnd, List.cons_append, List.cons_prefix_cons, List.nil_prefix]

/-- A gap is a gap before every text with the same front. -/
theorem before {rest' : Text} (h : d.Gap gap rest) (head : rest'.head? = rest.head?)
    (starts : StartsLineEnd rest' ↔ StartsLineEnd rest) : d.Gap gap rest' := by
  have lineEnds := startsLineEnd_append head starts
  have ends : rest = [] ↔ rest' = [] := by
    rw [← List.head?_eq_none_iff, ← List.head?_eq_none_iff, head]
  induction h with
  | nil => exact .nil _
  | blank isBlank _ ih => exact .blank isBlank (ih head starts lineEnds ends)
  | lineFeed noToken _ ih => exact .lineFeed noToken (ih head starts lineEnds ends)
  | @lineComment form body gap rest allowed toLineEnd inLine atEnd _ ih =>
      refine .lineComment allowed toLineEnd ?_ ?_ (ih head starts lineEnds ends)
      · intro u v split some
        have other := inLine u v split some
        rw [← List.append_assoc] at other ⊢
        rwa [lineEnds]
      · rw [List.append_eq_nil_iff, ← ends, lineEnds, ← List.append_eq_nil_iff]
        exact atEnd
  | @blockComment form body gap rest allowed toCloser inside _ ih =>
      refine .blockComment allowed toCloser ?_ (ih head starts lineEnds ends)
      intro u v split some closes
      refine inside u v split some ?_
      -- The mark fits between the body and the closing mark.
      have within : ofChars form.closer <+: v ++ ofChars form.closer := by
        rw [← List.append_assoc] at closes
        exact List.prefix_of_prefix_length_le closes (List.prefix_append _ _) (by simp)
      rw [← List.append_assoc]
      exact within.trans (List.prefix_append _ _)

end Dialect.Gap

end PrgScript
