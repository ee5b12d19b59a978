import PrgScript.Proofs.Spans

/-!
# What stands between tokens

The scanner leaves out the glyphs between two tokens. `Dialect.Gap` says in bytes what
these may be: blanks, line feeds where they are no tokens, and whole comments of the
shapes that the dialect allows. A comment ends at the first place where it can, so
what a gap is depends on what follows it.

Skipping is always in one of three states, between comments or in one of two kinds of
comments. `Passes` says for each of them what it goes over when it ends well, and is
built up glyph by glyph. Marks are characters below 128, so they stand in the bytes
exactly where they stand in the glyphs.
-/

namespace PrgScript

open Text

/-! ### Gaps -/

/-- The bytes that separate tokens in every dialect: blank, tab, carriage return, form feed and
vertical tab. -/
def Text.blankBytes : List UInt8 := [32, 9, 13, 12, 11]

/-- A text that starts with a line end: a line feed, or a pair of carriage return and line feed. -/
def Text.StartsLineEnd (t : Text) : Prop := [newline] <+: t ∨ [carriageReturn, newline] <+: t

instance (t : Text) : Decidable (Text.StartsLineEnd t) := inferInstanceAs (Decidable (_ ∨ _))

/-- At no place of a body, followed by a text, starts something with a property. -/
def Text.NoneStarts (P : Text → Prop) (body behind : Text) : Prop :=
  ∀ u v, body = u ++ v → v ≠ [] → ¬P (v ++ behind)

/-- What may stand between two tokens, given the text behind it. -/
inductive Dialect.Gap (d : Dialect) : Text → Text → Prop
  | nil (rest : Text) : Gap d [] rest
  | blank {b : UInt8} {gap rest : Text} (isBlank : b ∈ blankBytes) (more : Gap d gap rest) :
      Gap d (b :: gap) rest
  | lineFeed {gap rest : Text} (noToken : d.newlineSignificant = false) (more : Gap d gap rest) :
      Gap d (newline :: gap) rest
  | lineComment {form : CommentForm} {body gap rest : Text} (allowed : d.usage form = .allowed)
      (toLineEnd : form.isBlock = false) (inLine : NoneStarts StartsLineEnd body (gap ++ rest))
      (ends : gap ++ rest = [] ∨ StartsLineEnd (gap ++ rest)) (more : Gap d gap rest) :
      Gap d (ofChars form.opener ++ (body ++ gap)) rest
  | blockComment {form : CommentForm} {body gap rest : Text} (allowed : d.usage form = .allowed)
      (toCloser : form.isBlock = true)
      (inside : NoneStarts (ofChars form.closer <+: ·) body (ofChars form.closer ++ (gap ++ rest)))
      (more : Gap d gap rest) :
      Gap d (ofChars form.opener ++ (body ++ (ofChars form.closer ++ gap))) rest

namespace Text.NoneStarts

variable {P : Text → Prop} {body behind : Text}

theorem nil (P : Text → Prop) (behind : Text) : NoneStarts P [] behind := by
  intro u v same some
  exact absurd (List.append_eq_nil_iff.1 same.symm).2 some

theorem cons {b : UInt8} (first : ¬P (b :: (body ++ behind))) (rest : NoneStarts P body behind) :
    NoneStarts P (b :: body) behind := by
  intro u v same some
  rcases List.cons_eq_append_iff.1 same with ⟨rfl, rfl⟩ | ⟨u', rfl, same'⟩
  · exact first
  · exact rest u' v same' some

/-- Bytes at which nothing can start may stand behind the first one. -/
theorem append {b : UInt8} {more : Text} (first : ¬P (b :: (more ++ (body ++ behind))))
    (others : ∀ x ∈ more, ∀ t, ¬P (x :: t)) (rest : NoneStarts P body behind) :
    NoneStarts P (b :: (more ++ body)) behind := by
  refine .cons (by rwa [List.append_assoc]) ?_
  clear first
  induction more with
  | nil => exact rest
  | cons x more ih =>
      rw [List.forall_mem_cons] at others
      exact .cons (others.1 _) (ih others.2)

end Text.NoneStarts

/-! ### Marks in glyphs and in bytes -/

namespace Glyph

/-- The glyph of a byte below 128, other than the first of a line end. -/
theorem Leads.eq_of_byte {g : Glyph} {t w : Text} {b : UInt8} (h : g.Leads t)
    (same : g.bytes ++ t = b :: w) (low : b.toNat < 128) (other : b ≠ carriageReturn) :
    g = ⟨Char.ofNat b.toNat, [b]⟩ := by
  obtain rfl | ⟨x, -, rfl⟩ | ⟨-, high⟩ := h.shape
  · exact absurd (List.cons.inj same).1.symm other
  · rw [(List.cons.inj same).1]
  · obtain ⟨x, more, bytes⟩ := List.exists_cons_of_ne_nil h.bytes_ne_nil
    rw [bytes] at same high
    obtain rfl := (List.cons.inj same).1
    have := high x List.mem_cons_self
    omega

/-- A character below 128 that does not end a line is written with its own byte. -/
theorem Leads.bytes_of_lt {g : Glyph} {t : Text} (h : g.Leads t) (low : g.char.toNat < 128)
    (inLine : g.char ≠ '\n') : g.bytes = Text.ofChar g.char := by
  obtain rfl | ⟨b, small, rfl⟩ | ⟨high, -⟩ := h.shape
  · exact absurd rfl inLine
  · have code : (Char.ofNat b.toNat).toNat = b.toNat := toNat_char (by omega)
    rw [ofChar_of_lt low]
    show [b] = [UInt8.ofNat (Char.ofNat b.toNat).toNat]
    rw [code, UInt8.ofNat_toNat]
  · omega

/-- Behind its first byte a glyph has bytes from 128 on, unless it ends a line. -/
theorem Leads.tail {g : Glyph} {t more : Text} {b : UInt8} (h : g.Leads t)
    (bytes : g.bytes = b :: more) :
    ∀ x ∈ more, 128 ≤ x.toNat ∨ x = newline ∧ g.char = '\n' := by
  intro x mem
  obtain rfl | ⟨y, -, rfl⟩ | ⟨-, high⟩ := h.shape
  · obtain ⟨-, rfl⟩ := List.cons.inj bytes
    exact .inr ⟨List.mem_singleton.1 mem, rfl⟩
  · obtain ⟨-, rfl⟩ := List.cons.inj bytes
    cases mem
  · rw [bytes] at high
    exact .inl (high x (List.mem_cons_of_mem _ mem))

/-- The characters of marks: below 128 and no part of a line end. -/
def IsMark (c : Char) : Prop := c.toNat < 128 ∧ c ≠ '\r' ∧ c ≠ '\n'

theorem IsMark.ofChar {c : Char} (mark : IsMark c) :
    ofChar c = [UInt8.ofNat c.toNat] ∧ (UInt8.ofNat c.toNat).toNat = c.toNat :=
  ⟨ofChar_of_lt mark.1, UInt8.toNat_ofNat_of_lt' (Nat.lt_trans mark.1 (by decide))⟩

/-- A mark stands in the glyphs wherever it stands in the bytes. -/
theorem plain_of_ofChars {cs : List Char} (marks : ∀ c ∈ cs, IsMark c) {gs : List Glyph}
    (read : ofText (text gs) = gs) (h : ofChars cs <+: text gs) : cs.map plain <+: gs := by
  induction cs generalizing gs with
  | nil => exact List.nil_prefix
  | cons c cs ih =>
      rw [List.forall_mem_cons] at marks
      obtain ⟨mark, marks⟩ := marks
      obtain ⟨byte, code⟩ := mark.ofChar
      obtain ⟨behind, whole⟩ := h
      rw [ofChars_cons, byte, List.append_assoc, List.singleton_append] at whole
      cases gs with
      | nil => cases whole
      | cons g gs =>
          obtain ⟨rest, leads, same, ahead⟩ := leads_of_ofText read
          have low := mark.1
          have other : UInt8.ofNat c.toNat ≠ carriageReturn := by
            intro isReturn
            rw [isReturn] at code
            exact mark.2.1 (Char.toNat_inj.1 code.symm)
          rw [same] at whole
          obtain rfl := leads.eq_of_byte whole.symm (by omega) other
          have tail : ofChars cs ++ behind = rest := (List.cons.inj whole).2
          have within : ofChars cs <+: text gs := by
            rw [← ahead, text_ofText, ← tail]
            exact List.prefix_append _ _
          have read' : ofText (text gs) = gs := by rw [← ahead, text_ofText]
          rw [List.map_cons, code, Char.ofNat_toNat]
          exact List.cons_prefix_cons.2 ⟨by rw [plain, byte], ih marks read' within⟩

/-- A line end stands in the glyphs wherever it stands in the bytes. -/
theorem Leads.startsLineEnd_iff {g : Glyph} {t : Text} (h : g.Leads t) :
    StartsLineEnd (g.bytes ++ t) ↔ g.char = '\n' := by
  constructor
  · intro starts
    cases h with
    | pair => rfl
    | @char b more t c alone read =>
        obtain ⟨behind, same⟩ | ⟨behind, same⟩ := starts
        · obtain ⟨rfl, -⟩ := List.cons.inj same
          have low : newline.toNat < 128 := by decide
          exact congrArg Prod.fst (read.symm.trans (Front.one low).decode)
        · obtain ⟨rfl, tail⟩ := List.cons.inj same
          have next : more ++ t = newline :: behind := tail.symm
          exact absurd ⟨rfl, by rw [next, List.head?_cons]⟩ alone
  · intro isEnd
    rcases h.bytes_of_newline isEnd with bytes | bytes
    · exact .inl (bytes ▸ List.prefix_append _ _)
    · exact .inr (bytes ▸ List.prefix_append _ _)

end Glyph

theorem Text.not_startsLineEnd {b : UInt8} (high : 128 ≤ b.toNat) (t : Text) :
    ¬StartsLineEnd (b :: t) := by
  rintro (⟨behind, same⟩ | ⟨behind, same⟩)
  all_goals
    obtain ⟨rfl, -⟩ := List.cons.inj same
    exact absurd high (by decide)

/-- No mark starts inside a glyph. -/
theorem Glyph.IsMark.not_starts {c : Char} (mark : IsMark c) (cs : List Char) {b : UInt8}
    (other : 128 ≤ b.toNat ∨ b = newline) (t : Text) : ¬ofChars (c :: cs) <+: b :: t := by
  rintro ⟨behind, same⟩
  obtain ⟨byte, code⟩ := mark.ofChar
  rw [ofChars_cons, byte, List.append_assoc, List.singleton_append] at same
  obtain ⟨rfl, -⟩ := List.cons.inj same
  rcases other with high | isFeed
  · have := mark.1
    omega
  · rw [isFeed] at code
    exact mark.2.2 (Char.toNat_inj.1 code.symm)

theorem CommentForm.isMark (form : CommentForm) :
    (∀ c ∈ form.opener, Glyph.IsMark c) ∧ ∀ c ∈ form.closer, Glyph.IsMark c := by
  cases form <;> simp [CommentForm.opener, CommentForm.closer, CommentForm.first,
    CommentForm.second?, Glyph.IsMark]

/-- A blank is written with one byte. -/
theorem Text.ofChar_of_isBlank {c : Char} (h : Scanner.isBlank c = true) :
    c.toNat < 128 ∧ c ≠ '\n' ∧ ∃ b ∈ blankBytes, ofChar c = [b] := by
  simp only [Scanner.isBlank, Bool.or_eq_true, beq_iff_eq] at h
  rcases h with (((rfl | rfl) | rfl) | rfl) | rfl
  all_goals exact ⟨by decide, by decide, _, by decide, ofChar_of_lt (by decide)⟩

/-! ### Gaps glyph by glyph -/

namespace Dialect.Gap

variable {d : Dialect} {g : Glyph} {t gap rest : Text}

theorem blank_glyph (leads : g.Leads t) (isBlank : Scanner.isBlank g.char = true)
    (more : d.Gap gap rest) : d.Gap (g.bytes ++ gap) rest := by
  obtain ⟨low, inLine, b, mem, byte⟩ := Text.ofChar_of_isBlank isBlank
  rw [leads.bytes_of_lt low inLine, byte]
  exact .blank mem more

theorem lineEnd_glyph (leads : g.Leads t) (isEnd : g.char = '\n')
    (noToken : d.newlineSignificant = false) (more : d.Gap gap rest) :
    d.Gap (g.bytes ++ gap) rest := by
  have feed : d.Gap (newline :: gap) rest := .lineFeed noToken more
  rcases leads.bytes_of_newline isEnd with bytes | bytes
  · rw [bytes]
    exact feed
  · rw [bytes]
    exact .blank (by decide) feed

end Dialect.Gap

namespace Scanner

/-- What skipping goes over from a state on, given the text behind it. -/
def Passes (d : Dialect) : SkipMode → Text → Text → Prop
  | .between, t, rest => d.Gap t rest
  | .inLine, t, rest =>
    ∃ body gap, t = body ++ gap ∧ NoneStarts StartsLineEnd body (gap ++ rest) ∧
      (gap ++ rest = [] ∨ StartsLineEnd (gap ++ rest)) ∧ d.Gap gap rest
  | .inBlock form _, t, rest =>
    ∃ body gap, t = body ++ (ofChars form.closer ++ gap) ∧
      NoneStarts (ofChars form.closer <+: ·) body (ofChars form.closer ++ (gap ++ rest)) ∧
      d.Gap gap rest

/-- A number of glyphs that skipping goes over. -/
def Skips (d : Dialect) (mode : SkipMode) (gs : List Glyph) (n : Nat) : Prop :=
  Passes d mode (Glyph.text (gs.take n)) (Glyph.text (gs.drop n))

variable {d : Dialect} {g : Glyph} {gs : List Glyph} {n : Nat} {form : CommentForm} {start : Nat}

theorem Skips.nothing (d : Dialect) (gs : List Glyph) : Skips d .between gs 0 := .nil _

/-- A line comment may be the last thing in a script. -/
theorem Skips.endOfText (d : Dialect) : Skips d .inLine [] 0 :=
  ⟨[], [], rfl, .nil _ _, .inl rfl, .nil _⟩

/-- The first of some glyphs leads the others. -/
theorem leads_take_drop (read : Glyph.ofText (Glyph.text (g :: gs)) = g :: gs) (n : Nat) :
    g.Leads (Glyph.text (gs.take n) ++ Glyph.text (gs.drop n)) ∧
      Glyph.ofText (Glyph.text gs) = gs := by
  obtain ⟨rest, leads, -, ahead⟩ := Glyph.leads_of_ofText read
  rw [← Glyph.text_append, List.take_append_drop, ← ahead, Glyph.text_ofText]
  exact ⟨leads, rfl⟩

section Step

variable (read : Glyph.ofText (Glyph.text (g :: gs)) = g :: gs)

include read

theorem Skips.blank (isBlank : isBlank g.char = true) (more : Skips d .between gs n) :
    Skips d .between (g :: gs) (n + 1) :=
  .blank_glyph (leads_take_drop read n).1 isBlank more

theorem Skips.lineEnd (isEnd : g.char = '\n') (noToken : d.newlineSignificant = false)
    (more : Skips d .between gs n) : Skips d .between (g :: gs) (n + 1) :=
  .lineEnd_glyph (leads_take_drop read n).1 isEnd noToken more

/-- A line comment is over where the line is. -/
theorem Skips.endOfLine (isEnd : g.char = '\n') (more : Skips d .between (g :: gs) n) :
    Skips d .inLine (g :: gs) n := by
  refine ⟨[], Glyph.text ((g :: gs).take n), rfl, .nil _ _, .inr ?_, more⟩
  rw [← Glyph.text_append, List.take_append_drop, Glyph.text_cons]
  have leads := (leads_take_drop read 0).1
  exact leads.startsLineEnd_iff.2 isEnd

theorem Skips.inLine (inside : g.char ≠ '\n') (more : Skips d .inLine gs n) :
    Skips d .inLine (g :: gs) (n + 1) := by
  obtain ⟨body, gap, same, none, ends, more⟩ := more
  have leads := (leads_take_drop read n).1
  obtain ⟨b, tail, bytes⟩ := List.exists_cons_of_ne_nil leads.bytes_ne_nil
  have first : ¬StartsLineEnd (g.bytes ++ (Glyph.text (gs.take n) ++ Glyph.text (gs.drop n))) :=
    fun starts => inside (leads.startsLineEnd_iff.1 starts)
  refine ⟨g.bytes ++ body, gap, ?_, ?_, ends, more⟩
  · rw [List.take_succ_cons, Glyph.text_cons, same, List.append_assoc]
  · rw [same, bytes, List.append_assoc] at first
    rw [bytes]
    refine .append first (fun x mem t => ?_) none
    obtain high | ⟨-, isEnd⟩ := leads.tail bytes x mem
    · exact not_startsLineEnd high t
    · exact absurd isEnd inside

/-- A block comment goes on where no closing mark starts. -/
theorem Skips.inBlock (isBlock : form.isBlock = true)
    (inside : ¬form.closer.map Glyph.plain <+: g :: gs)
    (more : Skips d (.inBlock form start) gs n) :
    Skips d (.inBlock form start) (g :: gs) (n + 1) := by
  obtain ⟨body, gap, same, none, more⟩ := more
  have leads := (leads_take_drop read n).1
  obtain ⟨b, tail, bytes⟩ := List.exists_cons_of_ne_nil leads.bytes_ne_nil
  have marks := form.isMark.2
  have first : ¬ofChars form.closer <+: Glyph.text (g :: gs) :=
    fun starts => inside (Glyph.plain_of_ofChars marks read starts)
  have whole : Glyph.text (g :: gs) =
      b :: (tail ++ (body ++ (ofChars form.closer ++ (gap ++ Glyph.text (gs.drop n))))) := by
    rw [Glyph.text_cons, ← List.take_append_drop n gs, Glyph.text_append, List.take_append_drop,
      same, bytes]
    simp only [List.cons_append, List.append_assoc]
  refine ⟨g.bytes ++ body, gap, ?_, ?_, more⟩
  · rw [List.take_succ_cons, Glyph.text_cons, same, List.append_assoc]
  · rw [whole] at first
    rw [bytes]
    refine .append first (fun x mem t => ?_) none
    have other := (leads.tail bytes x mem).imp_right And.left
    cases closer : form.closer with
    | nil => simp [CommentForm.isBlock, closer] at isBlock
    | cons c cs =>
        rw [closer, List.forall_mem_cons] at marks
        exact marks.1.not_starts cs other t

end Step

theorem take_drop_plain (cs : List Char) (gs : List Glyph) (n : Nat) :
    Glyph.text ((cs.map Glyph.plain ++ gs).take (n + cs.length)) =
        ofChars cs ++ Glyph.text (gs.take n) ∧
      (cs.map Glyph.plain ++ gs).drop (n + cs.length) = gs.drop n := by
  have length : cs.length = (cs.map Glyph.plain).length := (List.length_map _).symm
  rw [length, Nat.add_comm, List.take_length_add_append, List.drop_length_add_append,
    Glyph.text_append, Glyph.text_plain]
  exact ⟨rfl, rfl⟩

/-- A block comment is over behind its first closing mark. -/
theorem Skips.close (more : Skips d .between gs n) :
    Skips d (.inBlock form start) (form.closer.map Glyph.plain ++ gs) (n + form.closer.length) := by
  obtain ⟨used, rest⟩ := take_drop_plain form.closer gs n
  refine ⟨[], Glyph.text (gs.take n), used, .nil _ _, ?_⟩
  rw [rest]
  exact more

/-- An opening mark and what its comment goes on with. -/
theorem Skips.comment (allowed : d.usage form = .allowed)
    (more : Skips d (if form.isBlock then .inBlock form start else .inLine) gs n) :
    Skips d .between (form.opener.map Glyph.plain ++ gs) (n + form.opener.length) := by
  obtain ⟨used, rest⟩ := take_drop_plain form.opener gs n
  show d.Gap _ _
  rw [used, rest]
  by_cases isBlock : form.isBlock = true
  · rw [if_pos isBlock] at more
    obtain ⟨body, gap, same, inside, more⟩ := more
    rw [same]
    exact .blockComment allowed isBlock inside more
  · rw [if_neg isBlock] at more
    obtain ⟨body, gap, same, inLine, ends, more⟩ := more
    rw [same]
    exact .lineComment allowed (by simpa using isBlock) inLine ends more

/-- The glyph of a mark. -/
theorem eq_plain {c : Char} (mark : Glyph.IsMark c) (char : g.char = c)
    (read : Glyph.ofText (Glyph.text (g :: gs)) = g :: gs) : g = Glyph.plain c := by
  have leads := (leads_take_drop read 0).1
  have bytes := leads.bytes_of_lt (char ▸ mark.1) (char ▸ mark.2.2)
  obtain ⟨found, written⟩ := g
  subst char
  exact congrArg (Glyph.mk found) bytes

/-- Where a comment is found, its opening mark stands. -/
theorem opener_of_commentAt? (read : Glyph.ofText (Glyph.text (g :: gs)) = g :: gs)
    (found : commentAt? d g.char (gs.head?.map (·.char)) = some form) :
    d.usage form ≠ .notComment ∧
      g :: gs = form.opener.map Glyph.plain ++ (g :: gs).drop form.opener.length := by
  have member := List.mem_of_find?_eq_some found
  have opens := List.find?_some found
  have marks := form.isMark.1
  refine ⟨fun none => by simp [Dialect.commentForms, none] at member, ?_⟩
  unfold opensWith at opens
  rw [CommentForm.opener, List.forall_mem_cons] at marks
  rw [Bool.and_eq_true, beq_iff_eq] at opens
  obtain ⟨first, second⟩ := opens
  have same := eq_plain marks.1 first.symm read
  rw [CommentForm.opener, List.map_cons, ← same]
  cases known : form.second? with
  | none => rfl
  | some c =>
      rw [known] at second marks
      cases gs with
      | nil => simp at second
      | cons g' gs =>
          have char : g'.char = c := by simpa using second
          have same' := eq_plain (marks.2 c (by simp)) char (leads_take_drop read 0).2
          rw [same']
          rfl

theorem closer_cases (isBlock : form.isBlock = true) :
    (∃ c c', form.closer = [c, c']) ∨ ∃ c, form.closer = [c] := by
  cases form with
  | slashStar | parenStar => exact .inl ⟨_, _, rfl⟩
  | brace => exact .inr ⟨_, rfl⟩
  | _ => cases isBlock

/-- Skipping goes over glyphs from one count to another. -/
def SkipsTo (d : Dialect) (mode : SkipMode) (gs : List Glyph) (count total : Nat) : Prop :=
  ∃ n, total = count + n ∧ Skips d mode gs n

theorem SkipsTo.refl {mode : SkipMode} {count : Nat} (here : Skips d mode gs 0) :
    SkipsTo d mode gs count count := ⟨0, rfl, here⟩

/-- Some glyphs, and what skipping goes over behind them. -/
theorem SkipsTo.step {mode mode' : SkipMode} {gs' : List Glyph} {count total k : Nat}
    (more : SkipsTo d mode gs (count + k) total)
    (skips : ∀ n, Skips d mode gs n → Skips d mode' gs' (n + k)) :
    SkipsTo d mode' gs' count total := by
  obtain ⟨n, rfl, more⟩ := more
  exact ⟨n + k, by omega, skips n more⟩

theorem SkipsTo.comment {count total : Nat} {rest : List Glyph}
    (read : Glyph.ofText (Glyph.text (g :: gs)) = g :: gs)
    (found : commentAt? d g.char (gs.head?.map (·.char)) = some form)
    (notForeign : d.usage form ≠ .foreign) (behind : (g :: gs).drop form.opener.length = rest)
    (more : SkipsTo d (if form.isBlock then .inBlock form start else .inLine) rest
      (count + form.opener.length) total) : SkipsTo d .between (g :: gs) count total := by
  obtain ⟨isComment, same⟩ := opener_of_commentAt? read found
  have allowed : d.usage form = .allowed := by
    cases usage : d.usage form with
    | allowed => rfl
    | notComment => exact absurd usage isComment
    | foreign => exact absurd usage notForeign
  rw [same, behind]
  exact more.step fun n more => .comment allowed more

theorem SkipsTo.close {count total : Nat} {rest : List Glyph}
    (same : gs = form.closer.map Glyph.plain ++ rest)
    (more : SkipsTo d .between rest (count + form.closer.length) total) :
    SkipsTo d (.inBlock form start) gs count total := by
  rw [same]
  exact more.step fun n more => .close more

/-- Skipping stands in a block only if its shape has a closing mark. -/
def SkipMode.IsProper : SkipMode → Prop
  | .between | .inLine => True
  | .inBlock form _ => form.isBlock = true

theorem SkipMode.isProper_opened (form : CommentForm) (start : Nat) :
    (if form.isBlock then SkipMode.inBlock form start else .inLine).IsProper := by
  by_cases isBlock : form.isBlock = true
  · rw [if_pos isBlock]
    exact isBlock
  · rw [if_neg isBlock]
    trivial

/-- What is skipped when skipping ends well. The induction is on the glyphs, in the state that
skipping is in. -/
theorem skipsTo_of_skipTrivia {mode : SkipMode} {count total : Nat} {gs : List Glyph}
    (proper : mode.IsProper) (read : Glyph.ofText (Glyph.text gs) = gs)
    (h : skipTrivia d mode count gs = .clear total) : SkipsTo d mode gs count total := by
  fun_induction skipTrivia d mode count gs with
  | case1 count | case4 count | case7 count =>
      cases h
      exact .refl (Skips.nothing d _)
  | case2 count =>
      cases h
      exact .refl (Skips.endOfText d)
  | case3 | case8 => cases h
  | case5 count g rest isEnd noToken ih =>
      have more := ih trivial (leads_take_drop read 0).2 h
      exact more.step fun n more => .lineEnd read isEnd (by simpa using noToken) more
  | case6 count g rest inLine isBlank ih =>
      have more := ih trivial (leads_take_drop read 0).2 h
      exact more.step fun n more => .blank read isBlank more
  | case9 count g inLine solid form notForeign mode c g' rest second found ih =>
      have two : form.opener.length = 2 := by simp [CommentForm.opener, second]
      have behind : Glyph.ofText (Glyph.text rest) = rest :=
        (leads_take_drop (leads_take_drop read 0).2 0).2
      apply SkipsTo.comment read found notForeign (by rw [two])
      rw [two]
      exact ih (SkipMode.isProper_opened ..) behind h
  | case10 count g inLine solid form notForeign mode rest single found ih =>
      have one : form.opener.length = 1 := by
        cases second : form.second? with
        | none => simp [CommentForm.opener, second]
        | some c =>
            have opens := List.find?_some found
            cases rest with
            | nil => simp [opensWith, second] at opens
            | cons g' rest => exact (single c g' rest second rfl).elim
      apply SkipsTo.comment read found notForeign (by rw [one])
      rw [one]
      exact ih (SkipMode.isProper_opened ..) (leads_take_drop read 0).2 h
  | case11 count g rest isEnd token =>
      cases h
      exact .refl (.endOfLine read isEnd (Skips.nothing d _))
  | case12 count g rest isEnd noToken ih =>
      have more := ih trivial (leads_take_drop read 0).2 h
      exact more.step fun n more =>
        .endOfLine read isEnd (.lineEnd read isEnd (by simpa using noToken) more)
  | case13 count g rest inLine ih =>
      have more := ih trivial (leads_take_drop read 0).2 h
      exact more.step fun n more => .inLine read inLine more
  | case14 form start count g c c' g' rest closer both ih =>
      have marks := form.isMark.2
      simp only [closer, List.forall_mem_cons] at marks
      have read' := (leads_take_drop read 0).2
      have more := ih trivial (leads_take_drop read' 0).2 h
      have whole : g :: g' :: rest = form.closer.map Glyph.plain ++ rest := by
        rw [closer, eq_plain marks.1 both.1 read, eq_plain marks.2.1 both.2 read']
        rfl
      exact .close whole (by rwa [closer])
  | case15 form start count g c c' g' rest closer other ih =>
      have more := ih proper (leads_take_drop read 0).2 h
      refine more.step fun n more => .inBlock read proper ?_ more
      rintro ⟨behind, same⟩
      rw [closer] at same
      cases same
      exact other ⟨rfl, rfl⟩
  | case16 form start count g rest closer ih =>
      have marks := form.isMark.2
      simp only [closer, List.forall_mem_cons] at marks
      have more := ih trivial (leads_take_drop read 0).2 h
      have whole : g :: rest = form.closer.map Glyph.plain ++ rest := by
        rw [closer]
        exact congrArg (· :: rest) (eq_plain marks.1 rfl read)
      exact .close whole (by rwa [closer])
  | case17 form start count g c rest closer other ih =>
      have more := ih proper (leads_take_drop read 0).2 h
      refine more.step fun n more => .inBlock read proper ?_ more
      rintro ⟨behind, same⟩
      rw [closer] at same
      cases same
      exact other rfl
  | case18 form start count g rest noPair noSingle ih =>
      -- Too few glyphs are left for a closing mark of two characters.
      have more := ih proper (leads_take_drop read 0).2 h
      refine more.step fun n more => .inBlock read proper ?_ more
      rintro ⟨behind, same⟩
      obtain ⟨c, c', closer⟩ | ⟨c, closer⟩ := closer_cases proper
      · rw [closer] at same
        cases same
        exact noPair c c' _ _ closer rfl
      · exact noSingle c closer

/-- A step without an error goes over a gap and then the glyphs of its token. -/
theorem Gives.gap {file : File} {c c' : Cursor} {tok : Token}
    (h : Gives file d c ⟨tok, none⟩ c') (inside : c.In file) :
    ∃ gap, d.Gap gap (tok.text ++ Glyph.text c'.rest) ∧
      Glyph.text c.rest = gap ++ (tok.text ++ Glyph.text c'.rest) ∧
      tok.span.start = c.pos.offset + gap.length ∧ tok.span.stop = c'.pos.offset := by
  obtain ⟨count, kind, value, n, skipped, rfl, rfl⟩ : ∃ count kind value n,
      skipTrivia d .between 0 c.rest = .clear count ∧
      tok = tokenBetween file kind value n (c.skip count) ((c.skip count).skip n) ∧
      c' = (c.skip count).skip n := by
    cases h with
    | @eof count skipped => exact ⟨count, .eof, [], 0, skipped, rfl, rfl⟩
    | @token count more g rest kind value skipped =>
        exact ⟨count, kind, value, more + 1, skipped, rfl, rfl⟩
  have proper : SkipMode.between.IsProper := trivial
  obtain ⟨m, rfl, skips⟩ := skipsTo_of_skipTrivia proper inside.ofText_rest skipped
  rw [Nat.zero_add]
  have behind : Glyph.text (c.rest.drop m) =
      Glyph.text ((c.skip m).rest.take n) ++ Glyph.text ((c.skip m).skip n).rest := by
    simp only [Cursor.skip_rest, ← Glyph.text_append, List.take_append_drop]
  refine ⟨Glyph.text (c.rest.take m), ?_, ?_, Cursor.skip_offset m c, rfl⟩
  · exact behind ▸ skips
  · show _ = _ ++ (Glyph.text ((c.skip m).rest.take n) ++ _)
    rw [← behind, ← Glyph.text_append, List.take_append_drop]

end Scanner

/-! ### The gaps of a script -/

/-- Tokens with the bytes that stand between the one before and each of them, from an offset on. -/
def Token.withGaps (content : Text) (offset : Nat) : List Token → List (Text × Token)
  | [] => []
  | tok :: toks =>
    ((content.drop offset).take (tok.span.start - offset), tok) ::
      withGaps content tok.span.stop toks

namespace Lexer

variable {file : File} {d : Dialect} {lx lx' : Lexer} {tok : Token}

theorem Of.drop_offset (h : lx.Of file d) :
    file.content.drop lx.cursor.pos.offset = Glyph.text lx.cursor.rest := by
  obtain ⟨c, rfl, inside⟩ := h
  obtain ⟨before, whole, length⟩ := inside.content
  rw [whole, ← length, List.drop_left]

/-- What a call without an error goes over: a gap and the text of its token. -/
theorem Of.gap (h : lx.Of file d) (next : lx.next = (⟨tok, none⟩, lx')) :
    lx'.Of file d ∧ tok.span.stop = lx'.cursor.pos.offset ∧ ∃ gap,
      (file.content.drop lx.cursor.pos.offset).take (tok.span.start - lx.cursor.pos.offset) = gap ∧
      d.Gap gap (file.content.drop tok.span.start) ∧
      file.content.drop lx.cursor.pos.offset =
        gap ++ (tok.text ++ file.content.drop lx'.cursor.pos.offset) := by
  have of := h.next.1
  rw [next] at of
  rw [h.drop_offset, of.drop_offset]
  have start := h.drop_offset
  obtain ⟨c, rfl, inside⟩ := h
  rw [next_eq] at next
  obtain ⟨scanned, rfl⟩ := Prod.mk.inj next
  have gives := Scanner.gives_scan file d c
  rw [scanned] at gives
  obtain ⟨gap, isGap, whole, offset, stop⟩ := gives.gap inside
  have behind : file.content.drop tok.span.start =
      tok.text ++ Glyph.text (Scanner.scan file d c).2.rest := by
    rw [offset, ← List.drop_drop, start]
    show (Glyph.text c.rest).drop gap.length = _
    rw [whole, List.drop_left]
  refine ⟨of, stop, gap, ?_, behind ▸ isGap, whole⟩
  show (Glyph.text c.rest).take (tok.span.start - c.pos.offset) = gap
  rw [offset, Nat.add_sub_cancel_left, whole, List.take_left]

theorem Of.withGaps {toks : List Token} {eof : Token} (h : lx.Of file d)
    (yields : lx.Yields toks eof) :
    (∀ part ∈ Token.withGaps file.content lx.cursor.pos.offset (toks ++ [eof]),
      d.Gap part.1 (file.content.drop part.2.span.start)) ∧
    (Token.withGaps file.content lx.cursor.pos.offset (toks ++ [eof])).flatMap
        (fun part => part.1 ++ part.2.text) = file.content.drop lx.cursor.pos.offset := by
  induction yields with
  | @done lx lx' eof ends last atEnd =>
      obtain ⟨of, stop, gap, same, isGap, whole⟩ := h.gap ends
      have nothing : file.content.drop lx'.cursor.pos.offset = [] := by
        rw [of.drop_offset, List.isEmpty_iff.1 atEnd]
        rfl
      rw [nothing] at whole
      simp only [List.nil_append, Token.withGaps, same, List.forall_mem_singleton,
        List.flatMap_singleton]
      exact ⟨isGap, by rw [whole, List.append_nil]⟩
  | @more lx lx' tok eof toks first inside rest ih =>
      obtain ⟨of, stop, gap, same, isGap, whole⟩ := h.gap first
      obtain ⟨gaps, texts⟩ := ih of
      rw [List.cons_append, Token.withGaps, stop, same, List.forall_mem_cons, List.flatMap_cons,
        texts, whole, List.append_assoc]
      exact ⟨⟨isGap, gaps⟩, rfl⟩

/-- Where a script is scanned to its end, there are only blanks and whole comments that the dialect
allows before each token and before the end, and together with the tokens they make up the
script. -/
theorem yields_withGaps (file : File) (d : Dialect) (toks : List Token) (eof : Token)
    (yields : (Lexer.start file d).Yields toks eof) :
    let parts := Token.withGaps file.content 0 (toks ++ [eof])
    (∀ part ∈ parts, d.Gap part.1 (file.content.drop part.2.span.start)) ∧
      parts.flatMap (fun part => part.1 ++ part.2.text) = file.content :=
  (Of.start file d).withGaps yields

/-- Comments of three shapes, one of them up to a line end of two bytes. -/
theorem yields_withGaps_comments :
    let gap : Text := "\x7b a \x7d "
    let gap' : Text := " // y\r\n(* b **)"
    let file : File := ⟨0, "demo.pas", gap ++ "x" ++ gap', 0⟩
    let x : Token := { kind := .ident, text := "x", line := 1, col := 7, span := ⟨0, 6, 7⟩ }
    let eof : Token := { kind := .eof, line := 2, col := 9, span := ⟨0, 22, 22⟩ }
    (Lexer.start file .pascal).Yields [x] eof ∧
      Dialect.pascal.Gap gap ("x" ++ gap') ∧ Dialect.pascal.Gap gap' [] := by
  intro gap gap' file x eof
  have scanned : TokenStream.ofFile file .pascal = ⟨[x], .eof eof⟩ := by decide +kernel
  have yields := TokenStream.ofFile_eq_iff.1 scanned
  have gaps := (yields_withGaps file .pascal [x] eof yields).1
  have parts : Token.withGaps file.content 0 [x, eof] = [(gap, x), (gap', eof)] := by
    decide +kernel
  rw [List.singleton_append, parts, List.forall_mem_cons, List.forall_mem_singleton] at gaps
  exact ⟨yields, gaps⟩

end Lexer

end PrgScript
