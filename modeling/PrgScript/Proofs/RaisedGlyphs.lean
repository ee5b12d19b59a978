import PrgScript.Proofs.LetterCase
import PrgScript.Proofs.Lexeme

/-!
# Raised glyphs

Raising the letters of a text raises them in its glyphs, one by one. Nothing that the
scanner asks about a glyph depends on the case of a letter, except inside a string literal: trivia
and all other lexemes of two texts that differ in letter case take up the same number of glyphs
and have the same kinds.
-/

namespace PrgScript

open Text

/-! ### Raised glyphs -/

namespace Glyph

def raised (g : Glyph) : Glyph := ⟨g.char.toUpper, upperASCII g.bytes⟩

theorem head?_upperASCII_eq_newline {t : Text} :
    (upperASCII t).head? = some newline ↔ t.head? = some newline := by
  cases t with
  | nil => rfl
  | cons b t =>
      rw [upperASCII_eq_map, List.map_cons, List.head?_cons, List.head?_cons, Option.some.injEq,
        Option.some.injEq, ← UInt8.toNat_inj, ← UInt8.toNat_inj, toNat_upperByte]
      show _ = 10 ↔ _ = 10
      split <;> omega

theorem upperByte_eq_return {b : UInt8} : upperByte b = carriageReturn ↔ b = carriageReturn := by
  rw [← UInt8.toNat_inj, ← UInt8.toNat_inj, toNat_upperByte]
  show _ = 13 ↔ _ = 13
  split <;> omega

theorem Leads.raised {g : Glyph} {t : Text} (h : Leads g t) : Leads g.raised (upperASCII t) := by
  obtain rfl | ⟨b, low, rfl⟩ | ⟨high, bytes⟩ := h.shape
  · exact .pair _
  · have low' : (upperByte b).toNat < 128 := Nat.not_le.1 (mt upperByte_high.1 (Nat.not_le.2 low))
    have same : Glyph.raised ⟨Char.ofNat b.toNat, [b]⟩ =
        ⟨Char.ofNat (upperByte b).toNat, [upperByte b]⟩ := by
      rw [Glyph.raised, toNat_upperByte, ofNat_upper low]
      rfl
    rw [same]
    refine .char ?_ (Front.one low').decode
    rintro ⟨isReturn, feed⟩
    exact h.alone ⟨upperByte_eq_return.1 isReturn, head?_upperASCII_eq_newline.1 feed⟩
  · have same : g.raised = g := by
      rw [Glyph.raised, toUpper_of_high high, upperASCII_eq_map, map_upperByte_of_high bytes]
    rw [same]
    refine h.congr (highFront_upperASCII t) fun isReturn => ?_
    rw [isReturn] at bytes
    exact absurd (bytes _ (List.mem_singleton_self _)) (by decide)

/-- Raising the letters of a text raises them in its glyphs. -/
theorem ofText_upperASCII (t : Text) : ofText (upperASCII t) = (ofText t).map raised := by
  induction t using text_induction with
  | nil => rfl
  | cons g t leads ih =>
      have split : upperASCII (g.bytes ++ t) = g.raised.bytes ++ upperASCII t := List.map_append
      rw [split, leads.raised.ofText, ih, leads.ofText, List.map_cons]

theorem text_map_raised (gs : List Glyph) : text (gs.map raised) = upperASCII (text gs) := by
  induction gs with
  | nil => rfl
  | cons g gs ih =>
      rw [List.map_cons, text_cons, text_cons, ih]
      exact List.map_append.symm

/-- A question that letter case does not matter for has one answer for both of two glyphs. -/
theorem of_raised {α : Type} {f : Char → α}
    (blind : ∀ n, n < 128 → f (Char.ofNat n).toUpper = f (Char.ofNat n)) {g g' : Glyph}
    (same : g.raised = g'.raised) : f g.char = f g'.char := by
  have chars : g.char.toUpper = g'.char.toUpper := congrArg Glyph.char same
  rw [← of_toUpper blind g.char, ← of_toUpper blind g'.char, chars]

end Glyph

namespace Scanner

open Glyph

variable {d : Dialect} {g g' : Glyph} {gs gs' : List Glyph}

theorem opensWith_toUpper (form : CommentForm) (c : Char) (next : Option Char) :
    opensWith form c.toUpper (next.map Char.toUpper) = opensWith form c next := by
  have first : (form.first == c.toUpper) = (form.first == c) :=
    of_toUpper (f := (form.first == ·)) (by cases form <;> decide) c
  rw [opensWith, opensWith, first]
  cases next with
  | none => rfl
  | some x =>
      have second (y : Char) (blind : ∀ n, n < 128 →
          (some (Char.ofNat n).toUpper == some y) = (some (Char.ofNat n) == some y)) :
          (some x.toUpper == some y) = (some x == some y) :=
        of_toUpper (f := (some · == some y)) blind x
      cases form with
      | brace | semicolon => rfl
      | _ => exact congrArg _ (second _ (by decide))

theorem commentAt?_raised :
    commentAt? d g.raised.char ((gs.map raised).head?.map (·.char)) =
      commentAt? d g.char (gs.head?.map (·.char)) := by
  have next : (gs.map raised).head?.map (·.char) =
      (gs.head?.map (·.char)).map Char.toUpper := by
    cases gs <;> rfl
  rw [commentAt?, commentAt?, next]
  congr 1
  funext form
  exact opensWith_toUpper form g.char _

theorem raised_char_eq {c : Char}
    (noLetter : ∀ n, n < 128 → ((Char.ofNat n).toUpper == c) = (Char.ofNat n == c)) :
    g.raised.char = c ↔ g.char = c := by
  have same := of_toUpper (f := (· == c)) noLetter g.char
  rw [← beq_iff_eq, ← beq_iff_eq (a := g.char)]
  exact iff_of_eq (congrArg (· = true) same)

theorem closer_raised (form : CommentForm) (gs : List Glyph) :
    form.closer <+: (gs.map raised).map (·.char) ↔ form.closer <+: gs.map (·.char) := by
  have star : ∀ g : Glyph, '*' = g.raised.char ↔ '*' = g.char := fun g => by
    rw [eq_comm, raised_char_eq (by decide), eq_comm]
  have slash : ∀ g : Glyph, '/' = g.raised.char ↔ '/' = g.char := fun g => by
    rw [eq_comm, raised_char_eq (by decide), eq_comm]
  have paren : ∀ g : Glyph, ')' = g.raised.char ↔ ')' = g.char := fun g => by
    rw [eq_comm, raised_char_eq (by decide), eq_comm]
  have brace : ∀ g : Glyph, '\x7d' = g.raised.char ↔ '\x7d' = g.char := fun g => by
    rw [eq_comm, raised_char_eq (by decide), eq_comm]
  rcases gs with _ | ⟨g, _ | ⟨g', gs⟩⟩
  all_goals
    cases form <;>
      simp [CommentForm.closer, List.cons_prefix_cons, star, slash, paren, brace]

section Step

variable (behind : ∀ m, 0 < m → ∀ mode n,
  skipTrivia d mode n ((g.raised :: gs.map raised).drop m) = skipTrivia d mode n ((g :: gs).drop m))

include behind

theorem skipTrivia_between_raised (n : Nat) :
    skipTrivia d .between n (g.raised :: gs.map raised) = skipTrivia d .between n (g :: gs) := by
  have next := behind 1 Nat.one_pos .between (n + 1)
  have isEnd : g.raised.char = '\n' ↔ g.char = '\n' := raised_char_eq (by decide)
  have blank : isBlank g.raised.char = isBlank g.char := of_toUpper (by decide) g.char
  by_cases ends : g.char = '\n'
  · cases token : d.newlineSignificant with
    | true => rw [skipTrivia_token (isEnd.2 ends) token, skipTrivia_token ends token]
    | false =>
        rw [skipTrivia_lineEnd (isEnd.2 ends) token, skipTrivia_lineEnd ends token]
        exact next
  have ends' := mt isEnd.1 ends
  cases solid : isBlank g.char with
  | true =>
      rw [skipTrivia_blank (blank.trans solid), skipTrivia_blank solid]
      exact next
  | false =>
      have solid' := blank.trans solid
      cases found : commentAt? d g.char (gs.head?.map (·.char)) with
      | none =>
          rw [skipTrivia_solid ends' solid' (commentAt?_raised.trans found),
            skipTrivia_solid ends solid found]
      | some form =>
          have found' := commentAt?_raised.trans found
          by_cases foreign : d.usage form = .foreign
          · rw [skipTrivia_foreign ends' solid' found' foreign,
              skipTrivia_foreign ends solid found foreign]
          · rw [skipTrivia_comment ends' solid' found' foreign,
              skipTrivia_comment ends solid found foreign]
            exact behind _ (Nat.succ_pos _) _ _

theorem skipTrivia_inBlock_raised (form : CommentForm) (start n : Nat) :
    skipTrivia d (.inBlock form start) n (g.raised :: gs.map raised) =
      skipTrivia d (.inBlock form start) n (g :: gs) := by
  have next := behind 1 Nat.one_pos (.inBlock form start) (n + 1)
  have closers := closer_raised form (g :: gs)
  rw [List.map_cons (f := raised)] at closers
  cases isBlock : form.isBlock with
  | true =>
      by_cases closes : form.closer <+: (g :: gs).map (·.char)
      · rw [skipTrivia_close isBlock (closers.2 closes), skipTrivia_close isBlock closes]
        refine behind _ (List.length_pos_iff.2 fun none => ?_) _ _
        simp [CommentForm.isBlock, none] at isBlock
      · rw [skipTrivia_inBlock (mt closers.1 closes), skipTrivia_inBlock closes]
        exact next
  | false =>
      -- A line comment has no closing mark to look for.
      cases form with
      | slashStar | parenStar | brace => cases isBlock
      | _ => exact next

end Step

/-- Letter case does not matter between tokens. -/
theorem skipTrivia_raised (d : Dialect) (mode : SkipMode) (n : Nat) (gs : List Glyph) :
    skipTrivia d mode n (gs.map raised) = skipTrivia d mode n gs := by
  induction size : gs.length using Nat.strongRecOn generalizing mode n gs with
  | ind k ih =>
  cases gs with
  | nil => rfl
  | cons g gs =>
      have behind (m : Nat) (some : 0 < m) (mode : SkipMode) (n : Nat) :
          skipTrivia d mode n ((g.raised :: gs.map raised).drop m) =
            skipTrivia d mode n ((g :: gs).drop m) := by
        rw [← List.map_cons, ← List.map_drop]
        refine ih _ ?_ mode n _ rfl
        rw [← size, List.length_drop, List.length_cons]
        omega
      rw [List.map_cons]
      cases mode with
      | between => exact skipTrivia_between_raised behind n
      | inBlock form start => exact skipTrivia_inBlock_raised behind form start n
      | inLine =>
          have isEnd : g.raised.char = '\n' ↔ g.char = '\n' := raised_char_eq (by decide)
          by_cases ends : g.char = '\n'
          · rw [skipTrivia_endOfLine (isEnd.2 ends), skipTrivia_endOfLine ends]
            exact skipTrivia_between_raised behind n
          · rw [skipTrivia_inLine (mt isEnd.1 ends), skipTrivia_inLine ends]
            exact behind 1 Nat.one_pos .inLine (n + 1)

/-! ### Lexemes -/

/-- Lexemes of the same length: the same token, or errors of the same code at the same glyph. -/
inductive Lexeme.SameCode : Lexeme → Lexeme → Prop
  | token {kind : Kind} {value : Text} {more : Nat} :
      SameCode (.token kind value more) (.token kind value more)
  | fault {cause cause' : Cause} {start more : Nat} (codes : cause.code = cause'.code) :
      SameCode (.fault cause start more) (.fault cause' start more)

theorem Lexeme.SameCode.refl (l : Lexeme) : l.SameCode l := by
  cases l with
  | token => exact .token
  | fault => exact .fault rfl

/-- The number of glyphs that a lexeme takes behind its first one. -/
def Lexeme.more : Lexeme → Nat
  | .token _ _ more | .fault _ _ more => more

section Lexeme

variable (same : g.raised = g'.raised) (sames : gs.map raised = gs'.map raised)

include sames in
theorem run_recased {p : Char → Bool}
    (blind : ∀ n, n < 128 → p (Char.ofNat n).toUpper = p (Char.ofNat n)) :
    run p gs' = run p gs := by
  induction gs generalizing gs' with
  | nil =>
      rw [List.map_nil, eq_comm, List.map_eq_nil_iff] at sames
      rw [sames]
  | cons g gs ih =>
      cases gs' with
      | nil => cases sames
      | cons g' gs' =>
          rw [List.map_cons, List.map_cons, List.cons.injEq] at sames
          have first : p g.char = p g'.char := of_raised blind sames.1
          have rest := ih sames.2
          simp only [run, List.takeWhile_cons, ← first] at rest ⊢
          split
          · rw [List.length_cons, List.length_cons, rest]
          · rfl

include sames in
theorem drop_recased (n : Nat) : (gs.drop n).map raised = (gs'.drop n).map raised := by
  rw [List.map_drop, List.map_drop, sames]

include sames in
theorem next_recased {p : Char → Bool}
    (blind : ∀ n, n < 128 → p (Char.ofNat n).toUpper = p (Char.ofNat n)) :
    (gs'.head?.any fun g => p g.char) = gs.head?.any fun g => p g.char := by
  cases gs with
  | nil =>
      rw [List.map_nil, eq_comm, List.map_eq_nil_iff] at sames
      rw [sames]
  | cons g gs =>
      cases gs' with
      | nil => cases sames
      | cons g' gs' =>
          rw [List.map_cons, List.map_cons, List.cons.injEq] at sames
          exact (of_raised blind sames.1).symm

include same sames in
theorem upperASCII_take_recased (n : Nat) :
    upperASCII (text (g' :: gs'.take n)) = upperASCII (text (g :: gs.take n)) := by
  rw [← text_map_raised, ← text_map_raised, List.map_cons, List.map_cons, List.map_take,
    List.map_take, same, sames]

include same sames in
theorem identifier_recased : identifier .dbase g' gs' = identifier .dbase g gs := by
  have more := run_recased sames (p := isIdentContinue) (by decide)
  have word := upper_of_upperASCII (upperASCII_take_recased same sames (run isIdentContinue gs))
  unfold identifier
  simp only [more, Dialect.keyword?, word]

include same sames in
theorem numberMore_recased : numberMore g' gs' = numberMore g gs := by
  have digits := run_recased sames (p := isDigit) (by decide)
  have point : (g'.char = '.') = (g.char = '.') :=
    (of_raised (f := (· = '.')) (by decide) same).symm
  have rest := drop_recased sames (run isDigit gs)
  unfold numberMore
  simp only [digits, point]
  refine ite_congr rfl (fun _ => rfl) fun _ => ?_
  generalize gs.drop (run isDigit gs) = after at rest ⊢
  generalize gs'.drop (run isDigit gs) = after' at rest ⊢
  cases after with
  | nil =>
      rw [List.map_nil, eq_comm, List.map_eq_nil_iff] at rest
      rw [rest]
  | cons x after =>
      cases after' with
      | nil => cases rest
      | cons x' after' =>
          rw [List.map_cons, List.map_cons, List.cons.injEq] at rest
          have point : (x'.char = '.') = (x.char = '.') :=
            (of_raised (f := (· = '.')) (by decide) rest.1).symm
          simp only [point, next_recased rest.2 (p := isLetter) fun n _ => isLetter_toUpper _,
            run_recased rest.2 (p := isDigit) (by decide)]

include same sames in
theorem number_recased : (number g gs).SameCode (number g' gs') := by
  have more := numberMore_recased same sames
  have behind := drop_recased sames (numberMore g gs)
  rw [number_eq, number_eq]
  simp only [more, next_recased behind (p := isIdentStart) (by decide),
    run_recased behind (p := isIdentContinue) (by decide)]
  split
  · exact .fault rfl
  · exact .token

include sames in
theorem dotWord_recased : dotWord gs' = dotWord gs := by
  have letters := run_recased sames (p := isLetter) fun n _ => isLetter_toUpper _
  have behind := drop_recased sames (run isLetter gs)
  have word : upperASCII (ofChars ((gs'.take (run isLetter gs)).map (·.char))) =
      upperASCII (ofChars ((gs.take (run isLetter gs)).map (·.char))) := by
    have chars (gs : List Glyph) :
        (gs.map (·.char)).map Char.toUpper = (gs.map raised).map (·.char) := by
      simp only [List.map_map]
      rfl
    rw [upperASCII_ofChars, upperASCII_ofChars, chars, chars, List.map_take (f := raised),
      List.map_take (f := raised), sames]
  unfold dotWord
  simp only [letters, word, next_recased behind (p := (· == '.')) (by decide)]

theorem toUpper_eq_self {c : Char} (other : isIdentStart c = false) : c.toUpper = c := by
  by_cases high : 128 ≤ c.toNat
  · exact toUpper_of_high high
  · have kept : ∀ n, n < 128 → isIdentStart (Char.ofNat n) = false →
        (Char.ofNat n).toUpper = Char.ofNat n := by decide
    have := kept c.toNat (Nat.not_le.1 high)
    rw [Char.ofNat_toNat] at this
    exact this other

include same in
/-- A character that is no letter stays as it is. -/
theorem char_recased (other : isIdentStart g.char = false) : g'.char = g.char := by
  have other' : isIdentStart g'.char = false := (of_raised (by decide) same).symm.trans other
  have chars : g.char.toUpper = g'.char.toUpper := congrArg Glyph.char same
  rw [← toUpper_eq_self other, ← toUpper_eq_self other', chars]

include sames in
theorem operator_recased (c : Char) :
    operator c (gs'.head?.map (·.char)) = operator c (gs.head?.map (·.char)) := by
  -- The characters that go on with an operator are no letters.
  have signs {x : Char} (sign : x = '=' ∨ x = '>' ∨ x = '?') : isIdentStart x = false := by
    rcases sign with rfl | rfl | rfl <;> rfl
  cases gs with
  | nil =>
      rw [List.map_nil, eq_comm, List.map_eq_nil_iff] at sames
      rw [sames]
  | cons x gs =>
      cases gs' with
      | nil => cases sames
      | cons x' gs' =>
          rw [List.map_cons, List.map_cons, List.cons.injEq] at sames
          simp only [List.head?_cons, Option.map_some]
          obtain ⟨first, -⟩ | ⟨sign, -⟩ := operator_cases c (some x.char)
          · obtain ⟨second, -⟩ | ⟨sign, -⟩ := operator_cases c (some x'.char)
            · rw [first, second]
            · simp only [Option.some.injEq] at sign
              rw [char_recased sames.1.symm (signs sign)]
          · simp only [Option.some.injEq] at sign
            rw [char_recased sames.1 (signs sign)]

theorem le_more_stringRest (d : Dialect) (quote : Char) (n : Nat) (value : List Char)
    (gs : List Glyph) : n ≤ (stringRest d quote n value gs).more := by
  fun_induction stringRest d quote n value gs
  all_goals first
    | exact Nat.le_refl _
    | exact Nat.le_add_right _ _
    | rename_i ih; exact Nat.le_trans (Nat.le_add_right _ _) ih

theorem exists_cons_recased {x : Glyph} {xs : List Glyph}
    (sames : (x :: xs).map raised = gs'.map raised) :
    ∃ x' xs', gs' = x' :: xs' ∧ x.raised = x'.raised ∧ xs.map raised = xs'.map raised := by
  cases gs' with
  | nil => cases sames
  | cons x' xs' =>
      rw [List.map_cons, List.map_cons, List.cons.injEq] at sames
      exact ⟨x', xs', rfl, sames.1, sames.2⟩

/-- A string literal with the same glyphs is the same. Behind it letter case does not matter. -/
theorem stringRest_recased {quote : Char} {n : Nat} {value : List Char} {result : Lexeme}
    (lexed : stringRest d quote n value gs = result) (sames : gs.map raised = gs'.map raised)
    (untouched : gs.take (result.more - n) = gs'.take (result.more - n)) :
    stringRest d quote n value gs' = result := by
  subst lexed
  have front {x x' : Glyph} {xs xs' : List Glyph} {k : Nat} (some : 0 < k)
      (same : (x :: xs).take k = (x' :: xs').take k) :
      x = x' ∧ xs.take (k - 1) = xs'.take (k - 1) := by
    obtain ⟨k, rfl⟩ := Nat.exists_eq_succ_of_ne_zero (Nat.ne_of_gt some)
    simpa only [Nat.succ_eq_add_one, List.take_succ_cons, List.cons.injEq,
      Nat.add_sub_cancel] using same
  have slash {x : Glyph} (special : ¬(x.char ≠ '\\' ∨ (!d.escapes) = true)) :
      x.char = '\\' ∧ d.escapes = true := by simpa using special
  fun_induction stringRest d quote n value gs generalizing gs' with
  | case1 n value =>
      rw [List.map_nil, eq_comm, List.map_eq_nil_iff] at sames
      rw [sames]
      rfl
  | case2 n value x xs isEnd =>
      obtain ⟨x', xs', rfl, same, -⟩ := exists_cons_recased sames
      exact stringRest_lineEnd ((char_recased same (by rw [isEnd]; rfl)).trans isEnd)
  | case3 n value x xs inLine closes =>
      obtain ⟨x', xs', rfl, -, -⟩ := exists_cons_recased sames
      obtain ⟨rfl, -⟩ := front (by simp [Lexeme.more]) untouched
      exact stringRest_close inLine closes
  | case4 n value x xs inLine inside plain ih =>
      obtain ⟨x', xs', rfl, -, rest⟩ := exists_cons_recased sames
      have longer := le_more_stringRest d quote (n + 1) (x.char :: value) xs
      obtain ⟨rfl, behind⟩ := front (by omega) untouched
      rw [stringRest_keep inLine inside (by simpa using plain)]
      exact ih rest (by rwa [Nat.sub_sub] at behind)
  | case5 n value x inLine inside special =>
      obtain ⟨x', xs', rfl, -, rest⟩ := exists_cons_recased sames
      rw [List.map_nil, eq_comm, List.map_eq_nil_iff] at rest
      obtain ⟨rfl, -⟩ := front (by simp [Lexeme.more]) untouched
      rw [stringRest_slash (slash special).1 inside (slash special).2, rest]
      rfl
  | case6 n value x inLine inside special e rest isEnd =>
      obtain ⟨x', xs', rfl, -, rests⟩ := exists_cons_recased sames
      obtain ⟨e', rest', rfl, same, -⟩ := exists_cons_recased rests
      obtain ⟨rfl, -⟩ := front (by simp [Lexeme.more]) untouched
      have isEnd' : e'.char = '\n' := (char_recased same (by rw [isEnd]; rfl)).trans isEnd
      rw [stringRest_slash (slash special).1 inside (slash special).2]
      exact if_pos isEnd'
  | case7 n value x inLine inside special e rest inLineE space =>
      obtain ⟨x', xs', rfl, -, rests⟩ := exists_cons_recased sames
      obtain ⟨e', rest', rfl, same, -⟩ := exists_cons_recased rests
      obtain ⟨rfl, -⟩ := front (by simp [Lexeme.more]) untouched
      have space' : e'.char = ' ' := (char_recased same (by rw [space]; rfl)).trans space
      rw [stringRest_slash (slash special).1 inside (slash special).2]
      exact (if_neg (by simp [space'])).trans (if_pos space')
  | case8 n value x inLine inside special e rest inLineE noSpace c stands ih =>
      obtain ⟨x', xs', rfl, -, rests⟩ := exists_cons_recased sames
      obtain ⟨e', rest', rfl, -, rests'⟩ := exists_cons_recased rests
      have longer := le_more_stringRest d quote (n + 2) (c :: value) rest
      obtain ⟨rfl, behind⟩ := front (by omega) untouched
      obtain ⟨rfl, behind'⟩ := front (by omega) behind
      rw [stringRest_slash (slash special).1 inside (slash special).2]
      simp only [escapeRest, if_neg inLineE, if_neg noSpace, stands]
      exact ih rests' (by simpa only [Nat.sub_sub] using behind')
  | case9 n value x inLine inside special e rest inLineE noSpace unknown =>
      obtain ⟨x', xs', rfl, -, rests⟩ := exists_cons_recased sames
      obtain ⟨e', rest', rfl, -, -⟩ := exists_cons_recased rests
      obtain ⟨rfl, behind⟩ := front (by simp [Lexeme.more]) untouched
      obtain ⟨rfl, -⟩ := front (by simp [Lexeme.more]) behind
      rw [stringRest_slash (slash special).1 inside (slash special).2]
      simp only [escapeRest, if_neg inLineE, if_neg noSpace, unknown]

include same sames in
/-- Letter case does not matter in a lexeme, except in a string literal. -/
theorem lexeme_recased
    (untouched : Dialect.dbase.isQuote g.char = true →
      gs.take (lexeme .dbase g gs).more = gs'.take (lexeme .dbase g gs).more) :
    (lexeme .dbase g gs).SameCode (lexeme .dbase g' gs') := by
  have isEnd : (g'.char = '\n') = (g.char = '\n') :=
    (of_raised (f := (· = '\n')) (by decide) same).symm
  have starts : isIdentStart g'.char = isIdentStart g.char := (of_raised (by decide) same).symm
  have digit : isDigit g'.char = isDigit g.char := (of_raised (by decide) same).symm
  have next : (gs'.head?.map (·.char)).any isDigit = (gs.head?.map (·.char)).any isDigit := by
    simpa only [Option.any_map] using next_recased sames (p := isDigit) (by decide)
  unfold lexeme at untouched ⊢
  simp only [isEnd, starts, digit, next] at untouched ⊢
  by_cases ends : g.char = '\n'
  · simp only [if_pos ends]
    exact .token
  simp only [if_neg ends] at untouched ⊢
  by_cases word : isIdentStart g.char = true
  · simp only [if_pos word, identifier_recased same sames]
    exact .refl _
  simp only [if_neg word] at untouched ⊢
  have char := char_recased same (by simpa using word)
  rw [char, operator_recased sames]
  split
  · exact number_recased same sames
  next notNumber =>
  rw [if_neg notNumber] at untouched
  split
  · rw [dotWord_recased sames]
    exact .refl _
  next notPoint =>
  rw [if_neg notPoint] at untouched
  split
  next isQuote =>
    rw [if_pos isQuote] at untouched
    rw [stringRest_recased rfl sames (untouched isQuote)]
    exact .refl _
  next => exact .refl _

end Lexeme

end Scanner

end PrgScript
