import PrgScript.Proofs.Lexeme

/-!
# Lexemes before a separator

The scanner looks ahead to find where a lexeme ends: behind a number for a point and a
letter, behind a dot for a word with another dot, behind an operator for its second
character. A lexeme that has been found is found again when a blank, a line end or nothing
stands right behind it, whatever stood there before and whatever comes later.
-/

namespace PrgScript.Scanner

open Text

variable {d : Dialect} {g : Glyph} {gs rest behind : List Glyph} {kind : Kind} {value : Text}
  {more : Nat}

/-- Glyphs that start with a blank or a line end, if there are any. -/
def Parted (gs : List Glyph) : Prop :=
  ∀ g ∈ gs.head?, isBlank g.char = true ∨ g.char = '\n'

/-- The blanks and the line end. -/
theorem mem_of_parted {c : Char} (h : isBlank c = true ∨ c = '\n') :
    c ∈ [' ', '\t', '\r', '\x0c', '\x0b', '\n'] := by
  simpa [isBlank, or_assoc] using h

/-- A class of characters without blanks and line ends stops before them. -/
theorem Parted.stops (h : Parted behind) {p : Char → Bool}
    (none : [' ', '\t', '\r', '\x0c', '\x0b', '\n'].any p = false) :
    (behind.head?.any fun g => p g.char) = false := by
  cases behind with
  | nil => rfl
  | cons g rest =>
      cases inside : p g.char with
      | false => simpa using inside
      | true =>
          rw [List.any_eq_true.2 ⟨_, mem_of_parted (h g rfl), inside⟩] at none
          cases none

theorem Parted.head_ne (h : Parted behind) {c : Char}
    (sign : c ∉ [' ', '\t', '\r', '\x0c', '\x0b', '\n']) :
    behind.head?.map (·.char) ≠ some c := by
  intro head
  obtain ⟨g, first, rfl⟩ := Option.map_eq_some_iff.1 head
  exact sign (mem_of_parted (h g first))

/-! ### Runs -/

theorem run_le_length (p : Char → Bool) (gs : List Glyph) : run p gs ≤ gs.length :=
  (List.takeWhile_prefix _).length_le

/-- A run ends where a character outside of its class stands. -/
theorem run_take_append {p : Char → Bool} {n : Nat} (within : n ≤ run p gs)
    (stops : (behind.head?.any fun g => p g.char) = false) :
    run p (gs.take n ++ behind) = n := by
  have inside : ∀ g ∈ gs.take n, p g.char = true := by
    intro g mem
    apply of_mem_take_run
    rw [← Nat.min_eq_left within, ← List.take_take] at mem
    exact List.mem_of_mem_take mem
  have none : behind.takeWhile (fun g => p g.char) = [] := by
    cases behind with
    | nil => rfl
    | cons g behind =>
        have outside : p g.char = false := by simpa using stops
        simp [outside]
  have short : n ≤ gs.length := Nat.le_trans within (run_le_length p gs)
  rw [run, List.takeWhile_append_of_pos inside, none, List.append_nil, List.length_take,
    Nat.min_eq_left short]

/-- The first of some glyphs stays the first one, or nothing is left before what follows. -/
theorem head_take_append (n : Nat) (gs behind : List Glyph) :
    gs.take n = [] ∨ (gs.take n ++ behind).head? = gs.head? := by
  cases n with
  | zero => exact .inl rfl
  | succ n =>
      cases gs with
      | nil => exact .inl rfl
      | cons g gs => exact .inr rfl

/-! ### Words and numbers -/

/-- A number takes the digits, and a point with more digits if no letter follows the point. -/
theorem numberMore_cases (g : Glyph) (rest : List Glyph) :
    numberMore g rest = run isDigit rest ∨
      g.char ≠ '.' ∧ ∃ point after, rest.drop (run isDigit rest) = point :: after ∧
        point.char = '.' ∧ (after.head?.any fun g => isLetter g.char) = false ∧
        numberMore g rest = run isDigit rest + 1 + run isDigit after := by
  unfold numberMore
  dsimp only
  split
  · exact .inl rfl
  next noPoint =>
    split
    · exact .inl rfl
    next point after ahead =>
      split
      next fraction =>
        have noLetter : (after.head?.any fun g => isLetter g.char) = false := by
          simpa using fraction.2
        exact .inr ⟨noPoint, point, after, ahead, fraction.1, noLetter, rfl⟩
      · exact .inl rfl

theorem numberMore_le_length (g : Glyph) (rest : List Glyph) :
    numberMore g rest ≤ rest.length := by
  have digits := run_le_length isDigit rest
  obtain whole | ⟨-, point, after, ahead, -, -, taken⟩ := numberMore_cases g rest
  · rw [whole]
    exact digits
  · have fraction := run_le_length isDigit after
    have length := congrArg List.length ahead
    rw [List.length_drop, List.length_cons] at length
    omega

theorem numberMore_fraction {point : Glyph} {after : List Glyph} (noPoint : g.char ≠ '.')
    (ahead : rest.drop (run isDigit rest) = point :: after) (isPoint : point.char = '.')
    (noLetter : (after.head?.any fun g => isLetter g.char) = false) :
    numberMore g rest = run isDigit rest + 1 + run isDigit after := by
  unfold numberMore
  simp only [if_neg noPoint, ahead, isPoint, noLetter]
  rfl

section Kept

variable (parted : Parted behind)

include parted

theorem identifier_kept (h : identifier d g rest = .token kind value more) :
    identifier d g (rest.take more ++ behind) = .token kind value more := by
  have taken : more = run isIdentContinue rest := (identifier_inv h).1
  have again : run isIdentContinue (rest.take more ++ behind) = more :=
    run_take_append (Nat.le_of_eq taken) (parted.stops (by decide))
  have short : more ≤ rest.length := taken ▸ run_le_length _ _
  have word : (rest.take more ++ behind).take more = rest.take more :=
    List.take_left' (List.length_take_of_le short)
  unfold identifier at h ⊢
  dsimp only at h ⊢
  rw [again, word]
  rwa [← taken] at h

/-- Where no fraction is taken, the separator takes the place of what stood behind the digits. -/
theorem numberMore_whole (g : Glyph) (rest : List Glyph) :
    numberMore g (rest.take (run isDigit rest) ++ behind) = run isDigit rest := by
  have digits : run isDigit (rest.take (run isDigit rest) ++ behind) = run isDigit rest :=
    run_take_append (Nat.le_refl _) (parted.stops (by decide))
  obtain same | ⟨-, point, after, ahead, isPoint, -⟩ :=
    numberMore_cases g (rest.take (run isDigit rest) ++ behind)
  · rw [same, digits]
  · rw [digits, List.drop_left' (List.length_take_of_le (run_le_length _ _))] at ahead
    have noPoint := parted.stops (p := (· == '.')) (by decide)
    rw [ahead] at noPoint
    simp [isPoint] at noPoint

theorem numberMore_kept (g : Glyph) (rest : List Glyph) :
    numberMore g (rest.take (numberMore g rest) ++ behind) = numberMore g rest := by
  obtain whole | ⟨noPoint, point, after, ahead, isPoint, noLetter, taken⟩ := numberMore_cases g rest
  · rw [whole, numberMore_whole parted]
  · have short : (rest.take (run isDigit rest)).length = run isDigit rest :=
      List.length_take_of_le (run_le_length _ _)
    have split : rest.take (numberMore g rest) ++ behind =
        rest.take (run isDigit rest) ++ point :: (after.take (run isDigit after) ++ behind) := by
      rw [taken, Nat.add_assoc, List.take_add, ahead, Nat.add_comm 1, List.take_succ_cons,
        List.append_assoc, List.cons_append]
    have digits : run isDigit (rest.take (numberMore g rest) ++ behind) = run isDigit rest := by
      rw [split]
      apply run_take_append (Nat.le_refl _)
      simp [isPoint]
      decide
    have fraction : run isDigit (after.take (run isDigit after) ++ behind) = run isDigit after :=
      run_take_append (Nat.le_refl _) (parted.stops (by decide))
    have noLetter' :
        ((after.take (run isDigit after) ++ behind).head?.any fun g => isLetter g.char) =
          false := by
      rcases head_take_append (run isDigit after) after behind with none | same
      · rw [none, List.nil_append]
        exact parted.stops (by decide +kernel)
      · rw [same, noLetter]
    have ahead' : (rest.take (numberMore g rest) ++ behind).drop
        (run isDigit (rest.take (numberMore g rest) ++ behind)) =
          point :: (after.take (run isDigit after) ++ behind) := by
      rw [digits, split, List.drop_left' short]
    rw [numberMore_fraction noPoint ahead' isPoint noLetter', digits, fraction, taken]

theorem number_kept (h : number g rest = .token kind value more) :
    number g (rest.take more ++ behind) = .token kind value more := by
  rw [number_eq] at h
  dsimp only at h
  split at h
  · cases h
  · cases h
    rw [number_eq]
    dsimp only
    rw [numberMore_kept parted, List.drop_left' (List.length_take_of_le (numberMore_le_length ..)),
      if_neg (by simp [parted.stops (p := isIdentStart) (by decide)])]

/-! ### Words between dots -/

theorem dotWord_parted : dotWord behind = .token .dot [] 0 := by
  have none : run isLetter (([] : List Glyph).take 0 ++ behind) = 0 :=
    run_take_append (Nat.le_refl _) (parted.stops (by decide +kernel))
  rw [List.take_nil, List.nil_append] at none
  unfold dotWord
  simp only [none, Nat.lt_irrefl, false_and, if_false]
  split <;> rfl

end Kept

/-- A dot alone, or a word between two dots, which does not depend on what follows. -/
theorem dotWord_cases (rest : List Glyph) :
    dotWord rest = .token .dot [] 0 ∨
      ∃ point after kind value, rest.drop (run isLetter rest) = point :: after ∧
        point.char = '.' ∧ dotWord rest = .token kind value (run isLetter rest + 1) ∧
        ∀ behind, dotWord (rest.take (run isLetter rest + 1) ++ behind) =
          .token kind value (run isLetter rest + 1) := by
  have short : (rest.take (run isLetter rest)).length = run isLetter rest :=
    List.length_take_of_le (run_le_length _ _)
  generalize lexed : dotWord rest = found
  unfold dotWord at lexed
  dsimp only at lexed
  split at lexed
  next known kind value isKnown =>
    split at lexed
    next both =>
      obtain ⟨letters, closed⟩ := both
      cases ahead : rest.drop (run isLetter rest) with
      | nil => simp [ahead] at closed
      | cons point after =>
          have isPoint : point.char = '.' := by simpa [ahead] using closed
          refine .inr ⟨point, after, _, _, rfl, isPoint, lexed.symm, fun behind => ?_⟩
          have split : rest.take (run isLetter rest + 1) ++ behind =
              rest.take (run isLetter rest) ++ point :: behind := by
            rw [List.take_add, ahead, List.append_assoc]
            rfl
          have again : run isLetter (rest.take (run isLetter rest) ++ point :: behind) =
              run isLetter rest := by
            apply run_take_append (Nat.le_refl _)
            simp only [List.head?_cons, Option.any_some, isPoint]
            decide +kernel
          rw [split]
          unfold dotWord
          simp only [again, List.take_left' short, List.drop_left' short, isKnown, List.head?_cons,
            Option.any_some, isPoint, letters, beq_self_eq_true, and_self, if_true]
    next => exact .inl lexed.symm
  next => exact .inl lexed.symm

/-! ### Strings -/

/-- A string literal ends with its quote, whatever follows. -/
theorem stringRest_kept {quote : Char} {count : Nat} {chars : List Char}
    (h : stringRest d quote count chars gs = .token kind value more) :
    ∃ m, more = count + m ∧ m ≤ gs.length ∧ (gs.take m).getLast?.map (·.char) = some quote ∧
      ∀ behind, stringRest d quote count chars (gs.take m ++ behind) = .token kind value more := by
  fun_induction stringRest d quote count chars gs with
  | case1 | case2 | case5 | case6 | case7 | case9 => cases h
  | case3 count chars g rest inLine closes =>
      refine ⟨1, (Lexeme.token.inj h).2.2.symm, by simp, by simp [closes], fun behind => ?_⟩
      exact (stringRest_close inLine closes).trans h
  | case4 count chars g rest inLine inside plain ih =>
      obtain ⟨m, rfl, short, last, kept⟩ := ih h
      refine ⟨m + 1, by omega, by simpa using short, ?_, fun behind => ?_⟩
      · obtain ⟨x, isLast, isQuote⟩ := Option.map_eq_some_iff.1 last
        rw [List.take_succ_cons, List.getLast?_cons, isLast]
        exact congrArg some isQuote
      · rw [List.take_succ_cons, List.cons_append,
          stringRest_keep inLine inside (by simpa using plain)]
        exact kept behind
  | case8 count chars g inLine inside special e rest inLine' noBlank c escaped ih =>
      obtain ⟨m, rfl, short, last, kept⟩ := ih h
      refine ⟨m + 2, by omega, by simpa using short, ?_, fun behind => ?_⟩
      · obtain ⟨x, isLast, isQuote⟩ := Option.map_eq_some_iff.1 last
        rw [List.take_succ_cons, List.take_succ_cons, List.getLast?_cons, List.getLast?_cons,
          isLast]
        exact congrArg some isQuote
      · obtain ⟨slash, escapes⟩ : g.char = '\\' ∧ d.escapes = true := by simpa using special
        rw [List.take_succ_cons, List.take_succ_cons, List.cons_append, List.cons_append,
          stringRest_slash slash inside escapes, escapeRest, if_neg inLine', if_neg noBlank,
          escaped]
        exact kept behind

/-! ### All lexemes -/

/-- The last glyph of some glyphs is no carriage return. -/
def EndsSolid (gs : List Glyph) : Prop := ∀ g ∈ gs.getLast?, g.char ≠ '\r'

theorem EndsSolid.concat (gs : List Glyph) (solid : g.char ≠ '\r') : EndsSolid (gs ++ [g]) := by
  intro x mem
  rw [List.getLast?_concat] at mem
  cases mem
  exact solid

/-- Glyphs of a class without the carriage return. -/
theorem EndsSolid.of_class {p : Char → Bool} (none : p '\r' = false)
    (all : ∀ g ∈ gs, p g.char = true) : EndsSolid gs := by
  intro g mem
  exact ne_of_class (all g (List.mem_of_getLast? mem)) none

/-- What stands behind a lexeme does not matter, as long as it parts the lexeme from what
follows. -/
structure Keeps (d : Dialect) (g : Glyph) (rest : List Glyph) (kind : Kind) (value : Text)
    (more : Nat) : Prop where
  short : more ≤ rest.length
  ends : EndsSolid (g :: rest.take more)
  kept : ∀ behind, Parted behind → lexeme d g (rest.take more ++ behind) = .token kind value more

/-- Whether a number starts with a glyph: with a digit, or with a point before a digit. -/
def startsNumber (g : Glyph) (rest : List Glyph) : Bool :=
  isDigit g.char || (g.char == '.' && (rest.head?.map (·.char)).any isDigit)

theorem startsNumber_kept (h : startsNumber g rest = false) (parted : Parted behind) (n : Nat) :
    startsNumber g (rest.take n ++ behind) = false := by
  rcases head_take_append n rest behind with none | same
  · have noDigit := parted.stops (p := isDigit) (by decide)
    rw [startsNumber, Bool.or_eq_false_iff] at h ⊢
    rw [none, List.nil_append, Option.any_map]
    exact ⟨h.1, Bool.and_eq_false_iff.2 (.inr noDigit)⟩
  · rwa [startsNumber, same]

theorem startsNumber_number (h : startsNumber g rest = true) (behind : List Glyph) :
    startsNumber g (rest.take (numberMore g rest) ++ behind) = true := by
  rcases head_take_append (numberMore g rest) rest behind with none | same
  · rw [startsNumber, Bool.or_eq_true] at h ⊢
    refine h.imp_right fun point => ?_
    -- The digit behind a point is taken, so something is left before what follows.
    obtain ⟨isPoint, digit⟩ : g.char = '.' ∧ (rest.head?.map (·.char)).any isDigit = true := by
      simpa using point
    cases rest with
    | nil => cases digit
    | cons x rest =>
        have inside : isDigit x.char = true := digit
        have taken : numberMore g (x :: rest) = run isDigit rest + 1 := by
          simp [numberMore, isPoint, run, inside]
        rw [taken] at none
        cases none
  · rwa [startsNumber, same]

section Lexeme

variable (inLine : g.char ≠ '\n')

include inLine

theorem keeps_identifier (starts : isIdentStart g.char = true)
    (h : identifier d g rest = .token kind value more) : Keeps d g rest kind value more := by
  have taken : more = run isIdentContinue rest := (identifier_inv h).1
  refine ⟨taken ▸ run_le_length _ _, ?_, fun behind parted => ?_⟩
  · apply EndsSolid.of_class (p := isIdentContinue) (by decide)
    intro x mem
    rcases List.mem_cons.1 mem with rfl | mem
    · exact isIdentContinue_of_isIdentStart starts
    · rw [taken] at mem
      exact of_mem_take_run mem
  · rw [lexeme, if_neg inLine, if_pos starts]
    exact identifier_kept parted h

variable (noWord : isIdentStart g.char = false)

include noWord

theorem keeps_number (starts : startsNumber g rest = true)
    (h : number g rest = .token kind value more) : Keeps d g rest kind value more := by
  have taken : more = numberMore g rest := by
    rw [number_eq] at h
    dsimp only at h
    split at h
    · cases h
    · exact (Lexeme.token.inj h).2.2.symm
  refine ⟨taken ▸ numberMore_le_length g rest, ?_, fun behind parted => ?_⟩
  · apply EndsSolid.of_class (p := isNumeric) (by decide)
    intro x mem
    rcases List.mem_cons.1 mem with rfl | mem
    · rw [startsNumber, Bool.or_eq_true, Bool.and_eq_true] at starts
      rw [isNumeric, Bool.or_eq_true]
      exact starts.imp_right And.left
    · exact isNumeric_of_number h x mem
  · rw [lexeme, if_neg inLine, if_neg (by simp [noWord])]
    rw [taken] at h ⊢
    exact (if_pos (startsNumber_number starts behind)).trans (number_kept parted h)

variable (noNumber : startsNumber g rest = false)

include noNumber

/-- What a glyph starts that starts neither a word nor a number. -/
theorem lexeme_take (parted : Parted behind) (n : Nat) :
    lexeme d g (rest.take n ++ behind) =
      if g.char = '.' ∧ d.dotWords then dotWord (rest.take n ++ behind)
      else if d.isQuote g.char then stringRest d g.char 0 [] (rest.take n ++ behind)
      else if g.char = replacement then .fault .invalidUtf8 0 0
      else
        let (kind, more) := operator g.char ((rest.take n ++ behind).head?.map (·.char))
        .token kind [] more := by
  have noNumber' := startsNumber_kept noNumber parted n
  rw [lexeme, if_neg inLine, if_neg (by simp [noWord])]
  exact if_neg (by simpa [startsNumber] using noNumber')

theorem keeps_dotWord (isPoint : g.char = '.') (dots : d.dotWords = true)
    (h : dotWord rest = .token kind value more) : Keeps d g rest kind value more := by
  obtain alone | ⟨point, after, kind', value', ahead, isPoint', word, kept⟩ := dotWord_cases rest
  · rw [alone] at h
    cases h
    refine ⟨Nat.zero_le _, ?_, fun behind parted => ?_⟩
    · exact .concat [] (by rw [isPoint]; decide)
    · rw [lexeme_take inLine noWord noNumber parted, if_pos ⟨isPoint, dots⟩]
      exact dotWord_parted parted
  · rw [word] at h
    cases h
    have taken : rest.take (run isLetter rest + 1) = rest.take (run isLetter rest) ++ [point] := by
      rw [List.take_add, ahead]
      rfl
    have length := congrArg List.length ahead
    rw [List.length_drop, List.length_cons] at length
    refine ⟨by omega, ?_, fun behind parted => ?_⟩
    · rw [taken, ← List.cons_append]
      exact .concat _ (by rw [isPoint']; decide)
    · rw [lexeme_take inLine noWord noNumber parted, if_pos ⟨isPoint, dots⟩]
      exact kept behind

variable (noDots : ¬(g.char = '.' ∧ d.dotWords = true))

include noDots

theorem keeps_string (isQuote : d.isQuote g.char = true)
    (h : stringRest d g.char 0 [] rest = .token kind value more) :
    Keeps d g rest kind value more := by
  obtain ⟨m, same, short, last, kept⟩ := stringRest_kept h
  rw [Nat.zero_add] at same
  subst same
  refine ⟨short, ?_, fun behind parted => ?_⟩
  · intro x mem
    obtain ⟨y, isLast, quote⟩ := Option.map_eq_some_iff.1 last
    rw [List.getLast?_cons, isLast] at mem
    cases Option.mem_some.1 mem
    rw [Option.getD_some, quote]
    exact ne_of_class isQuote (by cases d <;> decide)
  · rw [lexeme_take inLine noWord noNumber parted, if_neg noDots, if_pos isQuote]
    exact kept behind

theorem keeps_operator (noQuote : d.isQuote g.char = false) (valid : g.char ≠ replacement)
    (solid : g.char ≠ '\r') :
    Keeps d g rest (operator g.char (rest.head?.map (·.char))).1 []
      (operator g.char (rest.head?.map (·.char))).2 := by
  have signs : ∀ behind n, Parted behind → lexeme d g (rest.take n ++ behind) =
      .token (operator g.char ((rest.take n ++ behind).head?.map (·.char))).1 []
        (operator g.char ((rest.take n ++ behind).head?.map (·.char))).2 := by
    intro behind n parted
    rw [lexeme_take inLine noWord noNumber parted, if_neg noDots, if_neg (by simp [noQuote]),
      if_neg valid]
  rcases operator_cases g.char (rest.head?.map (·.char)) with ⟨same, single⟩ | ⟨second, double⟩
  · rw [same, single]
    refine ⟨Nat.zero_le _, .concat [] solid, fun behind parted => ?_⟩
    rw [signs behind 0 parted, List.take_zero, List.nil_append]
    rcases operator_cases g.char (behind.head?.map (·.char)) with ⟨same', -⟩ | ⟨second, -⟩
    · rw [same', single]
    · -- The second character of an operator is no separator.
      rcases second with head | head | head
      all_goals exact absurd head (parted.head_ne (by decide))
  · rw [double]
    cases rest with
    | nil => simp at second
    | cons x rest =>
        have char : x.char = '=' ∨ x.char = '>' ∨ x.char = '?' := by simpa using second
        refine ⟨by simp, .concat [g] ?_, fun behind parted => ?_⟩
        · rcases char with char | char | char
          all_goals
            rw [char]
            decide
        · rw [signs behind 1 parted]
          exact congrArg (Lexeme.token _ []) double

end Lexeme

/-- Nothing behind a lexeme matters but that it starts with a separator. -/
theorem keeps_of_lexeme (h : lexeme d g rest = .token kind value more) (solid : g.char ≠ '\r') :
    Keeps d g rest kind value more := by
  unfold lexeme at h
  dsimp only at h
  split at h
  next isEnd =>
    cases h
    refine ⟨Nat.zero_le _, .concat [] solid, fun behind _ => ?_⟩
    rw [lexeme, if_pos isEnd]
  next inLine =>
  split at h
  next starts => exact keeps_identifier inLine starts h
  next noWord =>
  have noWord : isIdentStart g.char = false := by simpa using noWord
  split at h
  next starts => exact keeps_number inLine noWord starts h
  next noNumber =>
  have noNumber : startsNumber g rest = false := by
    rw [startsNumber]
    exact Bool.eq_false_iff.2 noNumber
  split at h
  next dots => exact keeps_dotWord inLine noWord noNumber dots.1 dots.2 h
  next noDots =>
  split at h
  next isQuote => exact keeps_string inLine noWord noNumber noDots isQuote h
  next noQuote =>
  have noQuote : d.isQuote g.char = false := by simpa using noQuote
  split at h
  next => cases h
  next valid =>
    cases h
    exact keeps_operator inLine noWord noNumber noDots noQuote valid solid

/-! ### Where skipping stops -/

/-- A glyph at which skipping stops: a line end that is a token, or a character that is no blank
and opens no comment. -/
def Solid (d : Dialect) (g : Glyph) (rest : List Glyph) : Prop :=
  g.char = '\n' ∧ d.newlineSignificant = true ∨
    g.char ≠ '\n' ∧ isBlank g.char = false ∧
      commentAt? d g.char (rest.head?.map (·.char)) = none

theorem Solid.skipTrivia (h : Solid d g rest) (n : Nat) :
    skipTrivia d .between n (g :: rest) = .clear n := by
  rcases h with ⟨isEnd, token⟩ | ⟨inLine, solid, none⟩
  · exact skipTrivia_token isEnd token
  · exact skipTrivia_solid inLine solid none

theorem Solid.ne_return (h : Solid d g rest) : g.char ≠ '\r' := by
  intro isReturn
  rcases h with ⟨isEnd, -⟩ | ⟨-, solid, -⟩
  · rw [isReturn] at isEnd
    cases isEnd
  · rw [isReturn] at solid
    cases solid

/-- No comment opens with a character that stands before a separator, if none did before. -/
theorem commentAt?_kept (h : commentAt? d g.char (rest.head?.map (·.char)) = none)
    (parted : Parted behind) (n : Nat) :
    commentAt? d g.char ((rest.take n ++ behind).head?.map (·.char)) = none := by
  rcases head_take_append n rest behind with nothing | same
  · rw [commentAt?, List.find?_eq_none] at h ⊢
    intro form mem opens
    refine h form mem ?_
    rw [opensWith, Bool.and_eq_true] at opens ⊢
    refine ⟨opens.1, ?_⟩
    cases second : form.second? with
    | none => rfl
    | some c =>
        -- The second character of a mark is no separator.
        have head : behind.head?.map (·.char) = some c := by
          simpa [second, nothing] using opens.2
        refine absurd head (parted.head_ne ?_)
        cases form <;> cases second <;> decide
  · rw [same, h]

theorem Solid.kept (h : Solid d g rest) (parted : Parted behind) (n : Nat) :
    Solid d g (rest.take n ++ behind) := by
  rcases h with token | ⟨inLine, solid, none⟩
  · exact .inl token
  · exact .inr ⟨inLine, solid, commentAt?_kept none parted n⟩

/-- Some glyphs behind which either nothing is left, or a glyph at which skipping stops. -/
def Stops (d : Dialect) (gs : List Glyph) (count total : Nat) : Prop :=
  ∃ n, total = count + n ∧ ∀ g rest, gs.drop n = g :: rest → Solid d g rest

theorem Stops.step {count total : Nat} (k : Nat) (h : Stops d (gs.drop k) (count + k) total) :
    Stops d gs count total := by
  obtain ⟨n, same, solid⟩ := h
  refine ⟨k + n, by omega, fun g rest ahead => ?_⟩
  rw [← List.drop_drop] at ahead
  exact solid g rest ahead

/-- Skipping that ends well ends with the glyphs or at a glyph where it stops. -/
theorem stops_of_skipTrivia {mode : SkipMode} {count total : Nat}
    (h : skipTrivia d mode count gs = .clear total) : Stops d gs count total := by
  have here {g : Glyph} {rest : List Glyph} {count : Nat} (solid : Solid d g rest) :
      Stops d (g :: rest) count count := by
    refine ⟨0, rfl, fun g' rest' ahead => ?_⟩
    cases ahead
    exact solid
  fun_induction skipTrivia d mode count gs with
  | case1 | case2 =>
      cases h
      exact ⟨0, rfl, fun g rest ahead => by cases ahead⟩
  | case3 | case8 => cases h
  | case4 _ _ _ isEnd token | case11 _ _ _ isEnd token =>
      cases h
      exact here (.inl ⟨isEnd, token⟩)
  | case7 count g rest inLine solid none =>
      cases h
      exact here (.inr ⟨inLine, by simpa using solid, none⟩)
  -- Two glyphs are passed at once where a mark has two characters.
  | case9 | case14 =>
      rename_i ih
      exact .step 2 (ih h)
  | case5 | case6 | case10 | case12 | case13 | case15 | case16 | case17 | case18 =>
      rename_i ih
      exact .step 1 (ih h)

end PrgScript.Scanner
