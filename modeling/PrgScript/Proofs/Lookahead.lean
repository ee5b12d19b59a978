import PrgScript.Proofs.Spans

/-!
# Lookahead

A lexer scans one token ahead of its reader when it is asked to, so its cursor may stand behind a
token that nobody has taken yet. What it answers does not tell: the calls that take a token get what
they would get if nobody had looked, and who looks sees what the next call takes.
-/

namespace PrgScript.Lexer

inductive Call where
  | peek
  | next
deriving DecidableEq

def call (lx : Lexer) : Call → Scanned × Lexer
  | .peek => lx.peek
  | .next => lx.next

/-- Calls in a row, each with what it gives. -/
def answers (lx : Lexer) : List Call → List (Call × Scanned)
  | [] => []
  | c :: calls => (c, (lx.call c).1) :: (lx.call c).2.answers calls

def taken (answers : List (Call × Scanned)) : List Scanned :=
  (answers.filter (·.1 = .next)).map (·.2)

@[simp] theorem taken_peek (scanned : Scanned) (answers : List (Call × Scanned)) :
    taken ((.peek, scanned) :: answers) = taken answers := rfl

@[simp] theorem taken_next (scanned : Scanned) (answers : List (Call × Scanned)) :
    taken ((.next, scanned) :: answers) = scanned :: taken answers := rfl

/-- The calls of a lexer with nothing ahead, where a look takes nothing: it only tells what the
next call would give. -/
def told (lx : Lexer) : List Call → List (Call × Scanned)
  | [] => []
  | .peek :: calls => (.peek, lx.next.1) :: lx.told calls
  | .next :: calls => (.next, lx.next.1) :: lx.next.2.told calls

theorem peek_fst (lx : Lexer) : lx.peek.1 = lx.next.1 := by
  unfold peek next
  split <;> rfl

/-- The token ahead is what the cursor has passed, so taking it leads where scanning leads. -/
theorem next_peek (lx : Lexer) : lx.peek.2.next = lx.next := by
  obtain ⟨file, d, cursor, ahead⟩ := lx
  cases ahead <;> rfl

/-- A lexer is as good as one with nothing ahead whose next call does the same. -/
theorem answers_eq_told {lx plain : Lexer} (same : lx.next = plain.next) (calls : List Call) :
    lx.answers calls = plain.told calls := by
  induction calls generalizing lx plain with
  | nil => rfl
  | cons c calls ih =>
    cases c with
    | peek =>
      have later : lx.peek.2.answers calls = plain.told calls := ih (lx.next_peek.trans same)
      simp only [answers, call, told, later, peek_fst, same]
    | next =>
      have later : plain.next.2.answers calls = plain.next.2.told calls := ih rfl
      simp only [answers, call, told, same, later]

theorem taken_told (lx : Lexer) (calls : List Call) :
    taken (lx.told calls) = lx.results (calls.count .next) := by
  induction calls generalizing lx with
  | nil => rfl
  | cons c calls ih =>
    cases c with
    | peek =>
      rw [told, taken_peek, List.count_cons_of_ne (by decide)]
      exact ih lx
    | next =>
      rw [told, taken_next, List.count_cons_self, results_succ, ih]

/-- What a look sees is the result whose number is that of the tokens taken before it. -/
theorem told_peek {lx : Lexer} {calls : List Call} {before after : List (Call × Scanned)}
    {scanned : Scanned} (all : lx.told calls = before ++ (.peek, scanned) :: after) :
    scanned = (lx.after (taken before).length).next.1 ∧ ∀ r ∈ (taken after).head?, r = scanned := by
  induction calls generalizing lx before with
  | nil => simp [told] at all
  | cons c calls ih =>
    obtain _ | ⟨first, before⟩ := before
    · cases c with
      | next => simp [told] at all
      | peek =>
        simp only [told, List.nil_append, List.cons.injEq, Prod.mk.injEq, true_and] at all
        obtain ⟨rfl, rfl⟩ := all
        refine ⟨rfl, fun r first => ?_⟩
        -- the first token taken from here on, if any is, is the first result of this very lexer
        rw [taken_told] at first
        cases number : calls.count .next with
        | zero => simp [number, results] at first
        | succ n =>
          rw [number, results_succ] at first
          exact (Option.some.inj first).symm
    · cases c with
      | peek =>
        simp only [told, List.cons_append, List.cons.injEq] at all
        obtain ⟨rfl, all⟩ := all
        rw [taken_peek]
        exact ih all
      | next =>
        simp only [told, List.cons_append, List.cons.injEq] at all
        obtain ⟨rfl, all⟩ := all
        rw [taken_next, List.length_cons, after_succ]
        exact ih all

/-- Looking ahead changes nothing. However calls that look and calls that take follow each other,
those that take get, in order, the results of as many calls with no look among them, errors and the
end of the script included. And every look sees what the next call that takes a token gets, which is
the result whose number is that of the tokens taken before. -/
theorem looking_changes_nothing (file : File) (d : Dialect) (calls : List Call) :
    let lx := start file d
    (lx.answers calls).map (·.1) = calls ∧
    taken (lx.answers calls) = lx.results (calls.count .next) ∧
    ∀ before scanned after, lx.answers calls = before ++ (.peek, scanned) :: after →
      scanned = (lx.after (taken before).length).next.1 ∧
      ∀ r ∈ (taken after).head?, r = scanned := by
  intro lx
  have names (lx : Lexer) : (lx.answers calls).map (·.1) = calls := by
    induction calls generalizing lx with
    | nil => rfl
    | cons c calls ih => exact congrArg (c :: ·) (ih _)
  have plain : lx.answers calls = lx.told calls := answers_eq_told rfl calls
  refine ⟨names lx, ?_, fun before scanned after all => ?_⟩
  · rw [plain]
    exact taken_told lx calls
  · rw [plain] at all
    exact told_peek all

/-- Two looks at a string that is not closed, the error taken, a look at the line end behind it,
then that and the end of the script taken. -/
theorem looking_changes_nothing_at_an_error :
    let lx := start ⟨0, "a.prg", "'\n", 0⟩ .dbase
    let calls := [Call.peek, .peek, .next, .peek, .next, .next]
    let rest := (lx.answers calls).drop 1
    lx.next.1.error.isSome ∧ lx.answers calls = [] ++ (.peek, lx.next.1) :: rest ∧
      (lx.results 3).map (·.token.kind) = [.invalid, .newline, .eof] ∧
      taken (lx.answers calls) = lx.results 3 ∧ ∀ r ∈ (taken rest).head?, r = lx.next.1 := by
  intro lx calls rest
  have seen : lx.answers calls = [] ++ (.peek, lx.next.1) :: rest := by decide +kernel
  obtain ⟨-, kept, look⟩ := looking_changes_nothing ⟨0, "a.prg", "'\n", 0⟩ .dbase calls
  exact ⟨by decide +kernel, seen, by decide +kernel, kept, (look _ _ _ seen).2⟩

end PrgScript.Lexer
