import PrgScript.Proofs.Step
import PrgScript.Script.Line

/-!
# What a reader takes from a line

A reader works on the rest of a line. If it ends well it has taken some tokens
from the front, and the count of open parentheses has followed the parentheses
among them. `Reads` says this together with a relation between the tokens taken
and the value returned; it is the form in which every reader is shown to accept
nothing but its grammar. Readers that do not look ahead get it from their parts
by `Reads.bind` and `Reads.next`.

The other direction has no common form: a reader also needs that it stops where
it should, which depends on the token behind. There the equations below run a
reader one token at a time.
-/

namespace PrgScript

open Step

/-- A kind that neither ends a line nor is a parenthesis. -/
def Kind.isInner : Kind → Bool
  | .lParen | .rParen | .newline | .eof => false
  | _ => true

def parensAfter (n : Int) (toks : List Token) : Int :=
  toks.foldl (fun n tok =>
    match tok.kind with
    | .lParen => openedParens n
    | .rParen => closedParens n
    | _ => n) n

@[simp] theorem parensAfter_nil (n : Int) : parensAfter n [] = n := rfl

@[simp] theorem parensAfter_append (n : Int) (xs ys : List Token) :
    parensAfter n (xs ++ ys) = parensAfter (parensAfter n xs) ys :=
  List.foldl_append

theorem parensAfter_inner {tok : Token} (inner : tok.kind.isInner = true) (n : Int)
    (toks : List Token) : parensAfter n (tok :: toks) = parensAfter n toks := by
  change parensAfter (match tok.kind with | .lParen => _ | .rParen => _ | _ => n) toks = _
  split
  next h => simp [h, Kind.isInner] at inner
  next h => simp [h, Kind.isInner] at inner
  next => rfl

theorem parensAfter_of_kind {tok : Token} {kind : Kind} (same : tok.kind = kind)
    (inner : kind.isInner = true) (n : Int) (toks : List Token) :
    parensAfter n (tok :: toks) = parensAfter n toks :=
  parensAfter_inner (same ▸ inner) n toks

theorem parensAfter_open {tok : Token} (h : tok.kind = .lParen) (n : Int) (toks : List Token) :
    parensAfter n (tok :: toks) = parensAfter (openedParens n) toks := by
  simp [parensAfter, h]

theorem parensAfter_close {tok : Token} (h : tok.kind = .rParen) (n : Int) (toks : List Token) :
    parensAfter n (tok :: toks) = parensAfter (closedParens n) toks := by
  simp [parensAfter, h]

/-- The end of a line is a token that may end one, or an error. -/
def LineEnd.Closes (ending : LineEnd) : Prop :=
  ∀ tok, ending = .token tok → tok.kind.isEnd = true

theorem LineEnd.Closes.token {stop : Token} (ends : stop.kind.isEnd = true) :
    (LineEnd.token stop).Closes := by
  intro tok same
  cases same
  exact ends

namespace Read

/-! ### One token at a time -/

section Equations

variable (tok stop : Token) (toks : List Token) (ending : LineEnd) (e : ScriptError) (n : Int)

@[simp] theorem outcome_peek_cons :
    outcome peek ⟨⟨tok :: toks, ending⟩, n⟩ = (.ok tok, ⟨⟨tok :: toks, ending⟩, n⟩) := rfl

@[simp] theorem outcome_peek_nil :
    outcome peek ⟨⟨[], .token stop⟩, n⟩ = (.ok stop, ⟨⟨[], .token stop⟩, n⟩) := rfl

@[simp] theorem outcome_peek_error :
    outcome peek ⟨⟨[], .error e⟩, n⟩ = (.error (.scan e), ⟨⟨[], .error e⟩, n⟩) := rfl

@[simp] theorem outcome_next_cons :
    outcome next ⟨⟨tok :: toks, ending⟩, n⟩ = (.ok tok, ⟨⟨toks, ending⟩, n⟩) := rfl

@[simp] theorem outcome_discard_next_cons :
    outcome (discard next) ⟨⟨tok :: toks, ending⟩, n⟩ = (.ok (), ⟨⟨toks, ending⟩, n⟩) := rfl

@[simp] theorem outcome_next_nil :
    outcome next ⟨⟨[], .token stop⟩, n⟩ = (.ok stop, ⟨⟨[], .token stop⟩, n⟩) := rfl

@[simp] theorem outcome_next_error :
    outcome next ⟨⟨[], .error e⟩, n⟩ = (.error (.scan e), ⟨⟨[], .error e⟩, n⟩) := rfl

@[simp] theorem outcome_bound :
    outcome bound ⟨⟨toks, ending⟩, n⟩ = (.ok (toks.length + 1), ⟨⟨toks, ending⟩, n⟩) := rfl

@[simp] theorem outcome_isAt (kind : Kind) :
    outcome (isAt kind) ⟨⟨toks, ending⟩, n⟩ =
      (.ok (toks.head?.any (·.kind == kind)), ⟨⟨toks, ending⟩, n⟩) := rfl

@[simp] theorem outcome_openParen :
    outcome openParen ⟨⟨toks, ending⟩, n⟩ = (.ok (), ⟨⟨toks, ending⟩, openedParens n⟩) := rfl

@[simp] theorem outcome_closeParen :
    outcome closeParen ⟨⟨toks, ending⟩, n⟩ = (.ok (), ⟨⟨toks, ending⟩, closedParens n⟩) := rfl

end Equations

theorem outcome_unexpected_ne {α : Type} (wanted : Wanted) (tok : Token) (r r' : Reading) (a : α) :
    outcome (unexpected wanted tok : Read α) r ≠ (.ok a, r') := by
  unfold unexpected
  rw [outcome_bind, outcome_get]
  dsimp only
  split <;> simp

/-! ### What a reader accepts -/

/-- If the reader ends well it has taken tokens from the front that are related to its value. -/
def Reads {α : Type} (x : Read α) (R : List Token → α → Prop) : Prop :=
  ∀ ⦃toks : List Token⦄ ⦃ending : LineEnd⦄ ⦃n : Int⦄ ⦃a : α⦄ ⦃r : Reading⦄, ending.Closes →
    outcome x ⟨⟨toks, ending⟩, n⟩ = (.ok a, r) →
      ∃ used rest, toks = used ++ rest ∧ r = ⟨⟨rest, ending⟩, parensAfter n used⟩ ∧ R used a

namespace Reads

variable {α β : Type} {x : Read α} {R S : List Token → α → Prop}

theorem mono (h : Reads x R) (imp : ∀ used a, R used a → S used a) : Reads x S := by
  intro toks ending n a r ends ran
  obtain ⟨used, rest, split, state, related⟩ := h ends ran
  exact ⟨used, rest, split, state, imp used a related⟩

theorem pure {a : α} (h : R [] a) : Reads (Pure.pure a) R := by
  intro toks ending n b r _ ran
  cases ran
  exact ⟨[], toks, rfl, rfl, h⟩

theorem throw (e : Fault) : Reads (MonadExcept.throw e : Read α) R := by
  intro toks ending n a r _ ran
  simp at ran

theorem unexpected (wanted : Wanted) (tok : Token) : Reads (Read.unexpected wanted tok) R := by
  intro toks ending n a r _ ran
  exact (outcome_unexpected_ne wanted tok _ r a ran).elim

theorem bind {f : α → Read β} {T : List Token → β → Prop} (first : Reads x R)
    (rest : ∀ a used, R used a → Reads (f a) fun more b => T (used ++ more) b) :
    Reads (x >>= f) T := by
  intro toks ending n b r ends ran
  obtain ⟨a, r₁, ran₁, ran₂⟩ := outcome_bind_eq_ok.1 ran
  obtain ⟨used, toks₁, rfl, rfl, related⟩ := first ends ran₁
  obtain ⟨more, toks₂, rfl, rfl, related₂⟩ := rest a used related ends ran₂
  exact ⟨used ++ more, toks₂, by simp, by simp, related₂⟩

theorem map {f : α → β} {T : List Token → β → Prop} (first : Reads x R)
    (imp : ∀ used a, R used a → T used (f a)) : Reads (f <$> x) T := by
  rw [← bind_pure_comp]
  exact first.bind fun a used related => .pure (by simpa using imp used a related)

theorem discard (h : Reads x R) : Reads (Functor.discard x) fun used _ => ∃ a, R used a :=
  h.map fun _ a related => ⟨a, related⟩

/-- A reader that takes a token and accepts it only if it is an inner one. -/
theorem next {f : Token → Read β} {T : Token → List Token → β → Prop}
    (rest : ∀ tok, Reads (f tok) (T tok))
    (inner : ∀ tok used b, T tok used b → tok.kind.isInner = true) :
    Reads (Read.next >>= f) fun used b => ∃ tok more, used = tok :: more ∧ T tok more b := by
  intro toks ending n b r ends ran
  cases toks with
  | nil =>
      cases ending with
      | error e => simp [outcome_bind] at ran
      | token stop =>
          rw [outcome_bind_of_ok (outcome_next_nil stop n)] at ran
          obtain ⟨used, _, _, _, related⟩ := rest stop ends ran
          have kind := inner stop used b related
          have last := ends stop rfl
          cases h : stop.kind <;> simp [h, Kind.isInner, Kind.isEnd] at kind last
  | cons tok toks =>
      rw [outcome_bind_of_ok (outcome_next_cons tok toks ending n)] at ran
      obtain ⟨used, toks₁, rfl, rfl, related⟩ := rest tok ends ran
      refine ⟨tok :: used, toks₁, rfl, ?_, tok, used, rfl, related⟩
      rw [parensAfter_inner (inner tok used b related)]

/-- A reader of a single token. -/
theorem token {f : Token → Read β} {T : Token → β → Prop}
    (taken : ∀ tok, Reads (f tok) fun used b => used = [] ∧ T tok b)
    (inner : ∀ tok b, T tok b → tok.kind.isInner = true) :
    Reads (Read.next >>= f) fun used b => ∃ tok, used = [tok] ∧ T tok b := by
  refine (next taken fun tok used b h => inner tok b h.2).mono ?_
  rintro used b ⟨tok, more, rfl, rfl, related⟩
  exact ⟨tok, rfl, related⟩

/-- A reader that looks at the next token and then either goes on without it or takes it, if it
is an inner one. -/
theorem choose {body : Token → Read β} {T : List Token → β → Prop}
    (each : ∀ tok, Reads (body tok) T ∨
      tok.kind.isInner = true ∧ ∃ go : Read β,
        (∀ toks ending n, outcome (body tok) ⟨⟨tok :: toks, ending⟩, n⟩ =
          outcome go ⟨⟨toks, ending⟩, n⟩) ∧
        Reads go fun more b => T (tok :: more) b) : Reads (peek >>= body) T := by
  intro toks ending n b r ends ran
  cases toks with
  | nil =>
      cases ending with
      | error e => simp [outcome_bind] at ran
      | token stop =>
          rw [outcome_bind_of_ok (outcome_peek_nil stop n)] at ran
          rcases each stop with h | ⟨kind, _⟩
          · exact h ends ran
          · have last := ends stop rfl
            cases h : stop.kind <;> simp [h, Kind.isInner, Kind.isEnd] at kind last
  | cons tok toks =>
      rw [outcome_bind_of_ok (outcome_peek_cons tok toks ending n)] at ran
      rcases each tok with h | ⟨kind, go, taken, h⟩
      · exact h ends ran
      · rw [taken] at ran
        obtain ⟨more, toks₁, rfl, rfl, related⟩ := h ends ran
        refine ⟨tok :: more, toks₁, rfl, ?_, related⟩
        rw [parensAfter_inner kind]

end Reads

/-! ### What a reader takes -/

/-- The token that a reader meets behind the tokens of a line. -/
def front (rest : List Token) (stop : Token) : Token := rest.head?.getD stop

@[simp] theorem front_nil (stop : Token) : front [] stop = stop := rfl

@[simp] theorem front_cons (tok : Token) (rest : List Token) (stop : Token) :
    front (tok :: rest) stop = tok := rfl

@[simp] theorem outcome_peek_front (rest : List Token) (stop : Token) (n : Int) :
    outcome peek ⟨⟨rest, .token stop⟩, n⟩ = (.ok (front rest stop), ⟨⟨rest, .token stop⟩, n⟩) := by
  cases rest <;> rfl

/-- Where tokens related to a value stand at the front, and one of a kind in `F` behind them, the
reader takes them and returns the value. -/
def Takes {α : Type} (x : Read α) (R : List Token → α → Prop) (F : Kind → Prop) : Prop :=
  ∀ ⦃used : List Token⦄ ⦃a : α⦄ (rest : List Token) (stop : Token) (n : Int), R used a →
    F (front rest stop).kind →
    outcome x ⟨⟨used ++ rest, .token stop⟩, n⟩ =
      (.ok a, ⟨⟨rest, .token stop⟩, parensAfter n used⟩)

theorem Takes.weaken {α : Type} {x : Read α} {R : List Token → α → Prop} {F G : Kind → Prop}
    (h : Takes x R F) (imp : ∀ kind, G kind → F kind) : Takes x R G :=
  fun _ _ rest stop n related follow => h rest stop n related (imp _ follow)

end Read

end PrgScript
