import PrgScript.Proofs.Scan
import PrgScript.Proofs.View

/-!
# Two scripts scanned side by side

Two scripts have tokens that look the same if this holds step by step: from cursors that
are related, scanning gives tokens that look the same and related cursors behind them,
or errors that look the same.
-/

namespace PrgScript

/-- Two steps of scanning that look the same, with related cursors behind their tokens. -/
inductive Scanner.Alike (v : View) (Q : Cursor → Cursor → Prop) :
    Scanned × Cursor → Scanned × Cursor → Prop
  | token {tok tok' : Token} {c c' : Cursor} (same : tok.seen v = tok'.seen v)
      (behind : Q c c') : Alike v Q (⟨tok, none⟩, c) (⟨tok', none⟩, c')
  | error {tok tok' : Token} {e e' : ScriptError} {c c' : Cursor}
      (same : e.seen v = e'.seen v) : Alike v Q (⟨tok, some e⟩, c) (⟨tok', some e'⟩, c')

namespace TokenStream

variable {v : View} {Q : Cursor → Cursor → Prop} {file file' : File} {d : Dialect}

/-- Each token takes a glyph at least, so both scripts are scanned up to their ends. -/
theorem seen_scanFrom
    (step : ∀ c c', Q c c' →
      Scanner.Alike v Q (Scanner.scan file d c) (Scanner.scan file' d c'))
    {fuel fuel' : Nat} {c c' : Cursor} (related : Q c c') (enough : c.rest.length < fuel)
    (enough' : c'.rest.length < fuel') :
    (scanFrom file d fuel c).seen v = (scanFrom file' d fuel' c').seen v := by
  induction fuel generalizing fuel' c c' with
  | zero => exact absurd enough (Nat.not_lt_zero _)
  | succ fuel ih =>
      cases fuel' with
      | zero => exact absurd enough' (Nat.not_lt_zero _)
      | succ fuel' =>
          have alike := step c c' related
          rw [scanFrom, scanFrom]
          generalize scanned : Scanner.scan file d c = first at alike
          generalize scanned' : Scanner.scan file' d c' = second at alike
          cases alike with
          | error same => exact congrArg (fun report => ([], Sum.inr report)) same
          | @token tok tok' after after' same behind =>
              have kinds := Token.kind_of_seen same
              by_cases last : tok.kind = .eof
              · simp only [if_pos last, if_pos (kinds ▸ last)]
                exact congrArg (fun tok => ([], Sum.inl tok)) same
              · have last' : tok'.kind ≠ .eof := kinds ▸ last
                have shorter := Scanner.scan_advances scanned last
                have shorter' := Scanner.scan_advances scanned' last'
                have rest := ih behind (by omega) (by omega : _ < fuel')
                simp only [seen, Prod.mk.injEq] at rest
                simp only [if_neg last, if_neg last', seen, List.map_cons, same, rest]

theorem seen_ofFile
    (step : ∀ c c', Q c c' →
      Scanner.Alike v Q (Scanner.scan file d c) (Scanner.scan file' d c'))
    (start : Q (.ofText file.content) (.ofText file'.content)) :
    (ofFile file d).seen v = (ofFile file' d).seen v :=
  seen_scanFrom step start (Nat.lt_succ_self _) (Nat.lt_succ_self _)

end TokenStream

end PrgScript
