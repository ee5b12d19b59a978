import PrgScript.Proofs.Acceptance
import PrgScript.Proofs.Counting
import PrgScript.Proofs.Glyphs

/-!
# Names

Three functions tell whether two names are the same. Variables are kept under their capitals, and so
are the names that a script declares; the end of a loop is compared with its counter by case
folding. Folding keeps the capitals of all letters but five, and capitals have the fold of all
letters but one, so the two agree on names without those letters, and only there.
-/

namespace PrgScript.Text

/-! ### Capitals and folding -/

namespace CaseRun

variable {run : CaseRun} {runs : List CaseRun} {n k : Nat}

def image (runs : List CaseRun) (n : Nat) : Nat :=
  match runs.find? (·.covers n) with
  | some run => run.target + (n - run.first)
  | none => n

theorem apply_eq_image (runs : List CaseRun) (c : Char) :
    apply runs c = Char.ofNat (image runs c.toNat) := by
  unfold apply image
  cases runs.find? (·.covers c.toNat) with
  | some run => rfl
  | none => exact (Char.ofNat_toNat c).symm

theorem apply_of_found {c : Char} (found : runs.find? (·.covers c.toNat) = some run)
    (code : c.toNat = run.first + k) : apply runs c = Char.ofNat (run.target + k) := by
  rw [apply, found]
  simp only [code, Nat.add_sub_cancel_left]

/-- The runs that reach into a stretch of code points. -/
def near (runs : List CaseRun) (low high : Nat) : List CaseRun :=
  runs.filter fun run => Nat.ble run.first high && Nat.ble low run.last

theorem image_near (runs : List CaseRun) {low high : Nat} (above : low ≤ n) (below : n ≤ high) :
    image (near runs low high) n = image runs n := by
  have same : (near runs low high).find? (·.covers n) = runs.find? (·.covers n) := by
    rw [near, List.find?_filter]
    congr 1
    funext run
    rw [Bool.eq_iff_iff, decide_eq_true_eq, and_iff_right_iff_imp]
    intro covers
    simp only [CaseRun.covers, Bool.and_eq_true, decide_eq_true_eq] at covers
    rw [Nat.ble_eq_true_of_le (Nat.le_trans covers.1.1 below),
      Nat.ble_eq_true_of_le (Nat.le_trans above covers.1.2)]
    rfl
  rw [image, same, image]

theorem covers_iff : run.covers n = true ↔
    run.first ≤ run.last ∧
      ∃ k, n = run.first + k ∧ k ≤ run.last - run.first ∧ k % run.step = 0 := by
  simp only [covers, Bool.and_eq_true, decide_eq_true_eq, beq_iff_eq]
  constructor
  · rintro ⟨⟨low, high⟩, step⟩
    exact ⟨by omega, n - run.first, by omega, by omega, step⟩
  · rintro ⟨fits, k, rfl, short, step⟩
    rw [Nat.add_sub_cancel_left]
    exact ⟨⟨by omega, by omega⟩, step⟩

/-- Whether code points beyond ASCII lie on one side of the surrogates. -/
def valid (low high : Nat) : Bool :=
  Nat.ble 0x80 low && Nat.ble low high &&
    (Nat.ble high 0xD7FF || Nat.ble 0xE000 low && Nat.ble high 0x10FFFF)

theorem toNat_of_valid {low high : Nat} (h : valid low high = true) (above : low ≤ n)
    (below : n ≤ high) : (Char.ofNat n).toNat = n ∧ 0x80 ≤ n := by
  simp only [valid, Bool.and_eq_true, Bool.or_eq_true, Nat.ble_eq] at h
  exact ⟨toNat_char (by omega), by omega⟩

end CaseRun

/-- The letters that a lower case leads away from: it has another capital. -/
def oddCapitals : List Nat :=
  [0x130, 0x1C5, 0x1C8, 0x1CB, 0x1F2, 0x3F4, 0x1E9E, 0x2126, 0x212A, 0x212B]

/-- The letters whose folded form has another capital: the theta symbol, the capital sharp s, and
the signs of the ohm, the kelvin and the angstrom. -/
def signLetters : List Char := ['ϴ', 'ẞ', '\u2126', '\u212A', '\u212B']

/-- Whether a character and its folded form have the same capital. -/
def keepsCapital (c : Char) : Bool := upperChar (foldChar c) == upperChar c

/-- Whether the letters of a run are the capitals of their lower case, odd ones apart. -/
def CaseRun.returns (run : CaseRun) : Bool :=
  let high := run.target + (run.last - run.first)
  let back := near upperRuns run.target high
  valid run.first run.last && (List.range (run.last - run.first + 1)).all fun k =>
    Nat.blt 0 (k % run.step) || oddCapitals.any (Nat.beq (run.first + k)) ||
      valid run.target high && Nat.beq (image back (run.target + k)) (run.first + k)

theorem lowerRuns_return : lowerRuns.all CaseRun.returns = true := by decide +kernel

/-- The letters that are looked at one by one: those of ASCII, those that are not the lower case of
their capital, and the odd capitals with what they are lowered to. -/
theorem keepsCapital_direct :
    (List.range 0x80).all (fun n => keepsCapital (Char.ofNat n)) = true ∧
    loneUpperRuns.all (fun run => (List.range (run.last - run.first + 1)).all fun k =>
      keepsCapital (Char.ofNat (run.first + k))) = true ∧
    oddCapitals.all (fun n =>
      (signLetters.contains (Char.ofNat n) || keepsCapital (Char.ofNat n)) &&
        lowerRuns.all fun run =>
          !run.covers n || keepsCapital (Char.ofNat (run.target + (n - run.first)))) = true := by
  decide +kernel

open CaseRun

/-- The capital of a lower case is the letter again, unless it is odd. -/
theorem upperChar_ofNat {run : CaseRun} (mem : run ∈ lowerRuns) {k : Nat}
    (short : k ≤ run.last - run.first) (step : k % run.step = 0) :
    ((Char.ofNat (run.first + k)).toNat = run.first + k ∧ 0x80 ≤ run.first + k) ∧
      run.first ≤ run.last ∧ (run.first + k ∈ oddCapitals ∨
        upperChar (Char.ofNat (run.target + k)) = Char.ofNat (run.first + k)) := by
  have all := List.all_eq_true.1 lowerRuns_return run mem
  simp only [returns, Bool.and_eq_true, List.all_eq_true, List.mem_range] at all
  obtain ⟨fits, all⟩ := all
  have ordered : run.first ≤ run.last := by
    simp only [valid, Bool.and_eq_true, Nat.ble_eq] at fits
    exact fits.1.2
  refine ⟨toNat_of_valid fits (by omega) (by omega), ordered, ?_⟩
  have this := all k (by omega)
  rw [step] at this
  simp only [Nat.blt, Nat.ble, Bool.false_or, Bool.or_eq_true, List.any_eq_true, Bool.and_eq_true,
    Nat.beq_eq] at this
  obtain ⟨n, odd, same⟩ | ⟨fits', same⟩ := this
  · exact .inl (same ▸ odd)
  · obtain ⟨code, big⟩ := toNat_of_valid (n := run.target + k) fits' (by omega) (by omega)
    right
    rw [upperChar, if_neg (by omega), apply_eq_image, code, ← same,
      image_near upperRuns (by omega) (by omega)]

/-- A character and its folded form have the same capital, unless it is one of the signs. -/
theorem upperChar_foldChar {c : Char} (usual : c ∉ signLetters) :
    upperChar (foldChar c) = upperChar c := by
  suffices keepsCapital c = true from eq_of_beq this
  obtain ⟨ascii, lone, odd⟩ := keepsCapital_direct
  simp only [List.all_eq_true, List.mem_range, Bool.and_eq_true, Bool.or_eq_true,
    List.contains_iff_mem, Bool.not_eq_true'] at ascii lone odd
  by_cases small : c.toNat < 0x80
  · exact Char.ofNat_toNat c ▸ ascii c.toNat small
  -- the lower case of a capital leads back, if the capital is not odd
  have back {u : Char} (same : upperChar c = u) (regular : u.toNat ∉ oddCapitals)
      (returns : upperChar (lowerChar u) = u) : keepsCapital c = true := by
    have noDot : u ≠ 'İ' := by
      rintro rfl
      exact regular (by decide)
    rw [keepsCapital, foldChar, same]
    simp only [noDot, if_false]
    split
    · rw [same, beq_self_eq_true]
    · rw [returns, beq_self_eq_true]
  have lowered {u : Char} (big : 0x80 ≤ u.toNat) (regular : u.toNat ∉ oddCapitals) {run : CaseRun}
      (found : lowerRuns.find? (·.covers u.toNat) = some run) : upperChar (lowerChar u) = u := by
    have covers := List.find?_some found
    obtain ⟨-, k, code, short, step⟩ := covers_iff.1 covers
    obtain ⟨-, -, isOdd | returns⟩ := upperChar_ofNat (List.mem_of_find?_eq_some found) short step
    · exact absurd (code ▸ isOdd) regular
    · rw [lowerChar, if_neg (Nat.not_lt.2 big), apply_of_found found code, returns, ← code,
        Char.ofNat_toNat]
  have capital : upperChar c = apply upperRuns c := if_neg small
  cases raised : upperRuns.find? (·.covers c.toNat) with
  | none =>
    have same : upperChar c = c := by rw [capital, apply, raised]
    cases found : lowerRuns.find? (·.covers c.toNat) with
    | none =>
      have lower : lowerChar c = c := by rw [lowerChar, if_neg small, apply, found]
      have fold : foldChar c = c := by simp only [foldChar, same, lower, ite_self]
      rw [keepsCapital, fold, beq_self_eq_true]
    | some run =>
      by_cases isOdd : c.toNat ∈ oddCapitals
      · have direct := (odd _ isOdd).1
        rw [Char.ofNat_toNat] at direct
        exact direct.resolve_left usual
      · exact back same isOdd (lowered (Nat.not_lt.1 small) isOdd found)
  | some run =>
    have covers := List.find?_some raised
    obtain ⟨-, k, code, short, step⟩ := covers_iff.1 covers
    have mem := List.mem_of_find?_eq_some raised
    rw [upperRuns, List.mem_append, List.mem_map] at mem
    obtain single | ⟨run, mem, rfl⟩ := mem
    · have direct := lone run single k (by omega)
      rwa [← code, Char.ofNat_toNat] at direct
    · simp only [inverse, Nat.add_sub_cancel_left] at code short step
      have same : upperChar c = Char.ofNat (run.first + k) :=
        capital.trans (apply_of_found raised code)
      obtain ⟨⟨valid, big⟩, ordered, -⟩ := upperChar_ofNat mem short step
      have covered : run.covers (run.first + k) = true :=
        covers_iff.2 ⟨ordered, k, rfl, short, step⟩
      by_cases isOdd : run.first + k ∈ oddCapitals
      · have direct := (odd _ isOdd).2 run mem
        rw [covered, Nat.add_sub_cancel_left, ← code, Char.ofNat_toNat] at direct
        exact direct.resolve_left (by decide)
      · rw [← valid] at covered big isOdd
        have hit : (lowerRuns.find? (·.covers (Char.ofNat (run.first + k)).toNat)).isSome = true :=
          List.find?_isSome.2 ⟨run, mem, covered⟩
        obtain ⟨run', found⟩ := Option.isSome_iff_exists.1 hit
        exact back same isOdd (lowered big isOdd found)

end PrgScript.Text

namespace PrgScript

open Step Grammar Compile Text

/-! ### Variables -/

/-- Two names are one variable: what is stored under the first is found under the second. -/
def SameVariable (v w : Text) : Prop :=
  ∀ (vars : Variables) (x : Value), (vars.set v x).get? w = some x

theorem sameVariable_iff {v w : Text} : SameVariable v w ↔ Variables.key v = Variables.key w := by
  constructor
  · intro same
    refine Decidable.byContradiction fun differ => ?_
    have found := same [] (.logical true)
    rw [Variables.get?_set_of_ne _ _ differ] at found
    cases found
  · intro same vars x
    rw [Variables.get?, ← same]
    exact Variables.get?_set_self vars x

theorem key_eq_iff {v w : Text} : Variables.key v = Variables.key w ↔
    (chars v).map upperChar = (chars w).map upperChar := by
  refine ⟨fun same => ?_, congrArg ofChars⟩
  have chars_ := congrArg chars same
  rwa [Variables.key, Variables.key, upper, upper, chars_ofChars, chars_ofChars] at chars_

/-- Names that fold alike are one variable, unless one of the signs is in them. -/
theorem key_eq_of_sameFold {v w : Text} (usual : ∀ c ∈ chars v ++ chars w, c ∉ signLetters)
    (same : sameFold v w = true) : Variables.key v = Variables.key w := by
  have capitals {cs : List Char} (usual : ∀ c ∈ cs, c ∉ signLetters) :
      (cs.map foldChar).map upperChar = cs.map upperChar := by
    rw [List.map_map]
    exact List.map_congr_left fun c mem => upperChar_foldChar (usual c mem)
  rw [List.forall_mem_append] at usual
  rw [key_eq_iff, ← capitals usual.1, ← capitals usual.2, eq_of_beq same]

/-- Names of one variable fold alike, unless the i without a dot is in them. -/
theorem sameFold_of_key_eq {v w : Text} (usual : 'ı' ∉ chars v ++ chars w)
    (same : Variables.key v = Variables.key w) : sameFold v w = true := by
  -- the fold of every other letter is a function of its capital
  have folds {cs : List Char} (usual : 'ı' ∉ cs) : cs.map foldChar =
      (cs.map upperChar).map fun u => if u = 'İ' then u else lowerChar u := by
    rw [List.map_map]
    refine List.map_congr_left fun c mem => ?_
    have other : c ≠ 'ı' := by
      rintro rfl
      exact usual mem
    rw [foldChar, if_neg other]
    rfl
  rw [List.mem_append, not_or] at usual
  rw [sameFold, folds usual.1, folds usual.2, key_eq_iff.1 same, beq_self_eq_true]

/-! ### The warnings of a script -/

/-- The lines that tokens are, each with its first token and its command. -/
inductive Grammar.Lines : List Token → List (Token × Command) → Prop
  | nil : Lines [] []
  | blank {stop : Token} {toks : List Token} {lines : List (Token × Command)}
      (ends : stop.kind.isEnd = true) (rest : Lines toks lines) : Lines (stop :: toks) lines
  | line {first : Token} {c : Command} {xs toks : List Token} {lines : List (Token × Command)}
      (line : Sentence xs first c) (rest : Lines toks lines) :
      Lines (xs ++ toks) ((first, c) :: lines)

def Command.declares : Command → List Token
  | .parameters names | .declare names => names
  | _ => []

/-- The warnings for names in a declaration that are the same variable as a name before them. -/
def repeated (names : List Token) : List Token → List Diagnostic
  | [] => []
  | tok :: toks =>
    (if names.any fun n => Variables.key n.text == Variables.key tok.text then
      [⟨.warning, .localRedeclared, tok.text ++ " is already declared", tok.span⟩]
    else []) ++ repeated (names ++ [tok]) toks

/-- The warnings for a command, given the open blocks and the names declared before it. -/
def Command.remark (blocks : List OpenConstruct) (names : List Token) : Command → List Diagnostic
  | .declare toks => repeated names toks
  | c => mismatched blocks c

def remarks (blocks : List OpenConstruct) (names : List Token) :
    List (Token × Command) → List Diagnostic
  | [] => []
  | (first, c) :: lines =>
    c.remark blocks names ++ remarks (c.blocksAfter first blocks) (names ++ c.declares) lines

/-- A context that has declared the variables of some names. -/
def Context.Knows (ctx : Context) (names : List Token) : Prop :=
  ∀ key, key ∈ ctx.declared ↔ ∃ n ∈ names, Variables.key n.text = key

namespace Context.Knows

variable {ctx : Context} {names : List Token}

theorem declare (h : ctx.Knows names) (tok : Token) :
    (ctx.declare tok.text).1 =
        !names.any (fun n => Variables.key n.text == Variables.key tok.text) ∧
      (ctx.declare tok.text).2.Knows (names ++ [tok]) := by
  have known : ctx.declared.contains (upper tok.text) =
      names.any fun n => Variables.key n.text == Variables.key tok.text := by
    rw [Bool.eq_iff_iff, List.contains_iff_mem, h]
    simp [Variables.key]
  rw [← known]
  unfold Context.declare
  dsimp only
  split
  next old =>
    refine ⟨by rw [old]; rfl, fun key => ?_⟩
    rw [h key]
    have earlier := (h _).1 (List.contains_iff_mem.1 old)
    grind [Variables.key]
  next new =>
    refine ⟨by rw [Bool.eq_false_iff.2 new]; rfl, fun key => ?_⟩
    simp only [List.mem_cons, h key, List.mem_append, List.not_mem_nil, or_false]
    grind [Variables.key]

theorem declares (h : ctx.Knows names) (toks : List Token) :
    redeclared ctx toks = repeated names toks ∧
      (toks.foldl (fun ctx tok => (ctx.declare tok.text).2) ctx).Knows (names ++ toks) := by
  induction toks generalizing ctx names with
  | nil => exact ⟨rfl, by rwa [List.append_nil]⟩
  | cons tok toks ih =>
    obtain ⟨isNew, knows⟩ := h.declare tok
    obtain ⟨warned, later⟩ := ih knows
    rw [List.append_assoc] at later
    refine ⟨?_, later⟩
    rw [redeclared, repeated]
    simp only [isNew, warned]
    cases names.any _ <;> rfl

theorem enter (h : ctx.Knows names) (first : Token) (c : Command) :
    (c.enter first ctx).Knows (names ++ c.declares) := by
  have same : ctx.Knows (names ++ []) := by rwa [List.append_nil]
  cases c with
  | parameters toks =>
    have seen :
        ({ ctx with hasParameters := true, seenStatement := true } : Context).Knows names := h
    exact (seen.declares toks).2
  | declare toks => exact (h.declares toks).2
  | beginClass name base oneLine => cases oneLine <;> exact same
  | _ => exact same

end Context.Knows

/-- Whole lines are warned about as their commands tell. -/
theorem Compile.Runs.remarks {w w' : Workbench} {toks : List Token} (runs : Runs w toks w')
    {names : List Token} (knows : w.context.Knows names) :
    ∃ lines, Lines toks lines ∧
      w'.warnings = w.warnings ++ PrgScript.remarks w.context.blocks names lines := by
  induction runs generalizing names with
  | nil w => exact ⟨[], .nil, (List.append_nil _).symm⟩
  | blank ends _ ih =>
    obtain ⟨lines, reads, warned⟩ := ih knows
    exact ⟨lines, .blank ends reads, warned⟩
  | @line w w₁ w' first stop more toks inside ends ran _ ih =>
    obtain ⟨-, c, does⟩ := statement_inv inside (.token ends) ran
    have read : (w.context.afterTokens first (first :: more)).Knows names := knows
    have later : w₁.context.Knows (names ++ c.declares) := by
      rw [does.context]
      exact read.enter first c
    have remark : mismatched w.context.blocks c ++
        c.redeclared (w.context.afterTokens first (first :: more)) =
          c.remark w.context.blocks names := by
      cases c with
      | declare toks => exact (read.declares toks).1
      | _ => exact List.append_nil _
    obtain ⟨lines, reads, warned⟩ := ih later
    refine ⟨(first, c) :: lines, ?_, ?_⟩
    · have all := Lines.line (.mk does.phrase ends) reads
      rwa [List.append_assoc] at all
    · rw [warned, does.warnings, does.blocks, remark, List.append_assoc]
      rfl

/-- Two names are the same to the end of a loop, to a declaration and to the running script, but for
six letters. The warnings of a script that compiles are those of its lines in order. An end of a
loop is warned about exactly if it names a variable that does not fold like the counter of the
innermost loop, and a name in a declaration exactly if a name declared before it is the same
variable. Names that fold alike are the same variable unless a sign letter is in them, and names of
the same variable fold alike unless the i without a dot is in them. -/
theorem warnings_about_names (file : File) (name : Text) (compiled : Compiled)
    (compiles : (compileIn file .dbase name {}).result = .ok compiled) :
    (∃ toks eof lines, TokenStream.ofFile file .dbase = ⟨toks, .eof eof⟩ ∧
      Lines (toks ++ [eof]) lines ∧
      (compileIn file .dbase name {}).warnings = remarks [] [] lines) ∧
    ∀ v w : Text, (SameVariable v w ↔ Variables.key v = Variables.key w) ∧
      ((∀ c ∈ chars v ++ chars w, c ∉ signLetters) → sameFold v w = true → SameVariable v w) ∧
      ('ı' ∉ chars v ++ chars w → SameVariable v w → sameFold v w = true) := by
  constructor
  · obtain ⟨w', ended, -⟩ := freshRun_of_compileIn compiles
    obtain ⟨toks, eof, w, scanned, runs, finished⟩ := freshRun_eq_ok_iff.1 ended
    obtain ⟨n, -, agrees⟩ := runs.agrees (.start _)
    obtain ⟨closed, -⟩ := agrees.finish_inv finished
    obtain ⟨b, done⟩ := agrees.outcome_finish closed eof
    obtain ⟨-, rfl⟩ := Prod.mk.inj (done.symm.trans finished)
    have nothing : ({} : Context).Knows [] := fun key => by simp
    obtain ⟨lines, reads, warned⟩ := runs.remarks nothing
    refine ⟨toks, eof, lines, scanned, reads, ?_⟩
    rw [compileIn_eq, show outcome _ _ = _ from ended]
    exact warned
  · intro v w
    refine ⟨sameVariable_iff, fun usual same => ?_, fun usual same => ?_⟩
    · exact sameVariable_iff.2 (key_eq_of_sameFold usual same)
    · exact sameFold_of_key_eq usual (sameVariable_iff.1 same)

/-- A counter that the end of its loop names in another case, and another one that it does not name,
a declared name that is declared again. -/
theorem warnings_about_names_in_loops :
    let file : File :=
      ⟨0, "a.prg", "FOR ñ = 1 TO 2\nNEXT Ñ\nFOR n = 1 TO 2\nNEXT m\nLOCAL m, M\n", 0⟩
    let c := compileIn file .dbase [] {}
    c.warnings.map (·.code) = [.nextVarMismatch, .localRedeclared] ∧
      (∃ toks lines, Lines toks lines ∧ c.warnings = remarks [] [] lines) ∧
        SameVariable "ñ" "Ñ" := by
  intro file c
  have ok : c.result.isOk = true := by decide +kernel
  cases ended : c.result with
  | error e =>
    rw [ended] at ok
    cases ok
  | ok compiled =>
    obtain ⟨⟨toks, eof, lines, -, reads, warned⟩, names⟩ :=
      warnings_about_names file [] compiled ended
    have letters : chars "ñ" ++ chars "Ñ" = ['ñ', 'Ñ'] := by decide +kernel
    refine ⟨by decide +kernel, ⟨toks ++ [eof], lines, reads, warned⟩, (names "ñ" "Ñ").2.1 ?_ ?_⟩
    · rw [letters]
      simp [signLetters]
    · decide +kernel

/-- Where the notions of the same name differ: the i without a dot is the variable of the other i,
and the end of its loop is warned about. The theta symbol is not the variable of theta, and nobody
is warned. -/
theorem names_of_loops_differ_from_variables :
    let warnings (src : Text) := (compileIn ⟨0, "a.prg", src, 0⟩ .dbase [] {}).warnings.map (·.code)
    (warnings "FOR ı = 1 TO 2\nNEXT i\n" = [.nextVarMismatch] ∧
      Variables.key "ı" = Variables.key "i") ∧
    warnings "FOR θ = 1 TO 2\nNEXT ϴ\n" = [] ∧ Variables.key "θ" ≠ Variables.key "ϴ" := by
  decide +kernel

end PrgScript
