import PrgScript.Source.Path

/-!
# Shortest paths

The shortest form of a path is made of its components: some steps up, and then names.
`ofParts` writes components as a path, and the components of what it writes are the same
again, so a shortest path stays as it is. Joining a name to a path adds it to the
components, and the directory of a path has all of them but the last.
-/

namespace PrgScript

namespace Text

variable {s : UInt8} {t : Text}

theorem splitOn_ne_nil (t : Text) : splitOn s t ≠ [] := by
  cases t with
  | nil => simp [splitOn]
  | cons b t =>
      rw [splitOn]
      split
      · simp
      · split <;> simp

theorem splitOn_cons_separator (t : Text) : splitOn s (s :: t) = [] :: splitOn s t := by
  rw [splitOn]
  split
  next none => exact absurd none (splitOn_ne_nil t)
  next piece pieces some => rw [if_pos rfl, some]

theorem splitOn_cons_of_ne {b : UInt8} (h : b ≠ s) {piece : Text} {pieces : List Text}
    (rest : splitOn s t = piece :: pieces) : splitOn s (b :: t) = (b :: piece) :: pieces := by
  rw [splitOn, rest]
  simp [h]

theorem splitOn_append (a b : Text) : splitOn s (a ++ s :: b) = splitOn s a ++ splitOn s b := by
  induction a with
  | nil => exact splitOn_cons_separator b
  | cons c a ih =>
      by_cases same : c = s
      · subst same
        rw [List.cons_append, splitOn_cons_separator, splitOn_cons_separator, ih, List.cons_append]
      · obtain ⟨piece, pieces, some⟩ := List.exists_cons_of_ne_nil (@splitOn_ne_nil s a)
        rw [some, List.cons_append] at ih
        rw [List.cons_append, splitOn_cons_of_ne same ih, splitOn_cons_of_ne same some,
          List.cons_append]

theorem splitOn_of_not_mem (h : s ∉ t) : splitOn s t = [t] := by
  induction t with
  | nil => rfl
  | cons b t ih =>
      rw [List.mem_cons, not_or] at h
      exact splitOn_cons_of_ne (Ne.symm h.1) (ih h.2)

theorem not_mem_of_mem_splitOn {piece : Text} (h : piece ∈ splitOn s t) : s ∉ piece := by
  induction t generalizing piece with
  | nil =>
      obtain rfl : piece = [] := by simpa [splitOn] using h
      exact List.not_mem_nil
  | cons b t ih =>
      obtain ⟨first, pieces, some⟩ := List.exists_cons_of_ne_nil (@splitOn_ne_nil s t)
      rw [some] at ih
      by_cases same : b = s
      · subst same
        rw [splitOn_cons_separator, some] at h
        rcases List.mem_cons.1 h with rfl | h
        · exact List.not_mem_nil
        · exact ih h
      · rw [splitOn_cons_of_ne same some] at h
        rcases List.mem_cons.1 h with rfl | h
        · rw [List.mem_cons, not_or]
          exact ⟨Ne.symm same, ih (by simp)⟩
        · exact ih (by simp [h])

theorem join_append (parts : List Text) (last : Text) :
    join [s] (parts ++ [last]) = parts.flatMap (· ++ [s]) ++ last := by
  induction parts with
  | nil => rfl
  | cons part parts ih =>
      obtain ⟨head, tail, some⟩ := List.exists_cons_of_ne_nil
        (List.append_ne_nil_of_right_ne_nil parts (List.cons_ne_nil last []))
      rw [List.cons_append, some, join, ← some, ih, List.flatMap_cons, List.append_assoc,
        List.append_assoc, List.append_assoc]
      simp

theorem splitOn_join {parts : List Text} (nonempty : parts ≠ [])
    (plain : ∀ part ∈ parts, s ∉ part) :
    splitOn s (join [s] parts) = parts := by
  induction parts with
  | nil => exact absurd rfl nonempty
  | cons part parts ih =>
      have single := splitOn_of_not_mem (plain part (by simp))
      cases parts with
      | nil => exact single
      | cons part' parts =>
          have rest := ih (List.cons_ne_nil part' parts) fun part mem => plain part (by simp [mem])
          rw [join, List.append_assoc, List.singleton_append, splitOn_append, single, rest]
          · rfl
          · simp

theorem join_splitOn (t : Text) : join [s] (splitOn s t) = t := by
  induction t with
  | nil => rfl
  | cons b t ih =>
      obtain ⟨piece, pieces, some⟩ := List.exists_cons_of_ne_nil (@splitOn_ne_nil s t)
      by_cases same : b = s
      · subst same
        rw [splitOn_cons_separator, some, join, ← some, ih]
        · rfl
        · simp
      · rw [splitOn_cons_of_ne same some]
        rw [some] at ih
        cases pieces with
        | nil => simpa [join] using ih
        | cons piece' pieces =>
            rw [← ih]
            rfl

end Text

namespace Path

/-- A name leads from a directory to something in it. -/
structure IsName (name : Text) : Prop where
  nonempty : name ≠ []
  notDot : name ≠ "."
  notUp : name ≠ ".."
  plain : separator ∉ name

/-- Components of a shortest path, the last one first: names, and before them some steps up, none of
them at the root. -/
inductive Shortest (rooted : Bool) : List Text → Prop
  | ups (n : Nat) (atRoot : rooted = true → n = 0) : Shortest rooted (List.replicate n "..")
  | name {before : List Text} {name : Text} (isName : IsName name)
      (rest : Shortest rooted before) : Shortest rooted (name :: before)

variable {rooted : Bool} {before : List Text} {name : Text}

theorem IsName.step (h : IsName name) : step rooted before name = name :: before := by
  simp [Path.step, h.nonempty, h.notDot, h.notUp]

theorem IsName.step_up (h : IsName name) : Path.step rooted (name :: before) ".." = before := by
  rw [Path.step, if_neg (by decide), if_pos rfl]
  simp [h.notUp]

theorem step_of_skipped {part : Text} (h : part = [] ∨ part = ".") :
    step rooted before part = before := by
  simp [Path.step, h]

theorem step_up_replicate (n : Nat) (atRoot : rooted = true → n = 0) :
    step rooted (List.replicate n "..") ".." =
      List.replicate (if rooted then 0 else n + 1) (".." : Text) := by
  have up : ¬((".." : Text) = [] ∨ (".." : Text) = ".") := by decide
  cases n with
  | zero => cases rooted <;> simp [step, up, List.replicate]
  | succ n =>
      cases rooted with
      | true => exact absurd (atRoot rfl) (Nat.succ_ne_zero n)
      | false => simp [step, up, List.replicate_succ]

theorem Shortest.step (h : Shortest rooted before) {part : Text} (plain : separator ∉ part) :
    Shortest rooted (step rooted before part) := by
  by_cases dot : part = [] ∨ part = "."
  · rw [step_of_skipped dot]
    exact h
  by_cases up : part = ".."
  · subst up
    cases h with
    | ups n atRoot =>
        rw [step_up_replicate n atRoot]
        exact .ups _ fun isRooted => by simp [isRooted]
    | name isName rest =>
        rw [isName.step_up]
        exact rest
  · have isName : IsName part :=
      ⟨fun h => dot (.inl h), fun h => dot (.inr h), up, plain⟩
    rw [isName.step]
    exact .name isName h

theorem Shortest.foldl (h : Shortest rooted before) {parts : List Text}
    (plain : ∀ part ∈ parts, separator ∉ part) :
    Shortest rooted (parts.foldl (Path.step rooted) before) := by
  induction parts generalizing before with
  | nil => exact h
  | cons part parts ih =>
      exact ih (h.step (plain part (by simp))) fun part mem => plain part (by simp [mem])

theorem shortest_components (path : Text) :
    Shortest (isAbsolute path) (components path).reverse := by
  rw [components, List.reverse_reverse]
  exact (Shortest.ups 0 fun _ => rfl).foldl fun _ => Text.not_mem_of_mem_splitOn

/-- The components of a shortest path are its own. -/
theorem Shortest.foldl_reverse (h : Shortest rooted before) :
    before.reverse.foldl (Path.step rooted) [] = before := by
  induction h with
  | ups n atRoot =>
      rw [List.reverse_replicate]
      induction n with
      | zero => rfl
      | succ n ih =>
          have relative : rooted = false := by
            cases rooted with
            | true => exact absurd (atRoot rfl) (Nat.succ_ne_zero n)
            | false => rfl
          subst relative
          have small (isRooted : false = true) : n = 0 := by cases isRooted
          rw [List.replicate_succ', List.foldl_append, ih small, ← List.replicate_succ']
          exact step_up_replicate n small
  | name isName _ ih =>
      rw [List.reverse_cons, List.foldl_append, ih, List.foldl_cons, isName.step]; rfl

theorem Shortest.plain (h : Shortest rooted before) {part : Text} (mem : part ∈ before) :
    separator ∉ part := by
  induction h with
  | ups n =>
      obtain rfl := List.eq_of_mem_replicate mem
      decide
  | name isName _ ih =>
      rcases List.mem_cons.1 mem with rfl | mem
      · exact isName.plain
      · exact ih mem

theorem Shortest.nonempty (h : Shortest rooted before) {part : Text} (mem : part ∈ before) :
    part ≠ [] := by
  induction h with
  | ups n =>
      obtain rfl := List.eq_of_mem_replicate mem
      decide
  | name isName _ ih =>
      rcases List.mem_cons.1 mem with rfl | mem
      · exact isName.nonempty
      · exact ih mem

/-! ### Writing components -/

def ofParts (rooted : Bool) (parts : List Text) : Text :=
  let body := Text.join [separator] parts
  if rooted then separator :: body else if body = [] then "." else body

theorem clean_eq (path : Text) : clean path = ofParts (isAbsolute path) (components path) := rfl

/-- What stands before the last component of a path. -/
def front (rooted : Bool) (parts : List Text) : Text :=
  (if rooted then [separator] else []) ++ parts.flatMap (· ++ [separator])

theorem ofParts_append (rooted : Bool) (parts : List Text) (nonempty : name ≠ []) :
    ofParts rooted (parts ++ [name]) = front rooted parts ++ name := by
  unfold ofParts front
  rw [Text.join_append]
  cases rooted <;> simp [nonempty]

/-- The front of a path is empty or ends with a slash. -/
theorem front_cases (rooted : Bool) (parts : List Text) :
    front rooted parts = [] ∨ ∃ path, front rooted parts = path ++ [separator] := by
  rcases List.eq_nil_or_concat parts with rfl | ⟨parts, part, rfl⟩
  · cases rooted with
    | true => exact .inr ⟨[], rfl⟩
    | false => exact .inl rfl
  · refine
      .inr ⟨(if rooted then [separator] else []) ++ parts.flatMap (· ++ [separator]) ++ part, ?_⟩
    simp [front]

theorem join_eq_nil_iff {parts : List Text} (nonempty : ∀ part ∈ parts, part ≠ []) :
    Text.join [separator] parts = [] ↔ parts = [] := by
  constructor
  · intro h
    cases parts with
    | nil => rfl
    | cons part parts =>
        cases parts with
        | nil => exact absurd h (nonempty part (by simp))
        | cons => simp [Text.join] at h
  · rintro rfl
    rfl

namespace Shortest

theorem ofParts_false (h : Shortest false before) (nonempty : before ≠ []) :
    ofParts false before.reverse = Text.join [separator] before.reverse := by
  have body : Text.join [separator] before.reverse ≠ [] := by
    rw [Ne, join_eq_nil_iff fun part mem => h.nonempty (List.mem_reverse.1 mem)]
    simpa using nonempty
  simp [ofParts, body]

/-- The pieces of a path between slashes. -/
theorem splitOn_ofParts (h : Shortest rooted before) :
    Text.splitOn separator (ofParts rooted before.reverse) =
      if rooted then [] :: if before = [] then [[]] else before.reverse
      else if before = [] then ["."] else before.reverse := by
  have plain : ∀ part ∈ before.reverse, separator ∉ part :=
    fun part mem => h.plain (List.mem_reverse.1 mem)
  by_cases none : before = []
  · subst none
    cases rooted <;> decide
  · have pieces : Text.splitOn separator (Text.join [separator] before.reverse) = before.reverse :=
      Text.splitOn_join (by simpa using none) plain
    cases rooted with
    | true => simp [ofParts, Text.splitOn_cons_separator, pieces, none]
    | false => simp [h.ofParts_false none, pieces, none]

theorem isAbsolute_ofParts (h : Shortest rooted before) :
    isAbsolute (ofParts rooted before.reverse) = rooted := by
  cases rooted with
  | true => simp [ofParts, isAbsolute]
  | false =>
      by_cases none : before = []
      · subst none
        decide
      · -- A text that starts with a slash has an empty first piece, and there is none here.
        cases text : ofParts false before.reverse with
        | nil => rfl
        | cons b t =>
            have pieces := h.splitOn_ofParts
            rw [text] at pieces
            by_cases same : b = separator
            · subst same
              rw [Text.splitOn_cons_separator] at pieces
              have empty : [] ∈ before.reverse := by
                simp only [Bool.false_eq_true, if_false, none] at pieces
                rw [← pieces]
                exact List.mem_cons_self
              exact absurd rfl (h.nonempty (List.mem_reverse.1 empty))
            · simp [isAbsolute, same]

theorem components_ofParts (h : Shortest rooted before) :
    components (ofParts rooted before.reverse) = before.reverse := by
  have again := h.foldl_reverse
  rw [components, h.isAbsolute_ofParts, h.splitOn_ofParts]
  by_cases none : before = []
  · subst none
    cases rooted <;> decide
  · cases rooted with
    | true => simpa [none, Path.step] using again
    | false => simpa [none] using again

theorem clean_ofParts (h : Shortest rooted before) :
    clean (ofParts rooted before.reverse) = ofParts rooted before.reverse := by
  rw [clean_eq, h.isAbsolute_ofParts, h.components_ofParts]

end Shortest

theorem isAbsolute_clean (path : Text) : isAbsolute (clean path) = isAbsolute path := by
  have h := (shortest_components path).isAbsolute_ofParts
  rwa [List.reverse_reverse, ← clean_eq] at h

/-! ### Directories and names -/

variable {path : Text}

theorem components_of_splitOn {init : List Text} (isName : IsName name)
    (pieces : Text.splitOn separator path = init ++ [name]) :
    components path = (init.foldl (step (isAbsolute path)) []).reverse ++ [name] := by
  rw [components, pieces, List.foldl_append, List.foldl_cons, isName.step, List.foldl_nil,
    List.reverse_cons]

theorem isAbsolute_append (nonempty : path ≠ []) (rest : Text) :
    isAbsolute (path ++ rest) = isAbsolute path := by
  obtain ⟨b, t, rfl⟩ := List.exists_cons_of_ne_nil nonempty
  rfl

theorem IsName.not_isAbsolute (h : IsName name) : isAbsolute name = false := by
  obtain ⟨b, t, rfl⟩ := List.exists_cons_of_ne_nil h.nonempty
  have other : b ≠ separator := fun same => h.plain (by simp [same])
  simp [isAbsolute, other]

/-- Joining a name to a path adds it to the components. -/
theorem join_name (path : Text) (h : IsName name) :
    join [path, name] = ofParts (isAbsolute path) (components path ++ [name]) := by
  have single := Text.splitOn_of_not_mem h.plain
  cases path with
  | nil =>
      have joined : join [[], name] = clean name := by
        simp [join, h.nonempty, Text.join]
      rw [joined, clean_eq, h.not_isAbsolute, @components_of_splitOn name name [] h single]
      rfl
  | cons b t =>
      have joined : join [b :: t, name] = clean (b :: t ++ separator :: name) := by
        simp [join, Text.join]
      have pieces : Text.splitOn separator (b :: t ++ separator :: name) =
          Text.splitOn separator (b :: t) ++ [name] := by
        rw [Text.splitOn_append, single]
      rw [joined, clean_eq, components_of_splitOn h pieces,
        isAbsolute_append (List.cons_ne_nil b t)]
      rfl

theorem clean_append_separator (nonempty : path ≠ []) :
    clean (path ++ [separator]) = clean path := by
  have same : components (path ++ [separator]) = components path := by
    rw [components, Text.splitOn_append, List.foldl_append, isAbsolute_append nonempty]
    rfl
  rw [clean_eq, same, isAbsolute_append nonempty, ← clean_eq]

theorem Shortest.ofParts_ne_nil (h : Shortest rooted before) :
    ofParts rooted before.reverse ≠ [] := by
  cases before with
  | nil => cases rooted <;> decide
  | cons last before =>
      have nonempty : last ≠ [] := h.nonempty (by simp)
      rw [List.reverse_cons, ofParts_append _ _ nonempty]
      exact List.append_ne_nil_of_right_ne_nil _ nonempty

theorem Shortest.front_eq (h : Shortest rooted before) (nonempty : before ≠ []) :
    front rooted before.reverse = ofParts rooted before.reverse ++ [separator] := by
  cases before with
  | nil => exact absurd rfl nonempty
  | cons last before =>
      have nonempty : last ≠ [] := h.nonempty (by simp)
      rw [List.reverse_cons, ofParts_append _ _ nonempty]
      simp [front]

theorem Shortest.clean_front (h : Shortest rooted before) :
    clean (front rooted before.reverse) = ofParts rooted before.reverse := by
  by_cases none : before = []
  · subst none
    cases rooted <;> decide
  · rw [h.front_eq none, clean_append_separator h.ofParts_ne_nil, h.clean_ofParts]

theorem dropWhile_reverse_name (plain : separator ∉ name) (path : Text) :
    (path ++ name).reverse.dropWhile (· != separator) =
      path.reverse.dropWhile (· != separator) := by
  rw [List.reverse_append, List.dropWhile_append_of_pos]
  intro b mem
  have other : b ≠ separator := fun same => plain (same ▸ List.mem_reverse.1 mem)
  simpa using other

/-- The directory of a path has all its components but the last. -/
theorem Shortest.directory (h : Shortest rooted before) (isName : IsName name) :
    directory (ofParts rooted (before.reverse ++ [name])) = ofParts rooted before.reverse := by
  rw [Path.directory, ofParts_append _ _ isName.nonempty, dropWhile_reverse_name isName.plain]
  have kept : ((front rooted before.reverse).reverse.dropWhile (· != separator)).reverse =
      front rooted before.reverse := by
    rcases front_cases rooted before.reverse with none | ⟨path, ends⟩
    · rw [none]
      rfl
    · rw [ends]
      simp
  rw [kept, h.clean_front]

/-- The last component of a path that ends with a name. -/
theorem base_append (isName : IsName name)
    (ends : path = [] ∨ ∃ path', path = path' ++ [separator]) : base (path ++ name) = name := by
  have nonempty : path ++ name ≠ [] := List.append_ne_nil_of_right_ne_nil _ isName.nonempty
  have trimmed : trimSlashes (path ++ name) = path ++ name := by
    obtain ⟨b, t, whole⟩ := List.exists_cons_of_ne_nil (List.reverse_ne_nil_iff.2 isName.nonempty)
    have other : b ≠ separator := by
      rintro rfl
      exact isName.plain (List.mem_reverse.1 (by rw [whole]; simp))
    rw [trimSlashes, List.reverse_append, whole, List.cons_append,
      List.dropWhile_cons_of_neg (by simpa using other), ← List.cons_append, ← whole,
      ← List.reverse_append, List.reverse_reverse]
  have taken : (path ++ name).reverse.takeWhile (· != separator) = name.reverse := by
    rw [List.reverse_append, List.takeWhile_append_of_pos]
    · rcases ends with rfl | ⟨path', rfl⟩ <;> simp
    · intro b mem
      have other : b ≠ separator := fun same => isName.plain (same ▸ List.mem_reverse.1 mem)
      simpa using other
  rw [base, if_neg nonempty, trimmed]
  dsimp only
  rw [if_neg nonempty, taken, List.reverse_reverse]

theorem base_of_splitOn {init : List Text} (isName : IsName name)
    (pieces : Text.splitOn separator path = init ++ [name]) : base path = name := by
  have written : path = front false init ++ name := by
    have joined := @Text.join_splitOn separator path
    rw [pieces, Text.join_append] at joined
    exact joined.symm
  rw [written]
  exact base_append isName (front_cases _ _)

/-- The shortest form of a path that ends with a name has the same stem. -/
theorem stem_clean {init : List Text} (isName : IsName name)
    (pieces : Text.splitOn separator path = init ++ [name]) : stem (clean path) = stem path := by
  have shortest : base (clean path) = name := by
    rw [clean_eq, components_of_splitOn isName pieces, ofParts_append _ _ isName.nonempty]
    exact base_append isName (front_cases _ _)
  rw [stem, stem, shortest, base_of_splitOn isName pieces]

/-- The stem of a path holds no slash, unless the path is made of nothing else. -/
theorem separator_not_mem_stem (h : path = [] ∨ trimSlashes path ≠ []) : separator ∉ stem path := by
  have plain : separator ∉ base path := by
    unfold base
    split
    · decide
    · dsimp only
      rw [if_neg (h.resolve_left ‹_›), List.mem_reverse]
      intro mem
      simpa using List.all_eq_true.1 List.all_takeWhile _ mem
  unfold stem Text.dropEnding
  dsimp only
  split
  · exact fun mem => plain (List.mem_of_mem_take mem)
  · exact plain

end Path

end PrgScript
