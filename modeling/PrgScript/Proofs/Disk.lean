import PrgScript.Files.Disk
import PrgScript.Proofs.Bytes
import PrgScript.Proofs.Paths

/-!
# What stands where on a disk

The operations on a disk are told apart by what stands at each place after them. A disk
is well formed if whatever stands somewhere stands in a directory; every operation keeps
it so. Where a path leads depends on its wording and the working directory alone, as long
as it leads anywhere: `placeOf` is that place, and the shortest form of a path has the
same one.
-/

namespace PrgScript

theorem lookup_filter {α β : Type} [BEq α] [LawfulBEq α] (f : α → Bool) (entries : List (α × β))
    (key : α) :
    (entries.filter fun entry => f entry.1).lookup key =
      if f key then entries.lookup key else none := by
  induction entries with
  | nil => simp
  | cons entry entries ih =>
      obtain ⟨key', value⟩ := entry
      by_cases same : key = key'
      · subst same
        cases kept : f key <;> simp [kept, ih]
      · have other : (key == key') = false := beq_false_of_ne same
        cases kept : f key' <;> simp [kept, List.lookup_cons, other, ih]

theorem isPrefixOf_eq_false {α : Type} [BEq α] [LawfulBEq α] {as bs : List α} (h : ¬as <+: bs) :
    as.isPrefixOf bs = false := by
  rw [Bool.eq_false_iff]
  intro isPrefix
  exact h (List.isPrefixOf_iff_prefix.1 isPrefix)

namespace Disk

variable {disk disk' : Disk} {place p q : Place} {node : Node}

/-! ### Places -/

@[simp] theorem get?_nil (disk : Disk) : disk.get? [] = some .directory := if_pos rfl

theorem get?_of_ne (nonempty : p ≠ []) : disk.get? p = disk.nodes.lookup p := if_neg nonempty

theorem get?_insert (nonempty : place ≠ []) :
    (disk.insert place node).get? p = if p = place then some node else disk.get? p := by
  by_cases root : p = []
  · subst root
    simp [Ne.symm nonempty]
  · rw [get?_of_ne root, get?_of_ne root, insert, List.lookup_cons,
      lookup_filter fun p => p != place]
    by_cases same : p = place
    · simp [same]
    · simp [same, beq_false_of_ne same]

theorem get?_eraseBelow (nonempty : p ≠ []) :
    (disk.eraseBelow place).get? p = if place <+: p then none else disk.get? p := by
  rw [get?_of_ne nonempty, get?_of_ne nonempty, eraseBelow,
    lookup_filter fun p => !place.isPrefixOf p]
  by_cases below : place <+: p
  · simp [below, List.isPrefixOf_iff_prefix.2 below]
  · simp [below, isPrefixOf_eq_false below]

/-- What a move brings to a place. -/
theorem lookup_moved {α : Type} (old new : Place) (nodes : List (Place × α)) (place : Place) :
    (nodes.filterMap fun (p, node) =>
        (if old.isPrefixOf p then some (new ++ p.drop old.length) else none).map
          (·, node)).lookup place =
      if new <+: place then nodes.lookup (old ++ place.drop new.length) else none := by
  induction nodes with
  | nil => simp
  | cons entry nodes ih =>
      obtain ⟨p, node⟩ := entry
      by_cases moves : old <+: p
      · obtain ⟨rest, rfl⟩ := moves
        simp only [List.filterMap_cons, List.isPrefixOf_iff_prefix.2 (List.prefix_append old rest),
          if_true, Option.map_some, List.drop_left, List.lookup_cons, ih]
        by_cases arrives : new <+: place
        · obtain ⟨rest', rfl⟩ := arrives
          have same : (new ++ rest' == new ++ rest) = (old ++ rest' == old ++ rest) := by
            rw [Bool.eq_iff_iff, beq_iff_eq, beq_iff_eq, List.append_cancel_left_eq,
              List.append_cancel_left_eq]
          simp only [List.prefix_append, if_true, List.drop_left, same]
        · have other : (place == new ++ rest) = false := by
            rw [beq_eq_false_iff_ne]
            rintro rfl
            exact arrives (List.prefix_append new rest)
          simp [other, arrives]
      · have other : (old ++ place.drop new.length == p) = false := by
          rw [beq_eq_false_iff_ne]
          rintro rfl
          exact moves (List.prefix_append _ _)
        simp only [List.filterMap_cons, isPrefixOf_eq_false moves, Bool.false_eq_true, if_false,
          Option.map_none, ih, List.lookup_cons, other]

/-! ### Well-formed disks -/

/-- Whatever stands somewhere stands in a directory. -/
def WellFormed (disk : Disk) : Prop :=
  ∀ place node, place ≠ [] → disk.get? place = some node →
    disk.get? place.dropLast = some .directory

theorem wellFormed_empty : ({} : Disk).WellFormed := by
  intro place node notRoot found
  rw [get?_of_ne notRoot] at found
  cases found

namespace WellFormed

/-- Everything above a place where something stands is a directory. -/
theorem above {q : Place} {node : Node} (wf : disk.WellFormed) (found : disk.get? q = some node)
    (below : p <+: q) (other : p ≠ q) : disk.get? p = some .directory := by
  have notRoot : q ≠ [] := by
    rintro rfl
    exact other (List.prefix_nil.1 below)
  have parent := wf q node notRoot found
  have below : p <+: q.dropLast := by
    rw [← List.dropLast_concat_getLast notRoot, List.prefix_concat_iff] at below
    apply below.resolve_left
    rw [List.dropLast_concat_getLast notRoot]
    exact other
  by_cases same : p = q.dropLast
  · rw [same]
    exact parent
  · exact above wf parent below same
termination_by q.length
decreasing_by
  rw [List.length_dropLast]
  exact Nat.sub_lt (List.length_pos_iff.2 notRoot) Nat.one_pos

/-- Below a place that is no directory there is nothing. -/
theorem nothing_below (wf : disk.WellFormed) (free : disk.get? p ≠ some .directory)
    (below : p <+: q) (other : p ≠ q) : disk.get? q = none := by
  cases found : disk.get? q with
  | none => rfl
  | some node => exact absurd (wf.above found below other) free

theorem insert (wf : disk.WellFormed) (nonempty : place ≠ [])
    (parent : disk.get? place.dropLast = some .directory)
    (fresh : node = .directory ∨ disk.get? place ≠ some .directory) :
    (disk.insert place node).WellFormed := by
  intro p node' notRoot found
  rw [get?_insert nonempty] at found ⊢
  by_cases same : p = place
  · subst same
    have shorter : p.dropLast ≠ p := by
      intro same
      have length := congrArg List.length same
      rw [List.length_dropLast] at length
      have positive := List.length_pos_iff.2 notRoot
      omega
    rw [if_neg shorter]
    exact parent
  · rw [if_neg same] at found
    have above := wf p node' notRoot found
    by_cases inside : p.dropLast = place
    · rw [if_pos inside]
      rw [inside] at above
      cases fresh with
      | inl isDirectory => rw [isDirectory]
      | inr free => exact absurd above free
    · rw [if_neg inside]
      exact above

theorem eraseBelow (wf : disk.WellFormed) (place : Place) : (disk.eraseBelow place).WellFormed := by
  intro p node notRoot found
  rw [get?_eraseBelow notRoot] at found
  split at found
  next => cases found
  next stays =>
    have above := wf p node notRoot found
    by_cases root : p.dropLast = []
    · rw [root, get?_nil]
    · rw [get?_eraseBelow root, if_neg]
      · exact above
      · intro below
        exact stays (below.trans (List.dropLast_prefix p))

end WellFormed

/-- What stands where after a move to a place where there is no directory. -/
theorem get?_move {old new : Place} (wf : disk.WellFormed) (notRoot : old ≠ [])
    (free : disk.get? new ≠ some .directory) (nonempty : p ≠ []) :
    (disk.move old new).get? p =
      if new <+: p then disk.get? (old ++ p.drop new.length)
      else if old <+: p then none else disk.get? p := by
  have kept : ((disk.eraseBelow old).nodes.filter (·.1 != new)).lookup p =
      if p = new ∨ old <+: p then none else disk.get? p := by
    rw [lookup_filter fun p => p != new, ← get?_of_ne nonempty, get?_eraseBelow nonempty]
    by_cases same : p = new
    · simp [same]
    · by_cases below : old <+: p <;> simp [same, below]
  rw [get?_of_ne nonempty, move, List.lookup_append, lookup_moved, kept]
  by_cases arrives : new <+: p
  · have source : old ++ p.drop new.length ≠ [] := List.append_ne_nil_of_left_ne_nil notRoot _
    have nothing : (if p = new ∨ old <+: p then none else disk.get? p) = none := by
      by_cases same : p = new
      · simp [same]
      · simp [wf.nothing_below free arrives (Ne.symm same)]
    rw [if_pos arrives, if_pos arrives, nothing, Option.or_none, get?_of_ne source]
  · have other : p ≠ new := by
      rintro rfl
      exact arrives List.prefix_rfl
    simp [arrives, other]

theorem WellFormed.move {old new : Place} (wf : disk.WellFormed) (notRoot : old ≠ [])
    (free : disk.get? new ≠ some .directory)
    (parent : disk.get? new.dropLast = some .directory) (apart : ¬old <+: new.dropLast) :
    (disk.move old new).WellFormed := by
  have nonempty : new ≠ [] := by
    rintro rfl
    exact free (get?_nil disk)
  intro p node root found
  rw [get?_move wf notRoot free root] at found
  by_cases parentRoot : p.dropLast = []
  · rw [parentRoot, get?_nil]
  rw [get?_move wf notRoot free parentRoot]
  split at found
  next arrives =>
    obtain ⟨rest, rfl⟩ := arrives
    rw [List.drop_left] at found
    by_cases top : rest = []
    · -- The place moved to: its directory was there before and has not moved.
      subst top
      rw [List.append_nil] at parentRoot ⊢
      have above : ¬new <+: new.dropLast := by
        intro below
        have length := below.length_le
        rw [List.length_dropLast] at length
        have positive := List.length_pos_iff.2 nonempty
        omega
      rw [if_neg above, if_neg apart]
      exact parent
    · rw [List.dropLast_append_of_ne_nil top, if_pos (List.prefix_append new _), List.drop_left,
        ← List.dropLast_append_of_ne_nil top]
      exact wf _ _ (List.append_ne_nil_of_left_ne_nil notRoot rest) found
  next stays =>
    split at found
    next => cases found
    next kept =>
      have above := wf p node root found
      have outside : ¬new <+: p.dropLast := by
        intro below
        exact stays (below.trans (List.dropLast_prefix p))
      rw [if_neg outside, if_neg]
      · exact above
      · intro below
        exact kept (below.trans (List.dropLast_prefix p))

/-! ### Following paths -/

/-- Where a name leads from a directory. -/
def enter (place : Place) (name : Text) : Place :=
  if name = [] ∨ name = "." then place else if name = ".." then place.dropLast else place ++ [name]

/-- Where names lead from a place, if they lead anywhere. -/
def along (place : Place) (names : List Text) : Place := names.foldl enter place

def startOf (disk : Disk) (path : Text) : Place :=
  if Path.isAbsolute path then [] else disk.workingDirectory

/-- Where a path leads, if it leads anywhere. -/
def placeOf (disk : Disk) (path : Text) : Place :=
  along (disk.startOf path) (Text.splitOn Path.separator path)

section Walk

variable {name : Text} {names : List Text}

theorem enter_name (h : Path.IsName name) : enter place name = place ++ [name] := by
  simp [enter, h.nonempty, h.notDot, h.notUp]

theorem along_append (place : Place) (names names' : List Text) :
    along place (names ++ names') = along (along place names) names' :=
  List.foldl_append

theorem along_name (place : Place) (names : List Text) (h : Path.IsName name) :
    along place (names ++ [name]) = along place names ++ [name] := by
  rw [along_append]
  exact enter_name h

theorem enter_up (place : Place) : enter place ".." = place.dropLast := by
  rw [enter, if_neg (by decide), if_pos rfl]

theorem directory_of_walk (h : disk.walk place (name :: names) = .ok q) :
    disk.get? place = some .directory := by
  rw [walk] at h
  split at h
  · cases h
  · cases h
  · assumption

/-- From a directory a name is followed unless it is too long. -/
theorem walk_of_directory (isDirectory : disk.get? place = some .directory) (name : Text)
    (names : List Text) :
    disk.walk place (name :: names) =
      if longestName < name.length then .error .nameTooLong
      else disk.walk (enter place name) names := by
  rw [walk, isDirectory, enter]
  by_cases dot : name = [] ∨ name = "."
  · have short : ¬longestName < name.length := by
      cases dot with
      | inl h => rw [h]; decide
      | inr h => rw [h]; decide
    simp only [dot, if_true, short, if_false]
  · by_cases up : name = ".."
    · have short : ¬longestName < name.length := by
        rw [up]
        decide
      simp only [short, if_false]
      rw [if_neg dot, if_pos up, if_neg dot, if_pos up]
    · simp only [dot, up, if_false]

theorem walk_tail (h : disk.walk place (name :: names) = .ok q) :
    disk.walk (enter place name) names = .ok q := by
  rw [walk_of_directory (directory_of_walk h)] at h
  split at h
  · cases h
  · exact h

theorem walk_append (place : Place) (names names' : List Text) :
    disk.walk place (names ++ names') =
      match disk.walk place names with
      | .ok q => disk.walk q names'
      | .error fault => .error fault := by
  induction names generalizing place with
  | nil => rfl
  | cons name names ih =>
      rw [List.cons_append, walk, walk]
      split
      · rfl
      · rfl
      · split
        · exact ih place
        · split
          · exact ih _
          · split
            · rfl
            · exact ih _

theorem walk_eq_along (h : disk.walk place names = .ok q) : q = along place names := by
  induction names generalizing place with
  | nil =>
      cases h
      rfl
  | cons name names ih => exact ih (walk_tail h)

/-- What can be followed stays so as long as the directories do. -/
theorem walk_mono (stay : ∀ p, disk.get? p = some .directory → disk'.get? p = some .directory)
    (h : disk.walk place names = .ok q) : disk'.walk place names = .ok q := by
  induction names generalizing place with
  | nil => exact h
  | cons name names ih =>
      have isDirectory := directory_of_walk h
      rw [walk_of_directory isDirectory] at h
      rw [walk_of_directory (stay place isDirectory)]
      split at h
      · cases h
      next short =>
        rw [if_neg short]
        exact ih h

theorem WellFormed.up (wf : disk.WellFormed) (isDirectory : disk.get? p = some .directory) :
    disk.get? p.dropLast = some .directory := by
  by_cases root : p = []
  · rw [root]
    exact get?_nil disk
  · exact wf p _ root isDirectory

/-- A path leads to a place in a directory. -/
theorem WellFormed.parent_of_walk (wf : disk.WellFormed)
    (h : disk.walk place (name :: names) = .ok q) : disk.get? q.dropLast = some .directory := by
  have entered : ∀ {p : Place} (name : Text), disk.get? p = some .directory →
      disk.get? (enter p name).dropLast = some .directory := by
    intro p name isDirectory
    rw [enter]
    split
    · exact wf.up isDirectory
    · split
      · exact wf.up (wf.up isDirectory)
      · rw [List.dropLast_concat]
        exact isDirectory
  induction names generalizing place name with
  | nil =>
      have ends := walk_tail h
      cases ends
      exact entered name (directory_of_walk h)
  | cons name' names ih => exact ih (walk_tail h)

end Walk

variable {path bytes : Text} {start : Place}

theorem resolve_eq_ok :
    disk.resolve path = .ok p ↔
      0 ∉ path ∧ path ≠ [] ∧ path.length < pathLimit ∧
        disk.walk (disk.startOf path) (Text.splitOn Path.separator path) = .ok p := by
  simp only [resolve, startOf, List.contains_iff_mem]
  by_cases zero : 0 ∈ path
  · simp [zero]
  · by_cases empty : path = []
    · simp [empty]
    · by_cases long : pathLimit ≤ path.length
      · simp [zero, empty, long, Nat.not_lt.2 long]
      · simp [zero, empty, long, Nat.not_le.1 long]

theorem resolve_eq_placeOf (h : disk.resolve path = .ok p) : p = disk.placeOf path :=
  walk_eq_along (resolve_eq_ok.1 h).2.2.2

theorem find_eq_ok :
    disk.find path = .ok (p, node) ↔ disk.resolve path = .ok p ∧ disk.get? p = some node := by
  rw [find]
  cases disk.resolve path with
  | error fault => simp [bind, Except.bind]
  | ok q =>
      simp only [bind, Except.bind, Except.ok.injEq]
      cases found : disk.get? q with
      | none =>
          constructor
          · intro h
            cases h
          · rintro ⟨rfl, some⟩
            rw [found] at some
            cases some
      | some node' =>
          constructor
          · intro h
            cases h
            exact ⟨rfl, found⟩
          · rintro ⟨rfl, some⟩
            rw [found] at some
            cases some
            rfl

theorem WellFormed.parent_of_resolve (wf : disk.WellFormed) (h : disk.resolve path = .ok p) :
    disk.get? p.dropLast = some .directory := by
  have walked := (resolve_eq_ok.1 h).2.2.2
  obtain ⟨name, names, pieces⟩ :=
    List.exists_cons_of_ne_nil (@Text.splitOn_ne_nil Path.separator path)
  rw [pieces] at walked
  exact wf.parent_of_walk walked

theorem readBytes_eq_ok :
    disk.readBytes path = .ok bytes ↔ ∃ p, disk.find path = .ok (p, .file bytes) := by
  rw [readBytes]
  cases found : disk.find path with
  | error fault => simp
  | ok entry =>
      obtain ⟨p, node⟩ := entry
      cases node with
      | file bytes' => simp
      | directory => simp

/-! ### Where shortest paths lead -/

/-- The path of a file ends with its name. -/
theorem WellFormed.name_of_readBytes (wf : disk.WellFormed) (h : disk.readBytes path = .ok bytes) :
    ∃ init name, Path.IsName name ∧ Text.splitOn Path.separator path = init ++ [name] := by
  obtain ⟨p, found⟩ := readBytes_eq_ok.1 h
  obtain ⟨resolved, isFile⟩ := find_eq_ok.1 found
  have walked := (resolve_eq_ok.1 resolved).2.2.2
  have pieces := List.dropLast_concat_getLast (@Text.splitOn_ne_nil Path.separator path)
  have plain :=
    Text.not_mem_of_mem_splitOn (List.getLast_mem (@Text.splitOn_ne_nil Path.separator path))
  generalize (Text.splitOn Path.separator path).getLast _ = name at pieces plain
  generalize (Text.splitOn Path.separator path).dropLast = init at pieces
  refine ⟨init, name, ?_, pieces.symm⟩
  rw [← pieces, walk_append] at walked
  split at walked
  next q _ =>
    have isDirectory := directory_of_walk walked
    have place : p = enter q name := walk_eq_along walked
    -- Any other piece would lead to a directory.
    have other (there : disk.get? (enter q name) = some .directory) : False := by
      rw [← place, isFile] at there
      cases there
    refine ⟨?_, ?_, ?_, plain⟩
    · rintro rfl
      exact other isDirectory
    · rintro rfl
      exact other isDirectory
    · rintro rfl
      apply other
      rw [enter_up]
      exact wf.up isDirectory
  next => cases walked

theorem along_step {rooted : Bool} {before : List Text} (h : Path.Shortest rooted before)
    (atRoot : rooted = true → start = []) {part : Text} (plain : Path.separator ∉ part) :
    along start (Path.step rooted before part).reverse =
      enter (along start before.reverse) part := by
  by_cases dot : part = [] ∨ part = "."
  · rw [Path.step_of_skipped dot, enter, if_pos dot]
  · by_cases up : part = ".."
    · subst up
      cases h with
      | name isName rest =>
          rw [isName.step_up, List.reverse_cons, along_name _ _ isName, enter_up,
            List.dropLast_concat]
      | ups n ups =>
          rw [Path.step_up_replicate n ups, List.reverse_replicate, List.reverse_replicate]
          cases rooted with
          | true =>
              rw [ups rfl, atRoot rfl]
              rfl
          | false => exact (congrArg (along start) List.replicate_succ').trans (along_append _ _ _)
    · have isName : Path.IsName part := by
        exact ⟨fun h => dot (.inl h), fun h => dot (.inr h), up, plain⟩
      rw [isName.step, List.reverse_cons, along_append]
      rfl

theorem along_components (path : Text) (atRoot : Path.isAbsolute path = true → start = []) :
    along start (Path.components path) = along start (Text.splitOn Path.separator path) := by
  have folds : ∀ (parts : List Text) {before : List Text},
      Path.Shortest (Path.isAbsolute path) before →
      (∀ part ∈ parts, Path.separator ∉ part) →
      along start (parts.foldl (Path.step (Path.isAbsolute path)) before).reverse =
        along (along start before.reverse) parts := by
    intro parts
    induction parts with
    | nil =>
        intro before _ _
        rfl
    | cons part parts ih =>
        intro before shortest plain
        have first : Path.separator ∉ part := plain part (by simp)
        rw [List.foldl_cons, ih (shortest.step first) fun part mem => plain part (by simp [mem]),
          along_step shortest atRoot first]
        rfl
  exact folds _ (.ups 0 fun _ => rfl) fun _ => Text.not_mem_of_mem_splitOn

theorem placeOf_ofParts (disk : Disk) {rooted : Bool} {before : List Text}
    (h : Path.Shortest rooted before) :
    disk.placeOf (Path.ofParts rooted before.reverse) =
      along (if rooted then [] else disk.workingDirectory) before.reverse := by
  rw [placeOf, startOf, h.isAbsolute_ofParts, h.splitOn_ofParts]
  by_cases none : before = []
  · subst none
    cases rooted <;> rfl
  · rw [if_neg none, if_neg none]
    cases rooted <;> rfl

/-- The shortest form of a path leads to the same place. -/
theorem placeOf_clean (disk : Disk) (path : Text) :
    disk.placeOf (Path.clean path) = disk.placeOf path := by
  have leads := disk.placeOf_ofParts (Path.shortest_components path)
  rw [List.reverse_reverse, ← Path.clean_eq] at leads
  rw [leads, along_components path fun absolute => if_pos absolute]
  rfl

/-- A name joined to a path leads to a place in the directory that the path leads to. -/
theorem placeOf_join (disk : Disk) (path : Text) {name : Text} (isName : Path.IsName name) :
    disk.placeOf (Path.join [path, name]) = disk.placeOf path ++ [name] := by
  have leads := disk.placeOf_ofParts (.name isName (Path.shortest_components path))
  rw [List.reverse_cons, List.reverse_reverse, ← Path.join_name path isName,
    along_name _ _ isName, along_components path fun absolute => if_pos absolute] at leads
  exact leads

/-! ### Making directories -/

/-- A path up to one of its slashes, or all of it. -/
def IsFront (front path : Text) : Prop :=
  front = path ∨ ∃ rest, path = front ++ Path.separator :: rest

namespace IsFront

variable {front middle path : Text}

theorem trans (first : IsFront front middle) (second : IsFront middle path) :
    IsFront front path := by
  obtain rfl | ⟨rest, rfl⟩ := first
  · exact second
  · obtain rfl | ⟨rest', rfl⟩ := second
    · exact .inr ⟨rest, rfl⟩
    · exact .inr ⟨rest ++ Path.separator :: rest', by simp⟩

theorem splitOn (h : IsFront front path) :
    Text.splitOn Path.separator front <+: Text.splitOn Path.separator path := by
  obtain rfl | ⟨rest, rfl⟩ := h
  · exact List.prefix_rfl
  · rw [Text.splitOn_append]
    exact List.prefix_append _ _

theorem startOf (h : IsFront front path) (nonempty : front ≠ []) :
    disk.startOf front = disk.startOf path := by
  obtain rfl | ⟨rest, rfl⟩ := h
  · rfl
  · rw [Disk.startOf, Disk.startOf, Path.isAbsolute_append nonempty]

end IsFront

theorem isFront_withoutSlashes (path : Text) : IsFront (withoutSlashes path) path := by
  rw [withoutSlashes]
  split
  next => exact .inl rfl
  next =>
    have whole : path = Path.trimSlashes path ++
        (path.reverse.takeWhile (· == Path.separator)).reverse := by
      rw [Path.trimSlashes, ← List.reverse_append, List.takeWhile_append_dropWhile,
        List.reverse_reverse]
    cases slashes : (path.reverse.takeWhile (· == Path.separator)).reverse with
    | nil =>
        rw [slashes, List.append_nil] at whole
        exact .inl whole.symm
    | cons b rest =>
        have mem : b ∈ path.reverse.takeWhile (· == Path.separator) := by
          rw [← List.mem_reverse, slashes]
          exact List.mem_cons_self
        have isSlash := List.all_eq_true.1 List.all_takeWhile b mem
        rw [slashes, eq_of_beq isSlash] at whole
        exact .inr ⟨rest, whole⟩

theorem isFront_parentReversed {reversed : Text} (some : parentReversed reversed ≠ []) :
    IsFront (parentReversed reversed).reverse reversed.reverse := by
  cases above : (reversed.dropWhile (· == Path.separator)).dropWhile (· != Path.separator) with
  | nil =>
      rw [parentReversed, above] at some
      exact absurd rfl some
  | cons b parent =>
      have isSlash : b = Path.separator := by
        have head := List.head?_dropWhile_not (· != Path.separator)
          (reversed.dropWhile (· == Path.separator))
        rw [above] at head
        simpa using head
      obtain ⟨name, whole⟩ := List.dropWhile_suffix (l := reversed.dropWhile (· == Path.separator))
        (· != Path.separator)
      obtain ⟨slashes, all⟩ := List.dropWhile_suffix (l := reversed) (· == Path.separator)
      rw [parentReversed, above, ← all, ← whole, above, isSlash]
      exact .inr ⟨name.reverse ++ slashes.reverse, by simp⟩

/-- A place that a path led to part of the way, on some disk where nothing stood there. -/
def Missed (start : Place) (names : List Text) (p : Place) : Prop :=
  ∃ (disk : Disk) (init : List Text), disk.WellFormed ∧ init ≠ [] ∧ init <+: names ∧
    disk.walk start init = .ok p ∧ disk.get? p = none

/-- Whatever stood somewhere stays, and there may be new directories where `S` says. -/
structure Grows (S : Place → Prop) (disk disk' : Disk) : Prop where
  wellFormed : disk'.WellFormed
  workingDirectory : disk'.workingDirectory = disk.workingDirectory
  get? : ∀ p, disk'.get? p = disk.get? p ∨
    disk.get? p = none ∧ disk'.get? p = some .directory ∧ S p

namespace Grows

variable {S : Place → Prop} {disk₁ : Disk}

theorem refl (wf : disk.WellFormed) : Grows S disk disk :=
  ⟨wf, rfl, fun _ => .inl rfl⟩

theorem trans (first : Grows S disk disk₁) (second : Grows S disk₁ disk') : Grows S disk disk' := by
  refine ⟨second.wellFormed, second.workingDirectory.trans first.workingDirectory, ?_⟩
  intro p
  cases second.get? p with
  | inl same =>
      rw [same]
      exact first.get? p
  | inr made =>
      obtain ⟨free, isDirectory, here⟩ := made
      cases first.get? p with
      | inl same => exact .inr ⟨same ▸ free, isDirectory, here⟩
      | inr made =>
          rw [made.2.1] at free
          cases free

theorem directory (h : Grows S disk disk') (isDirectory : disk.get? p = some .directory) :
    disk'.get? p = some .directory := by
  cases h.get? p with
  | inl same => rw [same, isDirectory]
  | inr made => exact made.2.1

end Grows

theorem makeDirectory_eq_ok (h : disk.makeDirectory path = .ok disk') :
    ∃ p, disk.resolve (withoutSlashes path) = .ok p ∧ disk.get? p = none ∧
      disk' = disk.insert p .directory := by
  rw [makeDirectory] at h
  cases resolved : disk.resolve (withoutSlashes path) with
  | error fault =>
      rw [resolved] at h
      cases h
  | ok p =>
      rw [resolved] at h
      cases found : disk.get? p with
      | some node =>
          simp only [bind, Except.bind, found] at h
          cases h
      | none =>
          simp only [bind, Except.bind, found] at h
          cases h
          exact ⟨p, rfl, found, rfl⟩

theorem grows_makeDirectory (wf : disk.WellFormed) {path whole : Text} (front : IsFront path whole)
    (h : disk.makeDirectory path = .ok disk') :
    Grows (Missed (disk.startOf whole) (Text.splitOn Path.separator whole)) disk disk' := by
  obtain ⟨p, resolved, free, rfl⟩ := makeDirectory_eq_ok h
  have notRoot : p ≠ [] := by
    rintro rfl
    rw [get?_nil] at free
    cases free
  have inside := (isFront_withoutSlashes path).trans front
  obtain ⟨-, nonempty, -, walked⟩ := resolve_eq_ok.1 resolved
  have missed : Missed (disk.startOf whole) (Text.splitOn Path.separator whole) p :=
    ⟨disk, _, wf, Text.splitOn_ne_nil _, inside.splitOn, inside.startOf nonempty ▸ walked, free⟩
  refine ⟨wf.insert notRoot (wf.parent_of_resolve resolved) (.inl rfl), rfl, ?_⟩
  intro q
  rw [get?_insert notRoot]
  by_cases same : q = p
  · subst same
    exact .inr ⟨free, if_pos rfl, missed⟩
  · exact .inl (if_neg same)

/-- What follows a choice starts from the result of one side. -/
theorem dite_bind_eq_ok {ε α β : Type} {p : Prop} [Decidable p] {x : p → Except ε α}
    {y : ¬p → Except ε α} {f : α → Except ε β} {b : β}
    (h : (if t : p then x t >>= f else y t >>= f) = .ok b) :
    ∃ a, (if t : p then x t else y t) = .ok a ∧ f a = .ok b := by
  rw [← apply_dite (· >>= f)] at h
  cases chosen : (if t : p then x t else y t) with
  | ok a =>
      rw [chosen] at h
      exact ⟨a, rfl, h⟩
  | error e =>
      rw [chosen] at h
      cases h

/-- The directories above come first; then this one is made, unless it is there. -/
theorem makeDirectoriesReversed_eq_ok {reversed : Text}
    (h : disk.makeDirectoriesReversed reversed = .ok disk') :
    ∃ disk₁, (disk₁ = disk ∨ parentReversed reversed ≠ [] ∧
        disk.makeDirectoriesReversed (parentReversed reversed) = .ok disk₁) ∧
      (disk' = disk₁ ∨ disk₁.makeDirectory reversed.reverse = .ok disk') := by
  rw [makeDirectoriesReversed] at h
  dsimp only at h
  split at h
  next =>
    cases h
    exact ⟨disk, .inl rfl, .inl rfl⟩
  next => cases h
  next =>
    obtain ⟨disk₁, upper, ends⟩ := dite_bind_eq_ok h
    refine ⟨disk₁, ?_, ?_⟩
    · split at upper
      next =>
        cases upper
        exact .inl rfl
      next above => exact .inr ⟨above, upper⟩
    · split at ends
      next made =>
        cases ends
        exact .inr made
      next =>
        split at ends
        next =>
          cases ends
          exact .inl rfl
        next => cases ends

theorem grows_makeDirectoriesReversed {reversed : Text} {disk disk' : Disk} (wf : disk.WellFormed)
    {whole : Text} (front : IsFront reversed.reverse whole)
    (h : disk.makeDirectoriesReversed reversed = .ok disk') :
    Grows (Missed (disk.startOf whole) (Text.splitOn Path.separator whole)) disk disk' := by
  obtain ⟨disk₁, upper, ends⟩ := makeDirectoriesReversed_eq_ok h
  have grown : Grows (Missed (disk.startOf whole) (Text.splitOn Path.separator whole)) disk
      disk₁ := by
    rcases upper with rfl | ⟨above, upper⟩
    · exact .refl wf
    · exact grows_makeDirectoriesReversed wf ((isFront_parentReversed above).trans front) upper
  rcases ends with rfl | made
  · exact grown
  · have start : disk₁.startOf whole = disk.startOf whole := by
      rw [startOf, startOf, grown.workingDirectory]
    exact grown.trans (start ▸ grows_makeDirectory grown.wellFormed front made)
termination_by reversed.length
decreasing_by exact parentReversed_length_lt (by assumption)

/-- Making directories adds those that a path has missed. -/
theorem grows_makeDirectories (wf : disk.WellFormed) (h : disk.makeDirectories path = .ok disk') :
    Grows (Missed (disk.startOf path) (Text.splitOn Path.separator path)) disk disk' :=
  grows_makeDirectoriesReversed wf (.inl (List.reverse_reverse path)) h

theorem WellFormed.directory_of_ups (wf : disk.WellFormed) {n : Nat}
    (h : disk.walk start (List.replicate (n + 1) "..") = .ok p) :
    disk.get? p = some .directory := by
  have rest := walk_tail h
  rw [enter_up] at rest
  induction n generalizing start with
  | zero =>
      cases rest
      exact wf.up (directory_of_walk h)
  | succ n ih =>
      apply ih rest
      rw [← enter_up]
      exact walk_tail rest

/-- What a shortest path has missed lies above the place it leads to: its steps up miss nothing. -/
theorem Missed.prefix_along {rooted : Bool} {before : List Text}
    (missed : Missed start before.reverse p) (h : Path.Shortest rooted before) :
    p <+: along start before.reverse := by
  obtain ⟨disk, init, wf, nonempty, isInit, walked, free⟩ := missed
  induction h with
  | ups n atRoot =>
      rw [List.reverse_replicate, List.prefix_replicate_iff] at isInit
      obtain ⟨m, length⟩ := Nat.exists_eq_succ_of_ne_zero (mt List.length_eq_zero_iff.1 nonempty)
      rw [isInit.2, length] at walked
      rw [wf.directory_of_ups walked] at free
      cases free
  | @name before name isName rest ih =>
      rw [List.reverse_cons] at isInit ⊢
      cases List.prefix_concat_iff.1 isInit with
      | inl same =>
          have ended := walk_eq_along walked
          subst ended same
          exact List.prefix_rfl
      | inr isInit =>
          rw [along_name _ _ isName]
          exact (ih isInit).trans (List.prefix_append _ _)

/-- A piece that leads nowhere is not missed. -/
theorem Missed.of_skipped {part : Text} {parts : List Text} (skipped : part = [] ∨ part = ".")
    (missed : Missed start (part :: parts) p) : Missed start parts p := by
  obtain ⟨disk, init, wf, nonempty, isInit, walked, free⟩ := missed
  cases init with
  | nil => exact absurd rfl nonempty
  | cons first init =>
      obtain ⟨rfl, isRest⟩ := List.cons_prefix_cons.1 isInit
      have isDirectory := directory_of_walk walked
      have rest := walk_tail walked
      rw [enter, if_pos skipped] at rest
      cases init with
      | nil =>
          cases rest
          rw [isDirectory] at free
          cases free
      | cons second init => exact ⟨disk, _, wf, List.cons_ne_nil second init, isRest, rest, free⟩

theorem not_missed_nil : ¬Missed start [] p := by
  rintro ⟨disk, init, -, nonempty, isInit, -⟩
  exact nonempty (List.prefix_nil.1 isInit)

/-- What the shortest form of a path has missed lies above the place it leads to, or there. -/
theorem Missed.prefix_placeOf (missed : Missed (disk.startOf (Path.clean path))
    (Text.splitOn Path.separator (Path.clean path)) p) : p <+: disk.placeOf path := by
  have shortest := Path.shortest_components path
  have pieces := shortest.splitOn_ofParts
  have leads := disk.placeOf_ofParts shortest
  rw [List.reverse_reverse, ← Path.clean_eq] at pieces
  rw [List.reverse_reverse, ← Path.clean_eq, placeOf_clean] at leads
  rw [pieces, startOf, Path.isAbsolute_clean] at missed
  rw [leads]
  by_cases none : (Path.components path).reverse = []
  · rw [if_pos none, if_pos none] at missed
    exfalso
    cases absolute : Path.isAbsolute path with
    | true =>
        rw [absolute] at missed
        exact not_missed_nil ((missed.of_skipped (.inl rfl)).of_skipped (.inl rfl))
    | false =>
        rw [absolute] at missed
        exact not_missed_nil (missed.of_skipped (.inr rfl))
  · rw [if_neg none, if_neg none] at missed
    have named : Missed (if Path.isAbsolute path then [] else disk.workingDirectory)
        (Path.components path) p := by
      cases absolute : Path.isAbsolute path with
      | true =>
          rw [absolute] at missed
          exact missed.of_skipped (.inl rfl)
      | false =>
          rw [absolute] at missed
          exact missed
    rw [← List.reverse_reverse (Path.components path)] at named ⊢
    exact named.prefix_along shortest

/-! ### Writing, renaming and removing -/

/-- A file is written where its path leads. -/
theorem writeBytes_eq_ok (h : disk.writeBytes path bytes = .ok disk') :
    disk.resolve path = .ok (disk.placeOf path) ∧
      disk.get? (disk.placeOf path) ≠ some .directory ∧
      disk' = disk.insert (disk.placeOf path) (.file bytes) := by
  rw [writeBytes] at h
  split at h
  next place aimed =>
    cases h
    rw [target] at aimed
    cases resolved : disk.resolve (withoutSlashes path) with
    | error fault =>
        rw [resolved] at aimed
        cases aimed
    | ok p =>
        rw [resolved] at aimed
        simp only [bind, Except.bind] at aimed
        split at aimed
        next => cases aimed
        next allowed =>
          cases aimed
          rw [not_or, Classical.not_not] at allowed
          rw [allowed.1] at resolved
          obtain rfl := resolve_eq_placeOf resolved
          exact ⟨resolved, allowed.2, rfl⟩
  next => cases h

theorem WellFormed.writeBytes (wf : disk.WellFormed) (h : disk.writeBytes path bytes = .ok disk') :
    disk'.WellFormed ∧ disk'.workingDirectory = disk.workingDirectory ∧
      ∀ p, disk'.get? p = if p = disk.placeOf path then some (.file bytes) else disk.get? p := by
  obtain ⟨resolved, free, rfl⟩ := writeBytes_eq_ok h
  have notRoot : disk.placeOf path ≠ [] := by
    intro root
    rw [root] at free
    exact free (get?_nil disk)
  exact ⟨wf.insert notRoot (wf.parent_of_resolve resolved) (.inr free), rfl,
    fun p => get?_insert notRoot⟩

def freshName (number : Nat) : Text := "tmp-" ++ Text.ofNat number

theorem isName_freshName (number : Nat) : Path.IsName (freshName number) := by
  have plain : Path.separator ∉ freshName number := by
    intro mem
    cases List.mem_append.1 mem with
    | inl mem => exact absurd mem (by decide)
    | inr mem => exact absurd (Text.isDigit_of_mem_ofNat number mem) (by decide)
  have first : (freshName number).head? = some 116 := rfl
  refine ⟨?_, ?_, ?_, plain⟩
  all_goals
    intro same
    rw [same] at first
    exact absurd first (by decide)

theorem placeOf_freshPath (disk : Disk) (directory : Text) (number : Nat) :
    ∃ place, disk.placeOf (freshPath directory number) = place ++ [freshName number] := by
  have written : ∃ front,
      freshPath directory number = front ++ Path.separator :: freshName number := by
    by_cases slash : directory.getLast? = some Path.separator
    · obtain ⟨front, rfl⟩ := List.getLast?_eq_some_iff.1 slash
      refine ⟨front, ?_⟩
      simp [freshPath, freshName, Text.onlyIf]
    · refine ⟨directory, ?_⟩
      simp [freshPath, freshName, Text.onlyIf, slash]
  obtain ⟨front, written⟩ := written
  have isName := isName_freshName number
  rw [placeOf, written, Text.splitOn_append, Text.splitOn_of_not_mem isName.plain,
    along_name _ _ isName]
  exact ⟨_, rfl⟩

theorem writeFresh_eq_ok {directory bytes path : Text}
    (h : disk.writeFresh directory bytes = .ok (path, disk')) :
    (∃ number, path = freshPath directory number) ∧ disk.writeBytes path bytes = .ok disk' := by
  rw [writeFresh] at h
  split at h
  next path' chosen =>
    obtain ⟨number, -, named⟩ := List.mem_map.1 (List.mem_of_find?_eq_some chosen)
    cases wrote : disk.writeBytes path' bytes with
    | error e =>
        rw [wrote] at h
        cases h
    | ok disk₁ =>
        rw [wrote] at h
        cases h
        exact ⟨⟨number, named.symm⟩, wrote⟩
  next => cases h

/-- What stood at `p` stands at `goal`, where there was no directory and nothing below `p`. -/
structure Renamed (disk : Disk) (p : Place) (node : Node) (goal : Place) (disk' : Disk) : Prop where
  wellFormed : disk.WellFormed
  found : disk.get? p = some node
  free : disk.get? goal ≠ some .directory
  inDirectory : disk.get? goal.dropLast = some .directory
  apart : p = goal ∨ ¬p <+: goal
  eq : disk' = if p = goal then disk else disk.move p goal

/-- Renaming succeeds where nothing is in the way. The new path of a file is taken as it is. -/
theorem rename_eq_ok {old new : Text} (wf : disk.WellFormed) (h : disk.rename old new = .ok disk') :
    ∃ p node goal, disk.find old = .ok (p, node) ∧ Renamed disk p node goal disk' ∧
      (node ≠ .directory → disk.resolve new = .ok goal) := by
  rw [rename] at h
  cases source : disk.find old with
  | error fault =>
      rw [source] at h
      cases h
  | ok entry =>
      obtain ⟨p, node⟩ := entry
      rw [source] at h
      simp only [bind, Except.bind] at h
      cases aimed : disk.resolve (if node = .directory then withoutSlashes new else new) with
      | error fault =>
          rw [aimed] at h
          cases h
      | ok goal =>
          rw [aimed] at h
          cases fault : disk.renameFault? p node goal with
          | some fault =>
              simp only [fault] at h
              cases h
          | none =>
              simp only [fault] at h
              cases h
              have found := (find_eq_ok.1 source).2
              rw [renameFault?] at fault
              refine ⟨p, node, goal, rfl, ⟨wf, found, ?_, wf.parent_of_resolve aimed, ?_, rfl⟩, ?_⟩
              · intro isDirectory
                rw [isDirectory] at fault
                cases fault
              · by_cases same : p = goal
                · exact .inl same
                · right
                  intro below
                  cases there : disk.get? goal with
                  | none => simp [there, List.isPrefixOf_iff_prefix.2 below] at fault
                  | some node' =>
                      rw [there] at fault
                      have isDirectory := wf.above there below same
                      rw [found] at isDirectory
                      cases isDirectory
                      cases node' <;> simp at fault
              · intro isFile
                rw [if_neg isFile] at aimed
                exact aimed

namespace Renamed

variable {goal : Place}

theorem source_ne_nil (h : Renamed disk p node goal disk') : p ≠ goal → p ≠ [] := by
  rintro other rfl
  exact h.apart.resolve_left other List.nil_prefix

theorem workingDirectory (h : Renamed disk p node goal disk') :
    disk'.workingDirectory = disk.workingDirectory := by
  rw [h.eq]
  split <;> rfl

theorem result_wellFormed (h : Renamed disk p node goal disk') : disk'.WellFormed := by
  rw [h.eq]
  by_cases same : p = goal
  · rw [if_pos same]
    exact h.wellFormed
  · rw [if_neg same]
    apply h.wellFormed.move (h.source_ne_nil same) h.free h.inDirectory
    intro below
    exact h.apart.resolve_left same (below.trans (List.dropLast_prefix goal))

theorem goal_ne_nil (h : Renamed disk p node goal disk') : goal ≠ [] := by
  rintro rfl
  exact h.free (get?_nil disk)

/-- Nothing is left below the old place. -/
theorem get?_below (h : Renamed disk p node goal disk') (below : p <+: q) (other : p ≠ q) :
    disk'.get? q = none := by
  have notRoot : q ≠ [] := by
    rintro rfl
    exact other (List.prefix_nil.1 below)
  by_cases same : p = goal
  · rw [h.eq, if_pos same]
    exact h.wellFormed.nothing_below (same ▸ h.free) below other
  · have aside : ¬goal <+: q := by
      intro above
      cases List.prefix_or_prefix_of_prefix above below with
      | inl above => exact h.free (h.wellFormed.above h.found above (Ne.symm same))
      | inr below => exact h.apart.resolve_left same below
    rw [h.eq, if_neg same, get?_move h.wellFormed (h.source_ne_nil same) h.free notRoot,
      if_neg aside, if_pos below]

/-- Renaming a file changes two places. -/
theorem get?_file {bytes : Text} (h : Renamed disk p (.file bytes) goal disk') (q : Place) :
    disk'.get? q =
      if q = goal then some (.file bytes) else if q = p then none else disk.get? q := by
  have alone {q : Place} (below : p <+: q) (other : p ≠ q) : disk.get? q = none := by
    apply h.wellFormed.nothing_below _ below other
    rw [h.found]
    simp
  by_cases same : p = goal
  · subst same
    rw [h.eq, if_pos rfl]
    by_cases here : q = p
    · rw [if_pos here, here, h.found]
    · rw [if_neg here, if_neg here]
  · rw [h.eq, if_neg same]
    by_cases root : q = []
    · subst root
      rw [get?_nil, if_neg (Ne.symm h.goal_ne_nil), if_neg (Ne.symm (h.source_ne_nil same)),
        get?_nil]
    rw [get?_move h.wellFormed (h.source_ne_nil same) h.free root]
    by_cases arrives : goal <+: q
    · obtain ⟨rest, rfl⟩ := arrives
      rw [if_pos (List.prefix_append _ _), List.drop_left]
      by_cases top : rest = []
      · subst top
        rw [List.append_nil, List.append_nil, if_pos rfl, h.found]
      · have below : goal ≠ goal ++ rest := by simpa using top
        have nothing := h.wellFormed.nothing_below h.free (List.prefix_append goal rest) below
        rw [if_neg (Ne.symm below), alone (List.prefix_append p rest) (by simpa using top), nothing]
        split <;> rfl
    · have other : q ≠ goal := by
        rintro rfl
        exact arrives List.prefix_rfl
      rw [if_neg arrives, if_neg other]
      by_cases here : q = p
      · subst here
        rw [if_pos List.prefix_rfl, if_pos rfl]
      · rw [if_neg here]
        by_cases below : p <+: q
        · rw [if_pos below, alone below (Ne.symm here)]
        · rw [if_neg below]

end Renamed

/-- Whatever stands somewhere stood there before. -/
structure Shrinks (disk disk' : Disk) : Prop where
  wellFormed : disk'.WellFormed
  workingDirectory : disk'.workingDirectory = disk.workingDirectory
  get? : ∀ p, disk'.get? p = disk.get? p ∨ disk'.get? p = none

theorem Shrinks.refl (wf : disk.WellFormed) : Shrinks disk disk :=
  ⟨wf, rfl, fun _ => .inl rfl⟩

theorem shrinks_eraseBelow (wf : disk.WellFormed) (place : Place) :
    Shrinks disk (disk.eraseBelow place) := by
  refine ⟨wf.eraseBelow place, rfl, ?_⟩
  intro p
  by_cases root : p = []
  · subst root
    exact .inl rfl
  · rw [get?_eraseBelow root]
    split
    · exact .inr rfl
    · exact .inl rfl

theorem shrinks_remove (wf : disk.WellFormed) (h : disk.remove path = .ok disk') :
    Shrinks disk disk' := by
  rw [remove] at h
  split at h
  next => cases h
  next place node found =>
    split at h
    next =>
      cases h
      exact shrinks_eraseBelow wf place
    next => cases h

theorem shrinks_removeAll (wf : disk.WellFormed) (path : Text) :
    Shrinks disk (disk.removeAll path) := by
  rw [removeAll]
  split
  next => exact .refl wf
  next =>
    split
    next => exact .refl wf
    next place node found => exact shrinks_eraseBelow wf place

end Disk

end PrgScript
