import PrgScript.Cache.Basic
import PrgScript.Proofs.Disk

/-!
# Caches on a disk

What the operations of a cache do to a disk. The artifacts of a cache stand side by side
in one directory, each under the name of its key. Keeping one replaces what stands there
and leaves the others alone; on the way a new file comes and goes, which never has the
name of an artifact. Removing a cache leaves nothing in its directory.
-/

namespace PrgScript

theorem run_bind {σ α β : Type} (x : StateM σ α) (f : α → StateM σ β) (s : σ) :
    (x >>= f) s = f (x s).1 (x s).2 := rfl

namespace Disk

variable {disk disk' : Disk} {p : Place} {path bytes : Text}

/-! ### Replacing a file -/

theorem run_change (f : Disk → Except FileError Disk) (disk : Disk) :
    change f disk =
      match f disk with
      | .ok disk' => (.ok (), disk')
      | .error e => (.error e, disk) := by
  show (match f disk with | .ok disk' => _ | .error e => _ : StateM Disk _) disk = _
  cases f disk <;> rfl

theorem run_writeFresh (directory bytes : Text) (disk : Disk) :
    (Files.writeFresh directory bytes : StateM Disk _) disk =
      match disk.writeFresh directory bytes with
      | .ok (fresh, disk') => (.ok fresh, disk')
      | .error e => (.error e, disk) := by
  show (match disk.writeFresh directory bytes with
    | .ok (fresh, disk') => _
    | .error e => _ : StateM Disk _) disk = _
  cases disk.writeFresh directory bytes <;> rfl

/-- Replacing a file, step by step. -/
theorem run_replaceFile (path bytes : Text) (disk : Disk) :
    (Cache.replaceFile path bytes : StateM Disk _) disk =
      match disk.makeDirectories (Path.directory path) with
      | .error e => (.error e, disk)
      | .ok disk₁ =>
        match disk₁.writeFresh (Path.directory path) bytes with
        | .error e => (.error e, disk₁)
        | .ok (fresh, disk₂) =>
          match disk₂.rename fresh path with
          | .ok disk₃ => (.ok (), disk₃)
          | .error e =>
            match disk₂.remove fresh with
            | .ok disk₃ => (.error e, disk₃)
            | .error _ => (.error e, disk₂) := by
  rw [Cache.replaceFile, run_bind,
    show (Files.makeDirectories _ : StateM Disk _) disk = _ from run_change _ disk]
  cases disk.makeDirectories (Path.directory path) with
  | error e => rfl
  | ok disk₁ =>
      dsimp only
      rw [run_bind, run_writeFresh]
      cases disk₁.writeFresh (Path.directory path) bytes with
      | error e => rfl
      | ok entry =>
          obtain ⟨fresh, disk₂⟩ := entry
          dsimp only
          rw [run_bind,
            show (Files.rename fresh path : StateM Disk _) disk₂ = _ from run_change _ disk₂]
          cases disk₂.rename fresh path with
          | ok disk₃ => rfl
          | error e =>
              dsimp only
              rw [run_bind,
                show (Files.remove fresh : StateM Disk _) disk₂ = _ from run_change _ disk₂]
              cases disk₂.remove fresh <;> rfl

/-- A place that no new file is made at. -/
def NeverFresh (p : Place) : Prop := ∀ place number, p ≠ place ++ [freshName number]

/-- A file was put at a path as a whole. -/
structure Put (disk : Disk) (path bytes : Text) (disk' : Disk) : Prop where
  wellFormed : disk'.WellFormed
  workingDirectory : disk'.workingDirectory = disk.workingDirectory
  found : disk'.find path = .ok (disk.placeOf path, .file bytes)
  directory : ∀ p, disk.get? p = some .directory → disk'.get? p = some .directory
  others : ∀ p, NeverFresh p → p ≠ disk.placeOf path →
    disk'.get? p = disk.get? p ∨ disk.get? p = none ∧ disk'.get? p = some .directory ∧
      Missed (disk.startOf (Path.directory path))
        (Text.splitOn Path.separator (Path.directory path)) p

/-- No file has come, but for new ones. -/
structure Spared (disk disk' : Disk) : Prop where
  wellFormed : disk'.WellFormed
  workingDirectory : disk'.workingDirectory = disk.workingDirectory
  get? : ∀ p, NeverFresh p →
    disk'.get? p = disk.get? p ∨ disk'.get? p = none ∨ disk'.get? p = some .directory

theorem Spared.refl (wf : disk.WellFormed) : Spared disk disk :=
  ⟨wf, rfl, fun _ _ => .inl rfl⟩

theorem Grows.spared {S : Place → Prop} (h : Grows S disk disk') : Spared disk disk' := by
  refine ⟨h.wellFormed, h.workingDirectory, ?_⟩
  intro p _
  cases h.get? p with
  | inl same => exact .inl same
  | inr made => exact .inr (.inr made.2.1)

theorem placeOf_congr (same : disk'.workingDirectory = disk.workingDirectory) (path : Text) :
    disk'.placeOf path = disk.placeOf path := by
  rw [placeOf, placeOf, startOf, startOf, same]

theorem resolve_mono (same : disk'.workingDirectory = disk.workingDirectory)
    (stay : ∀ p, disk.get? p = some .directory → disk'.get? p = some .directory)
    (h : disk.resolve path = .ok p) : disk'.resolve path = .ok p := by
  obtain ⟨zero, nonempty, short, walked⟩ := resolve_eq_ok.1 h
  rw [startOf, ← same, ← startOf] at walked
  exact resolve_eq_ok.2 ⟨zero, nonempty, short, walk_mono stay walked⟩

/-- A new file, and nothing else, has come. -/
structure Fresh (disk : Disk) (path bytes : Text) (disk' : Disk) : Prop where
  wellFormed : disk'.WellFormed
  workingDirectory : disk'.workingDirectory = disk.workingDirectory
  free : disk.get? (disk.placeOf path) ≠ some .directory
  get? : ∀ p, disk'.get? p = if p = disk.placeOf path then some (.file bytes) else disk.get? p
  ne : ∀ p, NeverFresh p → p ≠ disk.placeOf path

theorem fresh_of_writeFresh (wf : disk.WellFormed) {directory fresh : Text}
    (h : disk.writeFresh directory bytes = .ok (fresh, disk')) : Fresh disk fresh bytes disk' := by
  obtain ⟨⟨number, rfl⟩, wrote⟩ := writeFresh_eq_ok h
  obtain ⟨wellFormed, same, get?⟩ := wf.writeBytes wrote
  refine ⟨wellFormed, same, (writeBytes_eq_ok wrote).2.1, get?, ?_⟩
  intro p never here
  obtain ⟨place, named⟩ := placeOf_freshPath disk directory number
  exact never place number (here.trans named)

theorem Fresh.get?_of_neverFresh {fresh : Text} (h : Fresh disk fresh bytes disk')
    (never : NeverFresh p) : disk'.get? p = disk.get? p := by
  rw [h.get?, if_neg (h.ne p never)]

/-- The new file takes its place. -/
theorem put_of_rename {disk₁ disk₂ : Disk} {file : Text}
    (grown : Grows (Missed (disk.startOf (Path.directory path))
      (Text.splitOn Path.separator (Path.directory path))) disk disk₁)
    (fresh : Fresh disk₁ file bytes disk₂) (renamed : disk₂.rename file path = .ok disk') :
    Put disk path bytes disk' := by
  obtain ⟨p, node, goal, found, moved, aimed⟩ := rename_eq_ok fresh.wellFormed renamed
  have source : p = disk₁.placeOf file := by
    rw [resolve_eq_placeOf (find_eq_ok.1 found).1, placeOf_congr fresh.workingDirectory]
  obtain rfl : node = .file bytes := by
    have there := moved.found
    rw [fresh.get?, if_pos source] at there
    cases there
    rfl
  have resolved := aimed (by simp)
  have same := fresh.workingDirectory.trans grown.workingDirectory
  have place : goal = disk.placeOf path := by
    rw [resolve_eq_placeOf resolved, placeOf_congr same]
  have get? := moved.get?_file
  rw [place] at get?
  have stay (q : Place) (isDirectory : disk₂.get? q = some .directory) :
      disk'.get? q = some .directory := by
    have notGoal : q ≠ disk.placeOf path := by
      rintro rfl
      exact moved.free (place ▸ isDirectory)
    have notSource : q ≠ p := by
      rintro rfl
      rw [moved.found] at isDirectory
      cases isDirectory
    rw [get?, if_neg notGoal, if_neg notSource]
    exact isDirectory
  refine ⟨moved.result_wellFormed, moved.workingDirectory.trans same, ?_, ?_, ?_⟩
  · rw [place] at resolved
    exact find_eq_ok.2 ⟨resolve_mono moved.workingDirectory stay resolved, by rw [get?, if_pos rfl]⟩
  · intro q isDirectory
    have before := grown.directory isDirectory
    apply stay
    rw [fresh.get?, if_neg]
    · exact before
    · rintro rfl
      exact fresh.free before
  · intro q never notGoal
    have notSource : q ≠ p := by
      rw [source]
      exact fresh.ne q never
    rw [get?, if_neg notGoal, if_neg notSource, fresh.get?_of_neverFresh never]
    exact grown.get? q

/-- Replacing a file has put it in place, or has failed and changed no file. -/
theorem replaceFile_cases (wf : disk.WellFormed) {result : Except FileError Unit}
    (h : (Cache.replaceFile path bytes : StateM Disk _) disk = (result, disk')) :
    result = .ok () ∧ Put disk path bytes disk' ∨
      ∃ e, result = .error e ∧ Spared disk disk' := by
  rw [run_replaceFile] at h
  cases made : disk.makeDirectories (Path.directory path) with
  | error e =>
      rw [made] at h
      cases h
      exact .inr ⟨e, rfl, .refl wf⟩
  | ok disk₁ =>
      have grown := grows_makeDirectories wf made
      rw [made] at h
      dsimp only at h
      cases wrote : disk₁.writeFresh (Path.directory path) bytes with
      | error e =>
          rw [wrote] at h
          cases h
          exact .inr ⟨e, rfl, grown.spared⟩
      | ok entry =>
          obtain ⟨file, disk₂⟩ := entry
          have fresh := fresh_of_writeFresh grown.wellFormed wrote
          have spared : Spared disk disk₂ := by
            refine ⟨fresh.wellFormed, fresh.workingDirectory.trans grown.workingDirectory, ?_⟩
            intro p never
            rw [fresh.get?_of_neverFresh never]
            exact grown.spared.get? p never
          rw [wrote] at h
          dsimp only at h
          cases renamed : disk₂.rename file path with
          | error e =>
              rw [renamed] at h
              dsimp only at h
              cases removed : disk₂.remove file with
              | error e' =>
                  rw [removed] at h
                  cases h
                  exact .inr ⟨e, rfl, spared⟩
              | ok disk₃ =>
                  have shrunk := shrinks_remove fresh.wellFormed removed
                  rw [removed] at h
                  cases h
                  refine .inr ⟨e, rfl, shrunk.wellFormed,
                    shrunk.workingDirectory.trans spared.workingDirectory, ?_⟩
                  intro p never
                  cases shrunk.get? p with
                  | inl same =>
                      rw [same]
                      exact spared.get? p never
                  | inr gone => exact .inr (.inl gone)
          | ok disk₃ =>
              rw [renamed] at h
              cases h
              exact .inl ⟨rfl, put_of_rename grown fresh renamed⟩

end Disk

/-! ### The operations of a cache -/

/-- A path of slashes only. -/
def Path.IsRoot (path : Text) : Prop := path ≠ [] ∧ Path.trimSlashes path = []

instance (path : Text) : Decidable (Path.IsRoot path) := inferInstanceAs (Decidable (_ ∧ _))

namespace Cache

open Disk

variable {disk disk' : Disk} {cache : Cache} {script hash : Text}

theorem isName_artifact (named : ¬Path.IsRoot script) : Path.IsName (key script ++ ".bin") := by
  have last : (key script ++ ".bin").getLast? = some 110 := by
    rw [List.getLast?_append]
    rfl
  have plain : Path.separator ∉ key script := by
    apply Path.separator_not_mem_stem
    rw [Path.IsRoot, Classical.not_and_iff_not_or_not, Classical.not_not] at named
    exact named
  refine ⟨?_, ?_, ?_, ?_⟩
  · intro same
    rw [same] at last
    cases last
  · intro same
    rw [same] at last
    exact absurd last (by decide)
  · intro same
    rw [same] at last
    exact absurd last (by decide)
  · intro mem
    cases List.mem_append.1 mem with
    | inl mem => exact plain mem
    | inr mem => exact absurd mem (by decide)

/-- The place of the artifact of a script, in the directory of its cache. -/
def placeFor (cache : Cache) (disk : Disk) (script : Text) : Place :=
  disk.placeOf cache.directory ++ [key script ++ ".bin"]

theorem placeOf_pathOf (named : ¬Path.IsRoot script) (disk : Disk) :
    disk.placeOf (cache.pathOf script) = cache.placeFor disk script :=
  disk.placeOf_join cache.directory (isName_artifact named)

theorem placeFor_congr (same : disk'.workingDirectory = disk.workingDirectory) (script : Text) :
    cache.placeFor disk' script = cache.placeFor disk script := by
  rw [placeFor, placeFor, placeOf_congr same]

/-- Scripts with different keys have their artifacts at different places. -/
theorem key_eq_of_placeFor {script' : Text}
    (h : cache.placeFor disk script' = cache.placeFor disk script) : key script' = key script :=
  List.append_cancel_right (List.singleton_inj.1 (List.append_cancel_left h))

theorem directory_pathOf (named : ¬Path.IsRoot script) :
    Path.directory (cache.pathOf script) = Path.clean cache.directory := by
  have isName := isName_artifact named
  have shortest := Path.shortest_components cache.directory
  have directory := shortest.directory isName
  rw [List.reverse_reverse] at directory
  rw [pathOf, Path.join_name _ isName, directory, Path.clean_eq]

theorem neverFresh_placeFor (cache : Cache) (disk : Disk) (script : Text) :
    NeverFresh (cache.placeFor disk script) := by
  intro place' number same
  have dot : 46 ∈ freshName number := by
    rw [← (List.append_inj_right' same rfl |> List.singleton_inj.1)]
    exact List.mem_append_right _ (by decide)
  cases List.mem_append.1 dot with
  | inl mem => exact absurd mem (by decide)
  | inr mem => exact absurd (Text.isDigit_of_mem_ofNat number mem) (by decide)

theorem run_lookup (cache : Cache) (script hash : Text) (disk : Disk) :
    (cache.lookup script hash : StateM Disk _) disk =
      (match disk.readBytes (cache.pathOf script) with
      | .ok bytes => cache.judge (cache.pathOf script) hash bytes
      | .error e =>
        if e.fault = .notFound then .ok none
        else if e.operation = .reading then .error (.corrupt (cache.pathOf script) e.message)
        else .error (.file e), disk) := by
  rw [lookup, run_bind]
  show (match disk.readBytes (cache.pathOf script) with
    | .ok bytes => _
    | .error e => _ : StateM Disk _) disk = _
  cases disk.readBytes (cache.pathOf script) with
  | ok bytes => rfl
  | error e =>
      dsimp only
      split
      · rfl
      · split <;> rfl

theorem lookup_eq_some {a : Artifact}
    (h : ((cache.lookup script hash : StateM Disk _) disk).1 = .ok (some a)) :
    ∃ bytes, disk.readBytes (cache.pathOf script) = .ok bytes ∧ Artifact.decode bytes = .ok a ∧
      cache.accepts hash a = true := by
  rw [run_lookup] at h
  dsimp only at h
  split at h
  next bytes read =>
    rw [judge] at h
    split at h
    next => cases h
    next a' decoded =>
      split at h
      next accepted =>
        split at h
        next => cases h
        next =>
          cases h
          exact ⟨bytes, read, decoded, accepted⟩
      next => cases h
  next =>
    split at h
    next => cases h
    next => split at h <;> cases h

theorem run_store (cache : Cache) (script hash : Text) (created : Int) (compiled : Compiled)
    (disk : Disk) :
    (cache.store script hash created (some compiled) : StateM Disk _) disk =
      match (replaceFile (cache.pathOf script) (artifact script hash created compiled).encode :
        StateM Disk _) disk with
      | (.ok _, disk') => (.ok (artifact script hash created compiled), disk')
      | (.error e, disk') => (.error (.file e), disk') := by
  rw [store, run_bind]
  cases (replaceFile (cache.pathOf script) (artifact script hash created compiled).encode :
    StateM Disk _) disk with
  | mk result disk' => cases result <;> rfl

/-- An artifact is kept, or keeping it has failed and changed no file. -/
theorem store_cases (wf : disk.WellFormed) {created : Int} {compiled : Compiled}
    {result : Except CacheError Artifact}
    (h : (cache.store script hash created (some compiled) : StateM Disk _) disk = (result, disk')) :
    result = .ok (artifact script hash created compiled) ∧
        Put disk (cache.pathOf script) (artifact script hash created compiled).encode disk' ∨
      ∃ e, result = .error (.file e) ∧ Spared disk disk' := by
  rw [run_store] at h
  cases replaced : (replaceFile (cache.pathOf script)
      (artifact script hash created compiled).encode : StateM Disk _) disk with
  | mk ended disk₁ =>
      rw [replaced] at h
      cases replaceFile_cases wf replaced with
      | inl done =>
          obtain ⟨rfl, put⟩ := done
          cases h
          exact .inl ⟨rfl, put⟩
      | inr failed =>
          obtain ⟨e, rfl, spared⟩ := failed
          cases h
          exact .inr ⟨e, rfl, spared⟩

theorem run_clean_of_missing (mark : Text) (h : disk.find cache.directory = .error .notFound) :
    (cache.clean mark : StateM Disk _) disk = (.ok (), disk) := by
  have inspected : (Files.inspect cache.directory : StateM Disk _) disk =
      (.error ⟨.inspecting, [cache.directory], .notFound⟩, disk) := by
    show (disk.inspect cache.directory, disk) = _
    rw [inspect, h]
  rw [clean, run_bind, inspected]
  rfl

theorem run_clean_of_present (mark : Text) (h : disk.find cache.directory ≠ .error .notFound) :
    (∀ e, disk.rename cache.directory (cache.directory ++ ".old-" ++ mark) = .error e →
      (cache.clean mark : StateM Disk _) disk = (.error e, disk)) ∧
    ∀ disk₁, disk.rename cache.directory (cache.directory ++ ".old-" ++ mark) = .ok disk₁ →
      (cache.clean mark : StateM Disk _) disk =
        (.ok (), disk₁.removeAll (cache.directory ++ ".old-" ++ mark)) := by
  have inspected : (Files.inspect cache.directory : StateM Disk _) disk =
      (disk.inspect cache.directory, disk) := rfl
  have renames : (Files.rename cache.directory (cache.directory ++ ".old-" ++ mark) :
      StateM Disk _) disk = _ := run_change _ disk
  have present (operation : FileOperation) (paths : List Text) :
      disk.inspect cache.directory ≠ .error ⟨operation, paths, .notFound⟩ := by
    intro missing
    rw [inspect] at missing
    split at missing
    next => cases missing
    next failed =>
      cases missing
      exact h failed
  constructor
  · intro e failed
    rw [failed] at renames
    simp only [clean, run_bind, inspected, renames]
    rfl
  · intro disk₁ renamed
    rw [renamed] at renames
    simp only [clean, run_bind, inspected, renames]
    rfl

/-- A cache that is removed leaves nothing in its directory; otherwise the disk stays as it was, and
the removal has failed unless the directory is missing. -/
theorem clean_cases (wf : disk.WellFormed) {mark : Text} {result : Except FileError Unit}
    (h : (cache.clean mark : StateM Disk _) disk = (result, disk')) :
    (disk'.WellFormed ∧ disk'.workingDirectory = disk.workingDirectory ∧
      ∀ name, disk'.get? (disk.placeOf cache.directory ++ [name]) = none) ∨
    disk' = disk ∧ (result = .ok () → disk.find cache.directory = .error .notFound) := by
  by_cases missing : disk.find cache.directory = .error .notFound
  · rw [run_clean_of_missing mark missing] at h
    cases h
    exact .inr ⟨rfl, fun _ => missing⟩
  · have cleans := run_clean_of_present mark missing
    cases renamed : disk.rename cache.directory (cache.directory ++ ".old-" ++ mark) with
    | error e =>
        rw [cleans.1 e renamed] at h
        cases h
        exact .inr ⟨rfl, fun ok => by cases ok⟩
    | ok disk₁ =>
        rw [cleans.2 disk₁ renamed] at h
        cases h
        obtain ⟨p, node, goal, found, moved, -⟩ := rename_eq_ok wf renamed
        have shrunk := shrinks_removeAll moved.result_wellFormed
          (cache.directory ++ ".old-" ++ mark)
        refine .inl ⟨shrunk.wellFormed, shrunk.workingDirectory.trans moved.workingDirectory, ?_⟩
        intro name
        rw [← resolve_eq_placeOf (find_eq_ok.1 found).1]
        have gone : disk₁.get? (p ++ [name]) = none :=
          moved.get?_below (List.prefix_append p [name]) (by simp)
        cases shrunk.get? (p ++ [name]) with
        | inl same => rw [same, gone]
        | inr gone => exact gone

/-- An artifact that is there is in a directory. -/
theorem find_directory (named : ¬Path.IsRoot script) {p : Place} {node : Node}
    (h : disk.find (cache.pathOf script) = .ok (p, node)) :
    disk.find (Path.clean cache.directory) = .ok (disk.placeOf cache.directory, .directory) := by
  have isName := isName_artifact named
  have shortest := Path.shortest_components cache.directory
  have resolved := (find_eq_ok.1 h).1
  have leads : ∀ {q : Place}, disk.resolve (Path.clean cache.directory) = .ok q →
      disk.get? q = some .directory →
      disk.find (Path.clean cache.directory) = .ok (disk.placeOf cache.directory, .directory) := by
    intro q aimed isDirectory
    rw [← placeOf_clean, ← resolve_eq_placeOf aimed]
    exact find_eq_ok.2 ⟨aimed, isDirectory⟩
  rw [pathOf, Path.join_name _ isName, Path.ofParts_append _ _ isName.nonempty] at resolved
  obtain ⟨zero, -, short, walked⟩ := resolve_eq_ok.1 resolved
  by_cases none : (Path.components cache.directory).reverse = []
  · -- The directory is the root or the working directory.
    have written : Path.clean cache.directory =
        Path.ofParts (Path.isAbsolute cache.directory) [] := by
      rw [Path.clean_eq, List.reverse_eq_nil_iff.1 none]
    rw [List.reverse_eq_nil_iff.1 none] at walked
    cases absolute : Path.isAbsolute cache.directory with
    | true =>
        rw [absolute] at written
        have aimed : disk.resolve (Path.clean cache.directory) = .ok [] := by
          rw [written, resolve_eq_ok]
          refine ⟨by decide, by decide, by decide, ?_⟩
          show disk.walk [] [[], []] = .ok []
          simp [walk]
        exact leads aimed (get?_nil disk)
    | false =>
        rw [absolute] at written walked
        have isDirectory : disk.get? disk.workingDirectory = some .directory := by
          rw [Path.front, List.flatMap_nil, startOf] at walked
          simp only [Bool.false_eq_true, if_false, List.nil_append, isName.not_isAbsolute,
            Text.splitOn_of_not_mem isName.plain] at walked
          exact directory_of_walk walked
        have aimed : disk.resolve (Path.clean cache.directory) = .ok disk.workingDirectory := by
          rw [written, resolve_eq_ok]
          refine ⟨by decide, by decide, by decide, ?_⟩
          show disk.walk disk.workingDirectory ["."] = .ok disk.workingDirectory
          simp [walk, isDirectory]
        exact leads aimed isDirectory
  · have front := shortest.front_eq none
    have nonempty := shortest.ofParts_ne_nil
    rw [List.reverse_reverse, ← Path.clean_eq] at front nonempty
    rw [front, List.append_assoc, List.singleton_append] at zero short walked
    rw [startOf, Path.isAbsolute_append nonempty, ← startOf, Text.splitOn_append,
      Text.splitOn_of_not_mem isName.plain, walk_append] at walked
    split at walked
    next q ended =>
      apply leads (resolve_eq_ok.2 ⟨?_, nonempty, ?_, ended⟩) (directory_of_walk walked)
      · intro mem
        exact zero (List.mem_append_left _ mem)
      · rw [List.length_append] at short
        omega
    next => cases walked

end Cache

end PrgScript
