import Mathlib.Control.Monad.Basic
import PrgScript.Proofs.Caching

/-!
# The last artifact under a name

To its callers a cache is a map from keys to artifacts: a call that keeps an artifact sets
the one under its key, a removal empties the map, and asking changes nothing. `latest` is
that map after some calls, and `Mirrors` says that a disk holds what the map does. Every
call that is not stopped by the disk keeps the two together, provided that the path of the
cache is in shortest form. In any other form a removal looks for the directory along a way
that need not exist while artifacts are kept in the directory it would lead to.
-/

namespace PrgScript

open Disk

inductive CacheCall where
  | store (script hash : Text) (created : Int) (compiled : Option Compiled)
  | lookup (script hash : Text)
  | clean (mark : Text)

namespace CacheCall

def artifact? : CacheCall → Option Artifact
  | .store script hash created (some compiled) =>
    some {
      schema := Artifact.currentSchema
      key := Cache.key script
      source := script
      hash
      dialect := "dbase"
      listing := compiled.listing
      created
      program := compiled.program }
  | _ => none

/-- What is kept under a key after a call, given what was kept before. -/
def kept (key : Text) (before : Option Artifact) (call : CacheCall) : Option Artifact :=
  match call with
  | .clean _ => none
  | .store .. | .lookup .. =>
    match call.artifact? with
    | some a => if a.key = key then some a else before
    | none => before

/-- The last artifact under a key since everything was removed, if there is one. -/
def latest (key : Text) (calls : List CacheCall) : Option Artifact := calls.foldl (kept key) none

end CacheCall

namespace Cache

/-- Makes a call, and tells how it failed if it did. -/
def call (cache : Cache) : CacheCall → StateM Disk (Except CacheError Unit)
  | .store script hash created compiled =>
    return (← cache.store script hash created compiled).map fun _ => ()
  | .lookup script hash => return (← cache.lookup script hash).map fun _ => ()
  | .clean mark => return (← cache.clean mark).mapError .file

/-- The disk after some calls, none of which the disk has stopped. -/
def serve (cache : Cache) : List CacheCall → Disk → Option Disk
  | [], disk => some disk
  | call :: calls, disk =>
    match cache.call call disk with
    | (.error (.file _), _) => none
    | (_, disk') => cache.serve calls disk'

/-- The answer to a lookup, given the last artifact under its key: one that was made from the same
source, or from any if names are trusted, and has no fault. -/
def answer (cache : Cache) (script hash : Text) :
    Option Artifact → Except CacheError (Option Artifact)
  | none => .ok none
  | some a =>
    if cache.trustsNames = true ∨ a.hash = hash then
      match a.program.fault? with
      | some fault => .error (.corrupt (cache.pathOf script) fault.message)
      | none => .ok (some a)
    else .ok none

theorem judge_encode (cache : Cache) (script hash : Text) {a : Artifact}
    (schema : a.schema = Artifact.currentSchema) (decodes : Artifact.decode a.encode = .ok a) :
    cache.judge (cache.pathOf script) hash a.encode = cache.answer script hash (some a) := by
  have accepts : cache.accepts hash a = true ↔ cache.trustsNames = true ∨ a.hash = hash := by
    simp [Cache.accepts, schema]
  rw [judge, decodes, answer]
  dsimp only
  by_cases usable : cache.trustsNames = true ∨ a.hash = hash
  · cases a.program.fault? with
    | none => rw [if_pos (accepts.2 usable), if_pos usable]
    | some fault => rw [if_pos (accepts.2 usable), if_pos usable]
  · rw [if_neg (mt accepts.1 usable), if_neg usable]

/-- A disk holds the artifacts that a map gives for keys. -/
structure Mirrors (cache : Cache) (disk : Disk) (map : Text → Option Artifact) : Prop where
  wellFormed : disk.WellFormed
  missing : ∀ script, ¬Path.IsRoot script → map (key script) = none →
    disk.get? (cache.placeFor disk script) = none
  present : ∀ script a, ¬Path.IsRoot script → map (key script) = some a →
    disk.find (cache.pathOf script) = .ok (cache.placeFor disk script, .file a.encode)
  sound : ∀ key a, map key = some a →
    a.schema = Artifact.currentSchema ∧ Artifact.decode a.encode = .ok a

namespace Mirrors

variable {cache : Cache} {disk disk' : Disk} {map : Text → Option Artifact} {script hash : Text}

/-- A disk that holds what a map does answers as the map. -/
theorem lookup (h : cache.Mirrors disk map) (named : ¬Path.IsRoot script)
    (reached : ∀ e, ((cache.lookup script hash : StateM Disk _) disk).1 ≠ .error (.file e)) :
    ((cache.lookup script hash : StateM Disk _) disk).1 =
      cache.answer script hash (map (key script)) := by
  rw [run_lookup] at reached ⊢
  dsimp only at reached ⊢
  cases kept : map (key script) with
  | some a =>
      obtain ⟨schema, decodes⟩ := h.sound _ a kept
      have read : disk.readBytes (cache.pathOf script) = .ok a.encode :=
        readBytes_eq_ok.2 ⟨_, h.present script a named kept⟩
      rw [read]
      exact cache.judge_encode script hash schema decodes
  | none =>
      have free := h.missing script named kept
      rw [← placeOf_pathOf named] at free
      have failed : ∃ fault, disk.find (cache.pathOf script) = .error fault := by
        cases found : disk.find (cache.pathOf script) with
        | error fault => exact ⟨fault, rfl⟩
        | ok entry =>
            obtain ⟨resolved, there⟩ := find_eq_ok.1 found
            rw [resolve_eq_placeOf resolved, free] at there
            cases there
      obtain ⟨fault, failed⟩ := failed
      rw [readBytes, failed] at reached ⊢
      dsimp only at reached ⊢
      by_cases missing : fault = .notFound
      · rw [if_pos missing]
        rfl
      · exfalso
        rw [if_neg missing, if_neg (by simp)] at reached
        exact reached _ rfl

/-- Keeping an artifact sets the one under its key. -/
theorem store (h : cache.Mirrors disk map) (named : ¬Path.IsRoot script) {a : Artifact}
    (sound : a.schema = Artifact.currentSchema ∧ Artifact.decode a.encode = .ok a)
    (put : Put disk (cache.pathOf script) a.encode disk') :
    cache.Mirrors disk' fun k => if key script = k then some a else map k := by
  have placeFor_eq := @placeFor_congr disk disk' cache put.workingDirectory
  have other {script' : Text} (named' : ¬Path.IsRoot script') (ne : key script ≠ key script') :
      disk'.get? (cache.placeFor disk script') = disk.get? (cache.placeFor disk script') := by
    have apart : cache.placeFor disk script' ≠ disk.placeOf (cache.pathOf script) := by
      rw [placeOf_pathOf named]
      intro same
      exact ne (key_eq_of_placeFor same).symm
    cases put.others _ (cache.neverFresh_placeFor disk script') apart with
    | inl same => exact same
    | inr made =>
        -- A directory made on the way to the cache does not lie in it.
        exfalso
        have missed := made.2.2
        rw [directory_pathOf named] at missed
        have above := missed.prefix_placeOf.length_le
        rw [placeFor, List.length_append, List.length_singleton] at above
        omega
  refine ⟨put.wellFormed, ?_, ?_, ?_⟩
  · intro script' named' none
    by_cases same : key script = key script'
    · rw [if_pos same] at none
      cases none
    · rw [if_neg same] at none
      rw [placeFor_eq, other named' same]
      exact h.missing script' named' none
  · intro script' a' named' some
    rw [placeFor_eq]
    by_cases same : key script = key script'
    · rw [if_pos same] at some
      cases some
      have found := put.found
      rw [placeOf_pathOf named] at found
      rw [placeFor, pathOf, ← same]
      exact found
    · rw [if_neg same] at some
      obtain ⟨resolved, there⟩ := find_eq_ok.1 (h.present script' a' named' some)
      apply find_eq_ok.2
      refine ⟨resolve_mono put.workingDirectory put.directory resolved, ?_⟩
      rw [other named' same]
      exact there
  · intro k a' some
    split at some
    · cases some
      exact sound
    · exact h.sound k a' some

/-- Removing a cache in shortest form empties the map. -/
theorem clean (h : cache.Mirrors disk map) (shortest : Path.clean cache.directory = cache.directory)
    {mark : Text} (cleaned : (cache.clean mark : StateM Disk _) disk = (.ok (), disk')) :
    cache.Mirrors disk' fun _ => none := by
  have sound (k : Text) (a : Artifact) (some : (none : Option Artifact) = some a) :
      a.schema = Artifact.currentSchema ∧ Artifact.decode a.encode = .ok a := by
    cases some
  cases clean_cases h.wellFormed cleaned with
  | inl emptied =>
      obtain ⟨wellFormed, same, gone⟩ := emptied
      refine ⟨wellFormed, ?_, (fun _ _ _ some => by cases some), sound⟩
      intro script named _
      rw [placeFor, placeOf_congr same]
      exact gone _
  | inr unchanged =>
      obtain ⟨rfl, missing⟩ := unchanged
      refine ⟨h.wellFormed, ?_, (fun _ _ _ some => by cases some), sound⟩
      intro script named _
      cases kept : map (key script) with
      | none => exact h.missing script named kept
      | some a =>
          -- An artifact would stand in the directory that is missing.
          have found := find_directory named (h.present script a named kept)
          rw [shortest, missing rfl] at found
          cases found

/-- Every call that the disk does not stop keeps disk and map together. -/
theorem call (h : cache.Mirrors disk map) (shortest : Path.clean cache.directory = cache.directory)
    {call : CacheCall}
    (regular : ∀ a, call.artifact? = some a →
      ¬Path.IsRoot a.source ∧ Artifact.decode a.encode = .ok a)
    {result : Except CacheError Unit} (made : cache.call call disk = (result, disk'))
    (reached : ∀ e, result ≠ .error (.file e)) :
    cache.Mirrors disk' fun k => call.kept k (map k) := by
  cases call with
  | store script hash created compiled =>
      cases compiled with
      | none =>
          cases made
          exact h
      | some compiled =>
          obtain ⟨named, decodes⟩ := regular _ rfl
          rw [Cache.call, run_bind] at made
          cases stored : (cache.store script hash created (some compiled) : StateM Disk _) disk with
          | mk ended disk₁ =>
              rw [stored] at made
              cases store_cases h.wellFormed stored with
              | inl done =>
                  obtain ⟨rfl, put⟩ := done
                  cases made
                  exact h.store named ⟨rfl, decodes⟩ put
              | inr failed =>
                  obtain ⟨e, rfl, -⟩ := failed
                  cases made
                  exact absurd rfl (reached e)
  | lookup script hash =>
      rw [Cache.call, run_bind, run_lookup] at made
      cases made
      exact h
  | clean mark =>
      rw [Cache.call, run_bind] at made
      cases cleaned : (cache.clean mark : StateM Disk _) disk with
      | mk ended disk₁ =>
          rw [cleaned] at made
          cases ended with
          | error e =>
              cases made
              exact absurd rfl (reached e)
          | ok done =>
              cases made
              exact h.clean shortest cleaned

theorem serve (h : cache.Mirrors disk map) (shortest : Path.clean cache.directory = cache.directory)
    {calls : List CacheCall}
    (regular : ∀ call ∈ calls, ∀ a, call.artifact? = some a →
      ¬Path.IsRoot a.source ∧ Artifact.decode a.encode = .ok a)
    (served : cache.serve calls disk = some disk') :
    cache.Mirrors disk' fun k => calls.foldl (CacheCall.kept k) (map k) := by
  induction calls generalizing disk map with
  | nil =>
      cases served
      exact h
  | cons call calls ih =>
      obtain ⟨first, rest⟩ := List.forall_mem_cons.1 regular
      rw [Cache.serve] at served
      split at served
      next => cases served
      next result disk₁ reached made =>
        refine ih (h.call shortest first made ?_) rest served
        rintro e rfl
        exact reached e rfl

end Mirrors

/-- A cache whose path is in shortest form, with nothing in its directory at first, is a map from
keys to the last artifacts. After any calls that the disk does not stop, a lookup gives the last
artifact that was kept under the key of its script since the cache was last removed, if it was made
from the same source or names are trusted, and has no fault. It fails only if that artifact has
one. -/
theorem lookup_latest (cache : Cache) (shortest : Path.clean cache.directory = cache.directory)
    (disk disk' : Disk) (wf : disk.WellFormed)
    (empty : ∀ name, disk.get? (disk.placeOf cache.directory ++ [name]) = none)
    (calls : List CacheCall)
    (regular : ∀ call ∈ calls, ∀ a, call.artifact? = some a →
      ¬Path.IsRoot a.source ∧ Artifact.decode a.encode = .ok a)
    (served : cache.serve calls disk = some disk') (script hash : Text)
    (named : ¬Path.IsRoot script)
    (reached : ∀ e, ((cache.lookup script hash : StateM Disk _) disk').1 ≠ .error (.file e)) :
    ((cache.lookup script hash : StateM Disk _) disk').1 =
      cache.answer script hash (CacheCall.latest (key script) calls) := by
  have start : cache.Mirrors disk fun _ => none := by
    refine ⟨wf, ?_, ?_, ?_⟩
    · intro script _ _
      exact empty _
    · intro script a _ some
      cases some
    · intro key a some
      cases some
  exact (start.serve shortest regular served).lookup named reached

/-- An artifact is removed with the cache, and another is kept under its name for a script of
another directory: a lookup gives that one. -/
theorem lookup_latest_renewed :
    let compiled : Compiled :=
      { program := { name := "a", body := [.print [.ident "x" 1] true 1] } }
    let calls : List CacheCall :=
      [.store "a.prg" "1" 0 (some compiled), .clean "0", .store "b/a.prg" "2" 0 (some compiled),
        .store "b.prg" "1" 0 (some compiled)]
    ∃ disk', ({ directory := "c" } : Cache).serve calls {} = some disk' ∧
      ((({ directory := "c" } : Cache).lookup "a.txt" "2" : StateM Disk _) disk').1 =
        .ok (some {
          schema := 1, key := "a", source := "b/a.prg", hash := "2", dialect := "dbase"
          program := { name := "a", body := [.print [.ident "x" 1] true 1] } }) := by
  intro compiled calls
  have served : (({ directory := "c" } : Cache).serve calls {}).any (fun disk =>
      ((({ directory := "c" } : Cache).lookup "a.txt" "2" : StateM Disk _) disk).1.isOk) =
        true := by
    decide +kernel
  obtain ⟨disk', served, ok⟩ := (Option.any_eq_true _ _).1 served
  refine ⟨disk', served, ?_⟩
  refine (lookup_latest _ (by decide) {} disk' wellFormed_empty ?_ calls ?_ served _ _ (by decide)
    ?_).trans ?_
  · intro name
    rw [get?_of_ne (by simp)]
    rfl
  · intro call mem a same
    simp only [calls, List.mem_cons, List.not_mem_nil, or_false] at mem
    obtain rfl | rfl | rfl | rfl := mem
    · cases same
      exact ⟨by decide, by decide +kernel⟩
    · cases same
    · cases same
      exact ⟨by decide, by decide +kernel⟩
    · cases same
      exact ⟨by decide, by decide +kernel⟩
  · intro e failed
    rw [failed] at ok
    cases ok
  · decide +kernel

/-- A cache whose path leads up and down again: once the cache is removed, that way is gone, and the
next removal finds nothing to remove although an artifact is there. -/
theorem clean_misses_artifact :
    let compiled : Compiled :=
      { program := { name := "a", body := [.print [.ident "x" 1] true 1] } }
    let calls : List CacheCall :=
      [.clean "0", .store "a.prg" "1" 0 (some compiled), .clean "0"]
    CacheCall.latest (key "a.prg") calls = none ∧
      ∃ disk', ({ directory := "b/x/../../b" } : Cache).serve calls
          ((openAt "b/x/../../b" false : StateM Disk _) {}).2 = some disk' ∧
        ∃ a,
          ((({ directory := "b/x/../../b" } : Cache).lookup "a.prg" "1" : StateM Disk _) disk').1 =
            .ok (some a) := by
  intro compiled calls
  refine ⟨rfl, ?_⟩
  have served : (({ directory := "b/x/../../b" } : Cache).serve calls
      ((openAt "b/x/../../b" false : StateM Disk _) {}).2).any (fun disk =>
        ((({ directory := "b/x/../../b" } : Cache).lookup "a.prg" "1" : StateM Disk _)
          disk).1.toOption.join.isSome) = true := by
    decide +kernel
  obtain ⟨disk', served, hit⟩ := (Option.any_eq_true _ _).1 served
  refine ⟨disk', served, ?_⟩
  cases found : ((({ directory := "b/x/../../b" } : Cache).lookup "a.prg" "1" : StateM Disk _)
      disk').1 with
  | error e =>
      rw [found] at hit
      cases hit
  | ok answer =>
      rw [found] at hit
      obtain ⟨a, rfl⟩ := Option.isSome_iff_exists.1 hit
      exact ⟨a, rfl⟩

end Cache

end PrgScript
