import AiSdlc.Infrastructure.ArtifactStore
import AiSdlc.Js.TextOperations
import Mathlib.Logic.Equiv.List

/-! The store over a history of calls: it behaves as one map from paths to contents, as long as the
keys keep out of each other's way.
-/

namespace AiSdlc.Infrastructure

open AiSdlc.Js
open AiSdlc.Domain
open AiSdlc.Transition

-----------------------------------------------------------------------------------------
-- Keys and their paths
-----------------------------------------------------------------------------------------

/-- The paths of the canonical deliverables. -/
def canonicalPaths : List NamePath :=
  canonicalDeliverableKeys.map fun key => [key.toList]

/-- Where the copy in the worktree stands. -/
def hydratedPath (path : NamePath) : NamePath :=
  if path ∈ canonicalPaths then ".ai".toList :: path else path

/-- A key that names a canonical deliverable is that deliverable's key. -/
def SpelledPlainly (normalizedPath : String) : Prop :=
  pathOf normalizedPath ∈ canonicalPaths → isCanonicalDeliverableKey normalizedPath = true

/-- A path below the root. -/
structure IsNamePath (path : NamePath) : Prop where
  nonempty : path ≠ []
  names : ∀ name ∈ path, IsSegment name

section Keys

variable {path parts stack : NamePath} {key relativePath normalizedPath : String}

theorem mem_of_mem_normalizeParts {name : List Char} (member : name ∈ normalizeParts stack parts)
    : name ∈ stack ∨ name ∈ parts := by
  induction parts generalizing stack with
  | nil => exact .inl member
  | cons part rest ih =>
      rw [normalizeParts] at member
      split at member
      · exact (ih member).imp_right (List.mem_cons_of_mem _)
      split at member
      · rcases ih member with held | later
        · exact .inl (List.dropLast_subset _ held)
        · exact .inr (List.mem_cons_of_mem _ later)
      · rcases ih member with held | later
        · rcases List.mem_append.mp held with old | new
          · exact .inl old
          · exact .inr (List.mem_singleton.mp new ▸ List.mem_cons_self)
        · exact .inr (List.mem_cons_of_mem _ later)

/-- Names that stay are kept. -/
theorem normalizeParts_eq (names : ∀ name ∈ parts, IsSegment name)
    : normalizeParts stack parts = stack ++ parts := by
  induction parts generalizing stack with
  | nil => simp [normalizeParts]
  | cons part rest ih =>
      obtain ⟨first, others⟩ := List.forall_mem_cons.mp names
      rw [normalizeParts, if_neg (by simp [first.nonempty, first.here]),
        if_neg fun up => first.up up.1, ih others, List.append_assoc]
      rfl

theorem backslash_not_mem_normalizeRelative {chars : List Char} (plain : '\\' ∉ chars)
    : '\\' ∉ normalizeRelative chars := by
  have joined : '\\' ∉ segmentChars (normalizeParts [] (chars.splitOn '/')) := by
    refine backslash_not_mem_segmentChars fun name member held => ?_
    rcases mem_of_mem_normalizeParts member with none | part
    · cases none
    · exact plain ((subset_of_mem_splitOn part).2 held)
  have trailing : '\\' ∉ (if chars.getLast? = some '/' then ['/'] else []) := by
    split <;> simp
  unfold normalizeRelative
  dsimp only
  split
  · exact fun member => (List.mem_cons.mp member).elim (by decide) trailing
  · exact fun member => (List.mem_append.mp member).elim joined trailing

theorem normalizeSafeRelativePath_eq_ok
    (normal : normalizeSafeRelativePath relativePath = .ok normalizedPath)
    : ['.', '.'] ∉ normalizedPath.toList.splitOn '/'
      ∧ normalizedPath = .ofList (normalizeRelative (posixChars relativePath)) := by
  simp only [normalizeSafeRelativePath, checked_ite_eq_ok, reduceCtorEq, and_false, false_or,
    Except.ok.injEq] at normal
  obtain ⟨-, -, -, climbs, rfl⟩ := normal
  rw [String.toList_ofList]
  exact ⟨climbs, rfl⟩

theorem names_of_normalized (normal : normalizeSafeRelativePath relativePath = .ok normalizedPath)
    : ∀ name ∈ pathOf normalizedPath, IsSegment name := by
  obtain ⟨climbs, same⟩ := normalizeSafeRelativePath_eq_ok normal
  intro name member
  obtain ⟨part, named⟩ := List.mem_filter.mp member
  obtain ⟨nonempty, here⟩ := of_decide_eq_true named
  obtain ⟨slash, inside⟩ := subset_of_mem_splitOn part
  refine ⟨nonempty, here, fun up => climbs (up ▸ part), slash, fun backslash => ?_⟩
  have held := inside backslash
  rw [same, String.toList_ofList] at held
  exact backslash_not_mem_normalizeRelative (backslash_not_mem_posixChars relativePath) held

theorem splitOn_segmentChars (named : IsNamePath path)
    : (segmentChars path).splitOn '/' = path :=
  List.splitOn_intercalate '/' (fun name member => (named.names name member).slash)
    named.nonempty

theorem pathOf_joinSegments (named : IsNamePath path) : pathOf (joinSegments path) = path := by
  rw [pathOf, joinSegments, String.toList_ofList]
  change ((segmentChars path).splitOn '/').filter _ = path
  rw [splitOn_segmentChars named, List.filter_eq_self]
  intro name member
  simp [(named.names name member).nonempty, (named.names name member).here]

/-- A path does not end with a separator. -/
theorem getLast?_segmentChars (named : IsNamePath path)
    : (segmentChars path).getLast? ≠ some '/' := by
  obtain ⟨front, last, rfl⟩ := (List.eq_nil_or_concat' path).resolve_left named.nonempty
  have final := named.names last (by simp)
  have other : last.getLast? ≠ some '/' := fun same => final.slash (List.mem_of_getLast? same)
  by_cases alone : front = []
  · rw [alone]
    simpa [segmentChars] using other
  · obtain ⟨char, more, rfl⟩ := List.exists_cons_of_ne_nil final.nonempty
    rw [segmentChars_concat alone, List.getLast?_append, List.getLast?_cons_cons,
      List.getLast?_eq_some_getLast (List.cons_ne_nil char more), Option.some_or,
      ← List.getLast?_eq_some_getLast]
    exact other

theorem normalize_joinSegments (named : IsNamePath path)
    (normal : normalizeSafeRelativePath (joinSegments path) = .ok normalizedPath)
    : normalizedPath = joinSegments path := by
  have plain : '\\' ∉ segmentChars path :=
    backslash_not_mem_segmentChars fun name member => (named.names name member).backslash
  have posix : posixChars (joinSegments path) = segmentChars path := by
    rw [posixChars, joinSegments, String.toList_ofList]
    refine (List.map_congr_left fun char member => if_neg fun same => ?_).trans (List.map_id _)
    exact plain (same ▸ member)
  have nonempty : segmentChars path ≠ [] := by
    intro none
    have split := splitOn_segmentChars named
    rw [none] at split
    have blank := named.names [] (split ▸ by simp)
    exact blank.nonempty rfl
  rw [(normalizeSafeRelativePath_eq_ok normal).2, posix, normalizeRelative,
    splitOn_segmentChars named, normalizeParts_eq named.names, List.nil_append]
  simp only [if_neg nonempty, if_neg (getLast?_segmentChars named), List.append_nil]
  rfl

theorem canonical_keys
    : ∀ key ∈ canonicalDeliverableKeys,
        pathOf key = [key.toList] ∧ getHydratedWorktreePath key = ".ai/" ++ key
        ∧ pathOf (".ai/" ++ key) = [".ai".toList, key.toList] := by
  decide

theorem pathOf_hydrated (plain : SpelledPlainly normalizedPath)
    : pathOf (getHydratedWorktreePath normalizedPath) = hydratedPath (pathOf normalizedPath) := by
  by_cases canonical : isCanonicalDeliverableKey normalizedPath = true
  · have member : normalizedPath ∈ canonicalDeliverableKeys := of_decide_eq_true canonical
    obtain ⟨root, hydrated, below⟩ := canonical_keys normalizedPath member
    have among : [normalizedPath.toList] ∈ canonicalPaths :=
      List.mem_map.mpr ⟨normalizedPath, member, rfl⟩
    rw [hydrated, below, root, hydratedPath, if_pos among]
  · rw [getHydratedWorktreePath, if_neg canonical, hydratedPath, if_neg fun among =>
      canonical (plain among)]

theorem hydratedPath_ne_nil (nonempty : path ≠ []) : hydratedPath path ≠ [] := by
  rw [hydratedPath]
  split
  · exact List.cons_ne_nil _ _
  · exact nonempty

theorem hydratedPath_not_canonical (path : NamePath) : hydratedPath path ∉ canonicalPaths := by
  rw [hydratedPath]
  split
  next among =>
    intro also
    have single : ∀ path ∈ canonicalPaths, path.length = 1 := by
      decide
    have length := single _ also
    rw [List.length_cons, single path among] at length
    omega
  next other => exact other

/-- No canonical deliverable stands at the place of another file's directory. -/
theorem not_prefix_hydratedPath {key other : NamePath} (canonical : key ∈ canonicalPaths)
    (apart : ¬key <+: other)
    : ¬key <+: hydratedPath other := by
  rw [hydratedPath]
  split
  · have names : ∀ path ∈ canonicalPaths, path.head? ≠ some ".ai".toList ∧ path ≠ [] := by
      decide
    obtain ⟨different, nonempty⟩ := names key canonical
    obtain ⟨name, rest, rfl⟩ := List.exists_cons_of_ne_nil nonempty
    intro starts
    exact different (congrArg some (List.cons_prefix_cons.mp starts).1)
  · exact apart

end Keys

namespace ArtifactStore

/-- The bytes of some contents. -/
def bytesOf (contents : CodeUnits) : List Nat :=
  (unitChars contents).flatMap utf8Bytes

section Calls

variable {store next : ArtifactStore} {relativePath normalizedPath key : String}
  {contents : CodeUnits}
  {files : Files} {path : NamePath} {hashFile : FileHash}

theorem resolve_eq_ok
    : resolveArtifactPath files normalizedPath = .ok path
      ↔ files.isBlocked path = false ∧ path = pathOf normalizedPath := by
  simp only [resolveArtifactPath, checked_ite_eq_ok, reduceCtorEq, and_false, false_or,
    Except.ok.injEq, Bool.not_eq_true]
  constructor
  · rintro ⟨free, rfl⟩
    exact ⟨free, rfl⟩
  · rintro ⟨free, rfl⟩
    exact ⟨free, rfl⟩

theorem assertFileTarget_eq_ok (target : assertFileTarget files path relativePath = .ok ())
    : path ≠ [] := by
  rintro rfl
  cases target

theorem removeFile_eq_ok {after : Files} (removed : removeFile files path relativePath = .ok after)
    : path ≠ [] ∧ after = files.unlink path := by
  have nonempty : path ≠ [] := by
    rintro rfl
    cases removed
  rw [removeFile, FileTree.stat_of_ne_nil nonempty] at removed
  refine ⟨nonempty, ?_⟩
  cases found : files path with
  | none =>
      rw [found] at removed
      cases removed
      exact (FileTree.unlink_eq_self found).symm
  | some entry =>
      rw [found] at removed
      cases entry with
      | directory => cases removed
      | file bytes =>
          cases removed
          rfl

theorem write_eq_ok (written : store.write relativePath contents = .ok next)
    : ∃ normalizedPath, normalizeSafeRelativePath relativePath = .ok normalizedPath
        ∧ pathOf normalizedPath ≠ []
        ∧ next = {
          durable := store.durable.put (pathOf normalizedPath) (bytesOf contents)
          worktree := store.worktree.put (pathOf (getHydratedWorktreePath normalizedPath))
            (bytesOf contents)
        } := by
  simp only [write, checked_bind_eq_ok, checked_pure_eq_ok, resolve_eq_ok] at written
  obtain ⟨_, -, normalizedPath, normal, durablePath, ⟨-, rfl⟩, worktreePath, ⟨-, rfl⟩, _,
    target, _, -, rfl⟩ := written
  exact ⟨normalizedPath, normal, assertFileTarget_eq_ok target, rfl⟩

/-- The store without the copies of an artifact. -/
def without (store : ArtifactStore) (normalizedPath : String) : ArtifactStore :=
  let worktree := store.worktree.unlink (pathOf (getHydratedWorktreePath normalizedPath))
  {
    durable := store.durable.unlink (pathOf normalizedPath)
    worktree :=
      if isCanonicalDeliverableKey normalizedPath then worktree.unlink (pathOf normalizedPath)
      else worktree
  }

/-- An invalidation removes the copies at all places. -/
theorem invalidate_eq_ok (invalidated : store.invalidate relativePath = .ok next)
    : ∃ normalizedPath, normalizeSafeRelativePath relativePath = .ok normalizedPath
        ∧ pathOf normalizedPath ≠ []
        ∧ store.worktree.isBlocked (pathOf (getHydratedWorktreePath normalizedPath)) = false
        ∧ next = store.without normalizedPath := by
  simp only [invalidate, checked_bind_eq_ok, checked_pure_eq_ok, resolve_eq_ok] at invalidated
  obtain ⟨normalizedPath, normal, durablePath, ⟨-, rfl⟩, worktreePath, ⟨free, rfl⟩, legacyPaths,
    legacy, durable, removed, worktree, removedAll, rfl⟩ := invalidated
  obtain ⟨nonempty, rfl⟩ := removeFile_eq_ok removed
  refine ⟨normalizedPath, normal, nonempty, free, ?_⟩
  rw [List.foldlM_cons, checked_bind_eq_ok] at removedAll
  obtain ⟨first, removedFirst, removedRest⟩ := removedAll
  obtain ⟨-, rfl⟩ := removeFile_eq_ok removedFirst
  unfold legacyPathsOf at legacy
  split at legacy
  next canonical =>
    cases resolved : resolveArtifactPath store.worktree normalizedPath with
    | error thrown =>
        rw [resolved] at legacy
        cases legacy
    | ok path =>
        rw [resolved] at legacy
        cases legacy
        obtain ⟨-, rfl⟩ := resolve_eq_ok.mp resolved
        rw [List.foldlM_cons, checked_bind_eq_ok] at removedRest
        obtain ⟨last, removedLast, rest⟩ := removedRest
        obtain ⟨-, rfl⟩ := removeFile_eq_ok removedLast
        cases rest
        rw [without, if_pos canonical]
  next other =>
    cases legacy
    cases removedRest
    rw [without, if_neg other]

/-- A migration leaves the worktree as it is, or moves a file at the root, or removes it. -/
theorem migrateLegacy_eq_ok (member : key ∈ canonicalDeliverableKeys)
    (migrated : migrateLegacy hashFile store key = .ok next)
    : next = store
      ∨ store.worktree.isFile [key.toList] = true
        ∧ ∃ worktree, next = { store with worktree := worktree.unlink [key.toList] }
          ∧ (worktree = store.worktree
            ∨ ∃ bytes, worktree = store.worktree.put (hydratedPath [key.toList]) bytes) := by
  obtain ⟨root, -, -⟩ := canonical_keys key member
  have canonical : isCanonicalDeliverableKey key = true := decide_eq_true member
  have below := pathOf_hydrated fun _ => canonical
  rw [root] at below
  simp only [migrateLegacy, checked_bind_eq_ok, resolve_eq_ok] at migrated
  obtain ⟨rootPath, ⟨-, rfl⟩, moved⟩ := migrated
  rw [root, FileTree.stat_of_ne_nil (List.cons_ne_nil _ _)] at moved
  cases found : store.worktree [key.toList] with
  | none =>
      rw [found] at moved
      cases moved
      exact .inl rfl
  | some entry =>
      rw [found] at moved
      cases entry with
      | directory => cases moved
      | file bytes =>
          have file : store.worktree.isFile [key.toList] = true :=
            FileTree.isFile_iff.mpr ⟨List.cons_ne_nil _ _, bytes, found⟩
          refine .inr ⟨file, ?_⟩
          simp only [checked_bind_eq_ok, resolve_eq_ok] at moved
          obtain ⟨destPath, ⟨-, rfl⟩, moved⟩ := moved
          rw [below] at moved
          cases there : store.worktree.stat (hydratedPath [key.toList]) with
          | none =>
              rw [there] at moved
              cases moved
              exact ⟨_, rfl, .inr ⟨bytes, rfl⟩⟩
          | some entry =>
              rw [there] at moved
              cases entry with
              | directory => cases moved
              | file held =>
                  refine ⟨store.worktree, ?_, .inl rfl⟩
                  simp only [checked_ite_eq_ok, checked_pure_eq_ok, checked_bind_eq_ok] at moved
                  obtain ⟨-, same⟩ | ⟨-, _, -, ⟨-, same⟩ | ⟨-, threw⟩⟩ := moved
                  · exact same.symm
                  · exact same.symm
                  · cases threw

/-- A durable file is copied to its place, unless it is there. -/
theorem hydrateArtifact_eq_ok {bytes : List Nat} (collisionFree : Function.Injective hashFile)
    (named : IsNamePath path) (held : store.durable path = some (.file bytes))
    (hydrated : hydrateArtifact hashFile store path = .ok next)
    : next.durable = store.durable
      ∧ next.worktree (hydratedPath path) = some (.file bytes)
      ∧ (next.worktree = store.worktree
        ∨ next.worktree = store.worktree.put (hydratedPath path) bytes) := by
  have plain : SpelledPlainly (joinSegments path) := by
    intro among
    rw [pathOf_joinSegments named] at among
    obtain ⟨key, member, rfl⟩ := List.mem_map.mp among
    have same : joinSegments [key.toList] = key := by
      simp [joinSegments]
    rw [same]
    exact decide_eq_true member
  simp only [hydrateArtifact, checked_bind_eq_ok, resolve_eq_ok] at hydrated
  obtain ⟨normalizedPath, normal, worktreePath, ⟨-, rfl⟩, copied⟩ := hydrated
  obtain rfl := normalize_joinSegments named normal
  rw [pathOf_hydrated plain, pathOf_joinSegments named, held] at copied
  rw [FileTree.stat_of_ne_nil (hydratedPath_ne_nil named.nonempty)] at copied
  cases found : store.worktree (hydratedPath path) with
  | none =>
      rw [found] at copied
      cases copied
      exact ⟨rfl, FileTree.put_self, .inr rfl⟩
  | some entry =>
      rw [found] at copied
      cases entry with
      | directory => cases copied
      | file there =>
          simp only [checked_ite_eq_ok, checked_pure_eq_ok] at copied
          obtain ⟨same, rfl⟩ | ⟨-, rfl⟩ := copied
          · simp only [filesHaveSameContents, Bool.and_eq_true, decide_eq_true_eq] at same
            obtain rfl := collisionFree same.2
            exact ⟨rfl, found, .inl rfl⟩
          · exact ⟨rfl, FileTree.put_self, .inr rfl⟩

end Calls

-----------------------------------------------------------------------------------------
-- Histories
-----------------------------------------------------------------------------------------

inductive Call
  | write (relativePath : String) (contents : CodeUnits)
  | invalidate (relativePath : String)
  | hydrateWorktree (listed : List NamePath)

def step (hashFile : FileHash) (store : ArtifactStore) : Call → ArtifactStore → Prop
  | .write relativePath contents, next => store.write relativePath contents = .ok next
  | .invalidate relativePath, next => store.invalidate relativePath = .ok next
  | .hydrateWorktree listed, next =>
      Lists store.durable listed ∧ store.hydrateWorktree hashFile listed = .ok next

/-- The calls that succeed, from a durable root without files and any worktree. -/
def system (hashFile : FileHash) : System ArtifactStore Call :=
  {
    initial := fun store => store.durable = FileTree.empty
    step := step hashFile
  }

/-- The path of the durable copy that a key names. -/
def keyPath? (relativePath : String) : Option NamePath :=
  (normalizeSafeRelativePath relativePath).toOption.map pathOf

/-- What the last call on a path was: a write of some contents, or an invalidation. -/
def lastCall (path : NamePath) : List Call → Option (Option CodeUnits)
  | [] => none
  | .write relativePath contents :: earlier =>
      if keyPath? relativePath = some path then some (some contents) else lastCall path earlier
  | .invalidate relativePath :: earlier =>
      if keyPath? relativePath = some path then some none else lastCall path earlier
  | .hydrateWorktree _ :: earlier => lastCall path earlier

/-- Neither of two paths leads through the other. -/
def Unrelated (path other : NamePath) : Prop :=
  ¬path <+: other ∧ ¬other <+: path

/-- No file of a key stands in the way of a file of another. -/
structure Apart (path other : NamePath) : Prop where
  durable : Unrelated path other
  worktree : Unrelated (hydratedPath path) (hydratedPath other)

/-- No legacy deliverable would be moved into the way of a path. -/
def NoLegacyFor (store : ArtifactStore) (path : NamePath) : Prop :=
  ∀ key ∈ canonicalPaths, key ≠ path → ¬Unrelated (hydratedPath key) (hydratedPath path)
    → store.worktree.isFile key = false

/-- A key names a deliverable plainly, and keeps apart from the keys of earlier calls. -/
structure Fits (earlier : List Call) (normalizedPath : String) : Prop where
  plain : SpelledPlainly normalizedPath
  apart : ∀ other, (lastCall other earlier).isSome = true → other ≠ pathOf normalizedPath
    → Apart (pathOf normalizedPath) other

/-- The calls whose keys fit. -/
def KeepsApart (earlier : List Call) (store : ArtifactStore) : Call → Prop
  | .write relativePath _ =>
      ∀ normalizedPath, normalizeSafeRelativePath relativePath = .ok normalizedPath
        → Fits earlier normalizedPath
  | .invalidate relativePath =>
      ∀ normalizedPath, normalizeSafeRelativePath relativePath = .ok normalizedPath
        → Fits earlier normalizedPath ∧ store.NoLegacyFor (pathOf normalizedPath)
  | .hydrateWorktree _ => True

/-- Nothing is left of a path, and nothing stands in its way. -/
structure Cleared (store : ArtifactStore) (path : NamePath) : Prop where
  durable : store.durable path = none
  worktree : store.worktree (hydratedPath path) = none
  free : ∀ front, front <+: hydratedPath path → front ≠ hydratedPath path
    → store.worktree.isFile front = false
  root : path ∈ canonicalPaths → store.worktree path = none
  legacy : store.NoLegacyFor path

/-- What the store holds is what the last calls left. -/
structure Remembers (calls : List Call) (store : ArtifactStore) : Prop where
  named : ∀ path, (lastCall path calls).isSome = true → IsNamePath path
  apart : ∀ path other, (lastCall path calls).isSome = true
    → (lastCall other calls).isSome = true → path ≠ other → Apart path other
  written : ∀ path contents, lastCall path calls = some (some contents)
    → store.durable path = some (.file (bytesOf contents))
  only : ∀ path, store.durable.isFile path = true
    → ∃ contents, lastCall path calls = some (some contents)
  cleared : ∀ path, lastCall path calls = some none → store.Cleared path

section Histories

variable {store next : ArtifactStore} {calls : List Call} {path other : NamePath}
  {bytes : List Nat} {hashFile : FileHash}

theorem Apart.symm (apart : Apart path other) : Apart other path :=
  ⟨apart.durable.symm, apart.worktree.symm⟩

/-- A file that is written elsewhere in the worktree leaves a path cleared. -/
theorem Cleared.put (cleared : store.Cleared path)
    (unrelated : Unrelated (hydratedPath path) (hydratedPath other))
    (root : path ∈ canonicalPaths → ¬path <+: other)
    (durable : next.durable path = none)
    (same : next.worktree = store.worktree.put (hydratedPath other) bytes)
    : next.Cleared path := by
  refine ⟨durable, ?_, ?_, ?_, ?_⟩
  · rw [same, FileTree.put_of_not_prefix unrelated.1]
    exact cleared.worktree
  · intro front starts different
    have elsewhere : front ≠ hydratedPath other := by
      rintro rfl
      exact unrelated.2 starts
    rw [same, FileTree.isFile_put_of_ne elsewhere]
    exact cleared.free front starts different
  · intro canonical
    have apart := not_prefix_hydratedPath canonical (root canonical)
    rw [same, FileTree.put_of_not_prefix apart]
    exact cleared.root canonical
  · intro key member different related
    have elsewhere : key ≠ hydratedPath other := by
      rintro rfl
      exact hydratedPath_not_canonical other member
    rw [same, FileTree.isFile_put_of_ne elsewhere]
    exact cleared.legacy key member different related

theorem Cleared.unlink (cleared : store.Cleared path) (durable : next.durable path = none)
    (same : next.worktree = store.worktree.unlink other)
    : next.Cleared path := by
  refine ⟨durable, ?_, ?_, ?_, ?_⟩
  · rw [same]
    exact FileTree.unlink_eq_none cleared.worktree
  · intro front starts different
    rw [same]
    exact FileTree.isFile_unlink_eq_false (cleared.free front starts different)
  · intro canonical
    rw [same]
    exact FileTree.unlink_eq_none (cleared.root canonical)
  · intro key member different related
    rw [same]
    exact FileTree.isFile_unlink_eq_false (cleared.legacy key member different related)

/-- What has no legacy deliverable in its way stays cleared when one is moved. -/
theorem Cleared.migrate {key : String} (cleared : store.Cleared path)
    (member : key ∈ canonicalDeliverableKeys)
    (migrated : migrateLegacy hashFile store key = .ok next)
    : next.Cleared path := by
  obtain rfl | ⟨file, worktree, rfl, moved⟩ := migrateLegacy_eq_ok member migrated
  · exact cleared
  · have canonical : [key.toList] ∈ canonicalPaths := List.mem_map.mpr ⟨key, member, rfl⟩
    rcases moved with rfl | ⟨bytes, rfl⟩
    · exact cleared.unlink cleared.durable rfl
    · have different : [key.toList] ≠ path := by
        rintro rfl
        obtain ⟨-, held, found⟩ := FileTree.isFile_iff.mp file
        rw [cleared.root canonical] at found
        cases found
      have unrelated : Unrelated (hydratedPath [key.toList]) (hydratedPath path) := by
        by_contra related
        have absent := cleared.legacy _ canonical different related
        rw [file] at absent
        cases absent
      have written : ({
          store with worktree := store.worktree.put (hydratedPath [key.toList]) bytes
        } : ArtifactStore).Cleared path := by
        refine cleared.put unrelated.symm (fun among starts => ?_) cleared.durable rfl
        have single : ∀ path ∈ canonicalPaths, path.length = 1 := by
          decide
        exact different (starts.eq_of_length (single path among)).symm
      exact written.unlink cleared.durable rfl

theorem migrateAll_spec {keys : List String} (known : ∀ key ∈ keys, key ∈ canonicalDeliverableKeys)
    (migrated : keys.foldlM (migrateLegacy hashFile) store = .ok next)
    : next.durable = store.durable ∧ ∀ path, store.Cleared path → next.Cleared path := by
  induction keys generalizing store with
  | nil =>
      cases migrated
      exact ⟨rfl, fun _ => id⟩
  | cons key keys ih =>
      obtain ⟨first, others⟩ := List.forall_mem_cons.mp known
      rw [List.foldlM_cons, checked_bind_eq_ok] at migrated
      obtain ⟨between, moved, rest⟩ := migrated
      obtain ⟨durable, cleared⟩ := ih others rest
      have kept : between.durable = store.durable := by
        obtain rfl | ⟨-, worktree, rfl, -⟩ := migrateLegacy_eq_ok first moved <;> rfl
      exact ⟨durable.trans kept, fun path before => cleared path (before.migrate first moved)⟩

/-- The loop over the durable files puts each at its place, by induction over them. -/
theorem hydrateAll_spec (collisionFree : Function.Injective hashFile) {listed : List NamePath}
    (held : ∀ path ∈ listed, IsNamePath path ∧ ∃ bytes, store.durable path = some (.file bytes))
    (apart : listed.Pairwise Apart)
    (hydrated : listed.foldlM (hydrateArtifact hashFile) store = .ok next)
    : next.durable = store.durable
      ∧ (∀ path, (∀ other ∈ listed, Apart path other) →
          (store.Cleared path → next.Cleared path)
          ∧ next.worktree (hydratedPath path) = store.worktree (hydratedPath path))
      ∧ ∀ path ∈ listed, next.worktree (hydratedPath path) = store.durable path := by
  induction listed generalizing store with
  | nil =>
      cases hydrated
      exact ⟨rfl, fun _ _ => ⟨id, rfl⟩, fun _ member => absurd member List.not_mem_nil⟩
  | cons first listed ih =>
      obtain ⟨⟨named, bytes, found⟩, others⟩ := List.forall_mem_cons.mp held
      obtain ⟨beside, apart⟩ := List.pairwise_cons.mp apart
      rw [List.foldlM_cons, checked_bind_eq_ok] at hydrated
      obtain ⟨between, copied, rest⟩ := hydrated
      obtain ⟨kept, there, change⟩ := hydrateArtifact_eq_ok collisionFree named found copied
      obtain ⟨durable, outside, inside⟩ := ih (kept ▸ others) apart rest
      refine ⟨durable.trans kept, fun path elsewhere => ?_, ?_⟩
      · obtain ⟨first, later⟩ := List.forall_mem_cons.mp elsewhere
        obtain ⟨cleared, same⟩ := outside path later
        rcases change with unchanged | written
        · rw [same, unchanged]
          have equal : between = store := by
            cases between
            cases store
            simp_all
          exact ⟨equal ▸ cleared, rfl⟩
        · rw [same, written, FileTree.put_of_not_prefix first.worktree.1]
          refine ⟨fun before => cleared ?_, rfl⟩
          exact before.put first.worktree (fun _ => first.durable.1) (kept ▸ before.durable) written
      · refine List.forall_mem_cons.mpr ⟨?_, fun path member => (inside path member).trans ?_⟩
        · rw [(outside first beside).2, there, found]
        · rw [kept]

section Steps

variable {relativePath normalizedPath : String} {contents : CodeUnits}

theorem keyPath?_eq (normal : normalizeSafeRelativePath relativePath = .ok normalizedPath)
    : keyPath? relativePath = some (pathOf normalizedPath) := by
  rw [keyPath?, normal]
  rfl

theorem lastCall_write (normal : normalizeSafeRelativePath relativePath = .ok normalizedPath)
    : lastCall path (.write relativePath contents :: calls)
      = if path = pathOf normalizedPath then some (some contents) else lastCall path calls := by
  rw [lastCall, keyPath?_eq normal]
  simp only [Option.some.injEq, eq_comm]

theorem lastCall_invalidate (normal : normalizeSafeRelativePath relativePath = .ok normalizedPath)
    : lastCall path (.invalidate relativePath :: calls)
      = if path = pathOf normalizedPath then some none else lastCall path calls := by
  rw [lastCall, keyPath?_eq normal]
  simp only [Option.some.injEq, eq_comm]

/-- Where a call is about one path, the paths of the calls are that one and the earlier ones. -/
theorem Remembers.names {after : List Call} {last : Option CodeUnits}
    (remembers : Remembers calls store) (fits : Fits calls normalizedPath)
    (nonempty : pathOf normalizedPath ≠ [])
    (normal : normalizeSafeRelativePath relativePath = .ok normalizedPath)
    (calls_eq : ∀ path, lastCall path after
      = if path = pathOf normalizedPath then some last else lastCall path calls)
    : (∀ path, (lastCall path after).isSome = true → IsNamePath path)
      ∧ ∀ path other, (lastCall path after).isSome = true
        → (lastCall other after).isSome = true → path ≠ other → Apart path other := by
  constructor
  · intro path used
    rw [calls_eq] at used
    split at used
    next same => exact same ▸ ⟨nonempty, names_of_normalized normal⟩
    · exact remembers.named path used
  · intro path other used used' different
    rw [calls_eq] at used used'
    split at used
    next same =>
      subst same
      rw [if_neg different.symm] at used'
      exact fits.apart other used' different.symm
    next elsewhere =>
      split at used'
      next same => exact same ▸ (fits.apart path used (same ▸ different)).symm
      · exact remembers.apart path other used used' different

/-- A write is remembered. -/
theorem Remembers.write (remembers : Remembers calls store)
    (meets : KeepsApart calls store (.write relativePath contents))
    (written : store.write relativePath contents = .ok next)
    : Remembers (.write relativePath contents :: calls) next := by
  obtain ⟨normalizedPath, normal, nonempty, rfl⟩ := write_eq_ok written
  have fits := meets normalizedPath normal
  have last (path : NamePath) := @lastCall_write calls path relativePath _ contents normal
  obtain ⟨named, apart⟩ := remembers.names fits nonempty normal last
  refine ⟨named, apart, ?_, ?_, ?_⟩
  · intro path held same
    rw [last] at same
    split at same
    next here =>
      cases same
      rw [here]
      exact FileTree.put_self
    next elsewhere =>
      exact (FileTree.put_file_of_ne elsewhere).mpr (remembers.written path held same)
  · intro path file
    rw [last]
    split
    · exact ⟨contents, rfl⟩
    next elsewhere =>
      refine remembers.only path ?_
      rwa [FileTree.isFile_put_of_ne elsewhere] at file
  · intro path same
    rw [last] at same
    split at same
    · cases same
    next elsewhere =>
      have cleared := remembers.cleared path same
      have beside := (fits.apart path (by rw [same]; rfl) elsewhere).symm
      refine cleared.put beside.worktree (fun _ => beside.durable.1) ?_
        (congrArg (store.worktree.put · _) (pathOf_hydrated fits.plain))
      exact (FileTree.put_of_not_prefix beside.durable.1).trans cleared.durable

/-- What is cleared stays cleared when other copies are removed. -/
theorem Cleared.without (cleared : store.Cleared path)
    : (store.without normalizedPath).Cleared path := by
  have durable : store.durable.unlink (pathOf normalizedPath) path = none :=
    FileTree.unlink_eq_none cleared.durable
  have first : ({
      durable := store.durable.unlink (pathOf normalizedPath)
      worktree := store.worktree.unlink (pathOf (getHydratedWorktreePath normalizedPath))
    } : ArtifactStore).Cleared path :=
    cleared.unlink durable rfl
  unfold ArtifactStore.without
  by_cases canonical : isCanonicalDeliverableKey normalizedPath = true
  · simp only [if_pos canonical]
    exact first.unlink durable rfl
  · simp only [if_neg canonical]
    exact first

/-- Without its copies, an artifact is cleared. -/
theorem cleared_without (plain : SpelledPlainly normalizedPath)
    (free : store.worktree.isBlocked (hydratedPath (pathOf normalizedPath)) = false)
    (legacy : store.NoLegacyFor (pathOf normalizedPath))
    : (store.without normalizedPath).Cleared (pathOf normalizedPath) := by
  have below := pathOf_hydrated plain
  have absent {path : NamePath} (none : store.worktree.isFile path = false)
      : (store.without normalizedPath).worktree.isFile path = false := by
    unfold ArtifactStore.without
    by_cases canonical : isCanonicalDeliverableKey normalizedPath = true
    · simp only [if_pos canonical]
      exact FileTree.isFile_unlink_eq_false (FileTree.isFile_unlink_eq_false none)
    · simp only [if_neg canonical]
      exact FileTree.isFile_unlink_eq_false none
  refine ⟨FileTree.unlink_self, ?_, ?_, ?_, ?_⟩
  · unfold ArtifactStore.without
    rw [below]
    by_cases canonical : isCanonicalDeliverableKey normalizedPath = true
    · simp only [if_pos canonical]
      exact FileTree.unlink_eq_none FileTree.unlink_self
    · simp only [if_neg canonical]
      exact FileTree.unlink_self
  · intro front starts different
    exact absent (FileTree.isBlocked_eq_false.mp free front starts different)
  · intro among
    unfold ArtifactStore.without
    simp only [if_pos (plain among)]
    exact FileTree.unlink_self
  · intro key member different related
    exact absent (legacy key member different related)

/-- An invalidation is remembered. -/
theorem Remembers.invalidate (remembers : Remembers calls store)
    (meets : KeepsApart calls store (.invalidate relativePath))
    (invalidated : store.invalidate relativePath = .ok next)
    : Remembers (.invalidate relativePath :: calls) next := by
  obtain ⟨normalizedPath, normal, nonempty, free, rfl⟩ := invalidate_eq_ok invalidated
  obtain ⟨fits, legacy⟩ := meets normalizedPath normal
  have last (path : NamePath) := @lastCall_invalidate calls path relativePath _ normal
  obtain ⟨named, apart⟩ := remembers.names fits nonempty normal last
  rw [pathOf_hydrated fits.plain] at free
  refine ⟨named, apart, ?_, ?_, ?_⟩
  · intro path held same
    rw [last] at same
    split at same
    · cases same
    next elsewhere =>
      exact (FileTree.unlink_of_ne elsewhere).trans (remembers.written path held same)
  · intro path file
    obtain ⟨elsewhere, held⟩ := FileTree.isFile_unlink file
    rw [last, if_neg elsewhere]
    exact remembers.only path held
  · intro path same
    rw [last] at same
    split at same
    next here =>
      subst here
      exact cleared_without fits.plain free legacy
    · exact (remembers.cleared path same).without

/-- A hydration is remembered, and puts each durable file at its place. -/
theorem Remembers.hydrate (collisionFree : Function.Injective hashFile)
    (remembers : Remembers calls store) {listed : List NamePath}
    (lists : Lists store.durable listed)
    (hydrated : store.hydrateWorktree hashFile listed = .ok next)
    : Remembers (.hydrateWorktree listed :: calls) next
      ∧ ∀ path, next.durable.isFile path = true
        → next.worktree (hydratedPath path) = next.durable path := by
  rw [hydrateWorktree, checked_bind_eq_ok] at hydrated
  obtain ⟨migrated, moved, copied⟩ := hydrated
  obtain ⟨durable, stays⟩ := migrateAll_spec (fun _ member => member) moved
  have used (path : NamePath) (member : path ∈ listed)
      : ∃ contents, lastCall path calls = some (some contents) :=
    remembers.only path ((lists.mem_iff path).mp member)
  have some_of_used {path : NamePath} {last : Option CodeUnits}
      (same : lastCall path calls = some last)
      : (lastCall path calls).isSome = true := by
    rw [same]
    rfl
  have held (path : NamePath) (member : path ∈ listed)
      : IsNamePath path ∧ ∃ bytes, migrated.durable path = some (.file bytes) := by
    obtain ⟨contents, last⟩ := used path member
    rw [durable]
    exact ⟨remembers.named path (some_of_used last), _, remembers.written path contents last⟩
  have apart : listed.Pairwise Apart := by
    refine lists.nodup.imp_of_mem fun {path other} member other_member different => ?_
    obtain ⟨_, last⟩ := used path member
    obtain ⟨_, other_last⟩ := used other other_member
    exact remembers.apart path other (some_of_used last) (some_of_used other_last) different
  obtain ⟨kept, outside, inside⟩ := hydrateAll_spec collisionFree held apart copied
  have same : next.durable = store.durable := kept.trans durable
  refine ⟨⟨remembers.named, remembers.apart, ?_, ?_, ?_⟩, ?_⟩
  · intro path contents last
    rw [same]
    exact remembers.written path contents last
  · intro path file
    rw [same] at file
    exact remembers.only path file
  · intro path last
    refine (outside path fun other member => ?_).1 (stays path (remembers.cleared path last))
    obtain ⟨_, other_last⟩ := used other member
    refine remembers.apart path other (some_of_used last) (some_of_used other_last) ?_
    rintro rfl
    cases last.symm.trans other_last
  · intro path file
    rw [same] at file
    rw [inside path ((lists.mem_iff path).mpr file), kept]

end Steps

section Runs

theorem remembers_of_run (collisionFree : Function.Injective hashFile)
    (run : (system hashFile).RunWhere KeepsApart calls store)
    : Remembers calls store := by
  refine run.invariant Remembers (fun store empty => ?_)
    fun calls store call next remembers meets taken => ?_
  · have empty : store.durable = FileTree.empty := empty
    have unused (path : NamePath) : (lastCall path []).isSome = false := rfl
    constructor
    · intro path used
      cases (unused path).symm.trans used
    · intro path _ used
      cases (unused path).symm.trans used
    · intro path _ last
      cases last
    · intro path file
      obtain ⟨-, _, held⟩ := FileTree.isFile_iff.mp file
      rw [empty] at held
      cases held
    · intro path last
      cases last
  · cases call with
    | write relativePath contents => exact remembers.write meets taken
    | invalidate relativePath => exact remembers.invalidate meets taken
    | hydrateWorktree listed => exact (remembers.hydrate collisionFree taken.1 taken.2).1

theorem Remembers.durable_free (remembers : Remembers calls store)
    (used : (lastCall path calls).isSome = true)
    : store.durable.isBlocked path = false := by
  refine FileTree.isBlocked_eq_false.mpr fun front starts different => ?_
  refine Bool.eq_false_iff.mpr fun file => ?_
  obtain ⟨contents, last⟩ := remembers.only front file
  have apart := remembers.apart front path (by rw [last]; rfl) used different
  exact apart.durable.1 starts

variable {runId key normalizedPath : String} {contents : CodeUnits}

theorem Remembers.read_written (remembers : Remembers calls store)
    (normal : normalizeSafeRelativePath key = .ok normalizedPath)
    (last : lastCall (pathOf normalizedPath) calls = some (some contents))
    : store.read runId key = .ok (toWellFormed contents) := by
  have used : (lastCall (pathOf normalizedPath) calls).isSome = true := by
    rw [last]
    rfl
  have free := resolve_eq_ok.mpr ⟨remembers.durable_free used, rfl⟩
  have found : store.durable.stat (pathOf normalizedPath) = _ :=
    (FileTree.stat_of_ne_nil (remembers.named _ used).nonempty).trans
      (remembers.written _ _ last)
  have held : readFileIfPresent store.durable (pathOf normalizedPath) key
      = .ok (some (toWellFormed contents)) := by
    rw [readFileIfPresent, found]
    simp only [bytesOf, utf8Chars_flatMap, toWellFormed]
  simp only [read, checked_bind_eq_ok]
  exact ⟨_, normal, _, free, _, held, rfl⟩

theorem root_free (among : path ∈ canonicalPaths) : store.worktree.isBlocked path = false := by
  have single : ∀ path ∈ canonicalPaths, path.length = 1 := by
    decide
  refine FileTree.isBlocked_eq_false.mpr fun front starts different => ?_
  have shorter : front.length ≤ 1 := single path among ▸ starts.length_le
  have other : front.length ≠ path.length := fun same => different (starts.eq_of_length same)
  rw [single path among] at other
  have empty : front = [] := List.eq_nil_of_length_eq_zero (by omega)
  rw [empty]
  rfl

/-- Of what is cleared, nothing is found in the worktree, however the key is spelled. -/
theorem Cleared.lookup (cleared : store.Cleared (pathOf normalizedPath))
    (nonempty : pathOf normalizedPath ≠ [])
    : store.worktree.isBlocked (pathOf (getHydratedWorktreePath normalizedPath)) = false
      ∧ store.worktree.stat (pathOf (getHydratedWorktreePath normalizedPath)) = none := by
  by_cases plain : SpelledPlainly normalizedPath
  · rw [pathOf_hydrated plain, FileTree.stat_of_ne_nil (hydratedPath_ne_nil nonempty)]
    exact ⟨FileTree.isBlocked_eq_false.mpr cleared.free, cleared.worktree⟩
  · obtain ⟨among, other⟩ := Classical.not_imp.mp plain
    rw [getHydratedWorktreePath, if_neg other, FileTree.stat_of_ne_nil nonempty]
    exact ⟨root_free among, cleared.root among⟩

/-- What was invalidated last is not found. -/
theorem Remembers.read_invalidated (remembers : Remembers calls store)
    (normal : normalizeSafeRelativePath key = .ok normalizedPath)
    (last : lastCall (pathOf normalizedPath) calls = some none)
    : store.read runId key = .error (.artifactNotFound runId key) := by
  have used : (lastCall (pathOf normalizedPath) calls).isSome = true := by
    rw [last]
    rfl
  have nonempty := (remembers.named _ used).nonempty
  have cleared := remembers.cleared _ last
  have free := resolve_eq_ok.mpr ⟨remembers.durable_free used, rfl⟩
  have absent {files : Files} {path : NamePath} (none : files.stat path = none)
      : readFileIfPresent files path key = .ok Option.none := by
    rw [readFileIfPresent, none]
  have durable := absent ((FileTree.stat_of_ne_nil nonempty).trans cleared.durable)
  obtain ⟨there, hydrated⟩ := cleared.lookup nonempty
  have place := resolve_eq_ok.mpr ⟨there, rfl⟩
  simp only [read, checked_bind_eq_error]
  refine .inr ⟨_, normal, .inr ⟨_, free, .inr ⟨_, durable, ?_⟩⟩⟩
  simp only [checked_bind_eq_error]
  refine .inr ⟨_, place, .inr ⟨_, absent hydrated, ?_⟩⟩
  by_cases canonical : isCanonicalDeliverableKey normalizedPath = true
  · obtain ⟨rooted, -, -⟩ := canonical_keys normalizedPath (of_decide_eq_true canonical)
    have among : pathOf normalizedPath ∈ canonicalPaths :=
      List.mem_map.mpr ⟨normalizedPath, of_decide_eq_true canonical, rooted.symm⟩
    have unblocked : store.worktree.isBlocked (pathOf normalizedPath) = false := root_free among
    have legacy := resolve_eq_ok.mpr ⟨unblocked, rfl⟩
    have none := (FileTree.stat_of_ne_nil nonempty).trans (cleared.root among)
    simp only [if_pos canonical, checked_bind_eq_error]
    exact .inr ⟨_, legacy, .inr ⟨_, absent none, rfl⟩⟩
  · simp only [if_neg canonical]
    rfl

/-- As long as the keys keep apart, a read gives what the last call on its path left, in
whatever order artifacts are written, invalidated and hydrated; a surrogate alone comes back as the
replacement character.
-/
theorem read_last_call (collisionFree : Function.Injective hashFile)
    (run : (system hashFile).RunWhere KeepsApart calls store) (named : keyPath? key = some path)
    : (∀ contents, lastCall path calls = some (some contents) →
        store.read runId key = .ok (toWellFormed contents))
      ∧ (lastCall path calls = some none →
        store.read runId key = .error (.artifactNotFound runId key)) := by
  have remembers := remembers_of_run collisionFree run
  rw [keyPath?] at named
  cases normal : normalizeSafeRelativePath key with
  | error thrown =>
      rw [normal] at named
      cases named
  | ok normalizedPath =>
      rw [normal] at named
      cases named
      exact ⟨fun _ => remembers.read_written normal, remembers.read_invalidated normal⟩

/-- After a hydration, each artifact that was written last stands at its place in the worktree,
and the durable files are those artifacts.
-/
theorem hydrated_last_calls (collisionFree : Function.Injective hashFile)
    {listed : List NamePath}
    (run : (system hashFile).RunWhere KeepsApart (.hydrateWorktree listed :: calls) store)
    : (∀ path contents, lastCall path calls = some (some contents) →
        store.worktree (hydratedPath path) = some (.file (bytesOf contents)))
      ∧ ∀ path, store.durable.isFile path = true
        ↔ ∃ contents, lastCall path calls = some (some contents) := by
  cases run with
  | next earlier meets taken =>
      have remembers := remembers_of_run collisionFree earlier
      obtain ⟨after, placed⟩ := remembers.hydrate collisionFree taken.1 taken.2
      have file {path : NamePath} {contents : CodeUnits}
          (last : lastCall path calls = some (some contents))
          : store.durable.isFile path = true :=
        FileTree.isFile_iff.mpr
          ⟨(after.named path (by rw [lastCall, last]; rfl)).nonempty, _, after.written _ _ last⟩
      refine ⟨fun path contents last => ?_, fun path => ⟨after.only path, ?_⟩⟩
      · rw [placed path (file last)]
        exact after.written path contents last
      · intro written
        obtain ⟨contents, last⟩ := written
        exact file last

section Instances

/-- A digest without collisions. -/
def listingHash (bytes : List Nat) : String :=
  (Encodable.encode bytes).repr

theorem listingHash_injective : Function.Injective listingHash :=
  repr_injective.comp Encodable.encode_injective

/-- The store after a design was written. -/
def storeWithDesign : ArtifactStore :=
  {
    durable := FileTree.empty.put ["design.md".toList] (bytesOf (codeUnits "ready"))
    worktree := FileTree.empty.put [".ai".toList, "design.md".toList] (bytesOf (codeUnits "ready"))
  }

theorem storeWithDesign_run
    : (system listingHash).RunWhere KeepsApart [.write "design.md" (codeUnits "ready")]
        storeWithDesign := by
  have start : (system listingHash).RunWhere KeepsApart [] ⟨FileTree.empty, FileTree.empty⟩ :=
    .start rfl
  refine start.next ?_ rfl
  intro normalizedPath normal
  cases normal
  exact ⟨fun _ => rfl, fun other used => by cases used⟩

/-- The store after it was invalidated again. -/
def storeWithoutDesign : ArtifactStore :=
  {
    durable := storeWithDesign.durable.unlink ["design.md".toList]
    worktree := storeWithDesign.worktree.unlink [".ai".toList, "design.md".toList]
  }

theorem read_design_back
    : storeWithDesign.read "run" "./design.md" = .ok (codeUnits "ready")
      ∧ storeWithoutDesign.read "run" "design.md"
        = .error (.artifactNotFound "run" "design.md") := by
  have invalidated : (system listingHash).RunWhere KeepsApart
      [.invalidate "design.md", .write "design.md" (codeUnits "ready")] storeWithoutDesign := by
    refine storeWithDesign_run.next ?_ rfl
    intro normalizedPath normal
    cases normal
    have absent : ∀ key ∈ canonicalPaths, storeWithDesign.worktree.isFile key = false := by
      decide
    refine ⟨⟨fun _ => rfl, fun other used different => ?_⟩,
      fun key member _ _ => absent key member⟩
    have other_key : keyPath? "design.md" ≠ some other := fun same =>
      different (Option.some.inj same).symm
    rw [lastCall, if_neg other_key] at used
    cases used
  have written : storeWithDesign.read "run" "./design.md"
      = .ok (toWellFormed (codeUnits "ready")) :=
    (read_last_call listingHash_injective storeWithDesign_run rfl).1 _ rfl
  rw [toWellFormed_codeUnits] at written
  exact ⟨written, (read_last_call listingHash_injective invalidated rfl).2 rfl⟩

theorem design_in_worktree
    : storeWithDesign.worktree [".ai".toList, "design.md".toList]
        = some (.file (bytesOf (codeUnits "ready"))) := by
  have lists : Lists storeWithDesign.durable [["design.md".toList]] := by
    refine ⟨List.nodup_singleton _, fun path => ?_⟩
    rw [List.mem_singleton]
    by_cases same : path = ["design.md".toList]
    · rw [same]
      exact iff_of_true rfl rfl
    · have other : FileTree.isFile storeWithDesign.durable path = FileTree.empty.isFile path :=
        FileTree.isFile_put_of_ne same
      rw [other]
      refine iff_of_false same fun file => ?_
      obtain ⟨-, _, found⟩ := FileTree.isFile_iff.mp file
      cases found
  have hydrated : (system listingHash).RunWhere KeepsApart
      [.hydrateWorktree [["design.md".toList]], .write "design.md" (codeUnits "ready")]
      storeWithDesign :=
    storeWithDesign_run.next trivial ⟨lists, rfl⟩
  exact (hydrated_last_calls listingHash_injective hydrated).1 ["design.md".toList] _ rfl

end Instances

end Runs

end Histories

end ArtifactStore

end AiSdlc.Infrastructure
