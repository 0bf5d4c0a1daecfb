import AiSdlc.Domain.TaskPath
import AiSdlc.Js.Checked
import AiSdlc.Js.FileTree
import AiSdlc.Js.Lines
import AiSdlc.Js.UnitTexts
import AiSdlc.Transition.System

/-! The store of a run's artifacts: a durable copy of each, and one in the worktree, where the
canonical deliverables stand in a directory of their own.
-/

namespace AiSdlc.Infrastructure

open AiSdlc.Js
open AiSdlc.Domain

/-- A path as the names that it goes through. -/
abbrev NamePath : Type :=
  List (List Char)

abbrev Files : Type :=
  FileTree (List Char) (List Nat)

inductive ArtifactStoreError
  | invalidArtifactPath (relativePath reason : String)
  | artifactNotFound (runId relativePath : String)
  | failed (message : String)

structure ArtifactStore where
  durable : Files
  worktree : Files

def canonicalDeliverableKeys : List String :=
  ["issue.md", "issue-comments.md", "design.md", "plan.md", "task-manifest.json"]

def isCanonicalDeliverableKey (key : String) : Bool :=
  key ∈ canonicalDeliverableKeys

def getHydratedWorktreePath (relativePath : String) : String :=
  if isCanonicalDeliverableKey relativePath then ".ai/" ++ relativePath else relativePath

/-- The loop of `normalize` over the parts of a relative path. -/
def normalizeParts (stack : NamePath) : NamePath → NamePath
  | [] => stack
  | part :: rest =>
      if part = [] ∨ part = ['.'] then normalizeParts stack rest
      else if part = ['.', '.'] ∧ stack ≠ [] ∧ stack.getLast? ≠ some ['.', '.'] then
        normalizeParts stack.dropLast rest
      else normalizeParts (stack ++ [part]) rest

/-- `normalize` of a relative path. -/
def normalizeRelative (path : List Char) : List Char :=
  let joined := segmentChars (normalizeParts [] (path.splitOn '/'))
  let trailing := if path.getLast? = some '/' then ['/'] else []
  if joined = [] then '.' :: trailing else joined ++ trailing

def normalizeSafeRelativePath (relativePath : String) : Except ArtifactStoreError String :=
  let invalid (reason : String) : Except ArtifactStoreError String :=
    .error (.invalidArtifactPath relativePath reason)
  if isBlank relativePath then invalid "path must not be empty"
  else
    -- Backslashes first, so that they escape no check.
    let posixPath := posixChars relativePath
    if posixPath.head? = some '/' then invalid "absolute paths are not allowed"
    else
      let normalizedPath := normalizeRelative posixPath
      if normalizedPath = ['.'] then invalid "path must not resolve to the root"
      else if ['.', '.'] ∈ normalizedPath.splitOn '/' then
        invalid "path may not escape the artifact root"
      else .ok (.ofList normalizedPath)

/-- `resolve` below a root, of a path that does not leave it. -/
def pathOf (normalizedPath : String) : NamePath :=
  (normalizedPath.toList.splitOn '/').filter fun name => name ≠ [] ∧ name ≠ ['.']

/-- Without symbolic links, a path inside the root only fails where it leads through a file. -/
def resolveArtifactPath (files : Files) (normalizedPath : String)
    : Except ArtifactStoreError NamePath :=
  let path := pathOf normalizedPath
  if files.isBlocked path then .error (.failed "ENOTDIR") else .ok path

/-- Contents that have a null character are refused. -/
def assertText (contents : CodeUnits) : Except ArtifactStoreError Unit :=
  if 0 ∈ contents then .error (.failed "binary files are not supported")
  else .ok ()

def assertFileTarget (files : Files) (path : NamePath) (relativePath : String)
    : Except ArtifactStoreError Unit :=
  match files.stat path with
  | some .directory => .error (.invalidArtifactPath relativePath "path points to a directory")
  | _ => .ok ()

def readFileIfPresent (files : Files) (path : NamePath) (relativePath : String)
    : Except ArtifactStoreError (Option CodeUnits) :=
  match files.stat path with
  | none => .ok none
  | some .directory => .error (.invalidArtifactPath relativePath "path points to a directory")
  | some (.file bytes) => .ok (some (codeUnits (.ofList (utf8Chars none bytes))))

/-- The digest of the bytes of a file. -/
abbrev FileHash : Type :=
  List Nat → String

def filesHaveSameContents (hashFile : FileHash) (left right : List Nat) : Bool :=
  left.length = right.length && hashFile left = hashFile right

namespace ArtifactStore

variable (store : ArtifactStore)

def write (relativePath : String) (contents : CodeUnits)
    : Except ArtifactStoreError ArtifactStore := do
  assertText contents
  let normalizedPath ← normalizeSafeRelativePath relativePath
  let durablePath ← resolveArtifactPath store.durable normalizedPath
  let worktreePath ← resolveArtifactPath store.worktree (getHydratedWorktreePath normalizedPath)
  assertFileTarget store.durable durablePath relativePath
  assertFileTarget store.worktree worktreePath relativePath
  let bytes := (unitChars contents).flatMap utf8Bytes
  return {
    durable := store.durable.put durablePath bytes
    worktree := store.worktree.put worktreePath bytes
  }

def read (runId relativePath : String) : Except ArtifactStoreError CodeUnits := do
  let normalizedPath ← normalizeSafeRelativePath relativePath
  let durablePath ← resolveArtifactPath store.durable normalizedPath
  match ← readFileIfPresent store.durable durablePath relativePath with
  | some contents => return contents
  | none =>
      let worktreePath ←
        resolveArtifactPath store.worktree (getHydratedWorktreePath normalizedPath)
      match ← readFileIfPresent store.worktree worktreePath relativePath with
      | some contents => return contents
      | none =>
          if isCanonicalDeliverableKey normalizedPath then
            let legacyPath ← resolveArtifactPath store.worktree normalizedPath
            match ← readFileIfPresent store.worktree legacyPath relativePath with
            | some contents => return contents
            | none => throw (.artifactNotFound runId relativePath)
          else throw (.artifactNotFound runId relativePath)

/-- Removes one of the copies, where there is one. -/
def removeFile (files : Files) (path : NamePath) (relativePath : String)
    : Except ArtifactStoreError Files :=
  match files.stat path with
  | none => .ok files
  | some .directory => .error (.invalidArtifactPath relativePath "path points to a directory")
  | some (.file _) => .ok (files.unlink path)

/-- The path at the root of the worktree where older versions put a deliverable. -/
def legacyPathsOf (worktree : Files) (normalizedPath : String)
    : Except ArtifactStoreError (List NamePath) :=
  if isCanonicalDeliverableKey normalizedPath then
    (resolveArtifactPath worktree normalizedPath).map fun path => [path]
  else .ok []

def invalidate (relativePath : String) : Except ArtifactStoreError ArtifactStore := do
  let normalizedPath ← normalizeSafeRelativePath relativePath
  let durablePath ← resolveArtifactPath store.durable normalizedPath
  let worktreePath ← resolveArtifactPath store.worktree (getHydratedWorktreePath normalizedPath)
  let legacyPaths ← legacyPathsOf store.worktree normalizedPath
  let durable ← removeFile store.durable durablePath relativePath
  let worktree ← (worktreePath :: legacyPaths).foldlM
    (fun worktree path => removeFile worktree path relativePath) store.worktree
  return { durable, worktree }

/-- Moves a deliverable from the root of the worktree to where it belongs. -/
def migrateLegacy (hashFile : FileHash) (store : ArtifactStore) (key : String)
    : Except ArtifactStoreError ArtifactStore := do
  let rootPath ← resolveArtifactPath store.worktree key
  match store.worktree.stat rootPath with
  | none => return store
  | some .directory =>
      throw (.invalidArtifactPath key "legacy deliverable at root is not a regular file")
  | some (.file root) =>
      let destRelativePath := getHydratedWorktreePath key
      let destPath ← resolveArtifactPath store.worktree destRelativePath
      match store.worktree.stat destPath with
      | none => return { store with worktree := (store.worktree.put destPath root).unlink rootPath }
      | some .directory =>
          throw (.invalidArtifactPath destRelativePath
            "destination deliverable path is not a regular file")
      | some (.file dest) =>
          if filesHaveSameContents hashFile root dest then
            return { store with worktree := store.worktree.unlink rootPath }
          else
            -- A stray durable copy below the directory is not an authoritative one.
            let durableKeyPath ← resolveArtifactPath store.durable key
            if store.durable.isFile durableKeyPath then
              return { store with worktree := store.worktree.unlink rootPath }
            else
              throw (.failed ("Conflict hydrating deliverable '" ++ key
                ++ "': differing content and no durable copy exists"))

/-- Copies an artifact that was listed to the worktree, unless the copy there is the same. -/
def hydrateArtifact (hashFile : FileHash) (store : ArtifactStore) (path : NamePath)
    : Except ArtifactStoreError ArtifactStore := do
  let relativePath := joinSegments path
  let normalizedPath ← normalizeSafeRelativePath relativePath
  let worktreeRelativePath := getHydratedWorktreePath normalizedPath
  let worktreePath ← resolveArtifactPath store.worktree worktreeRelativePath
  match store.durable path with
  | some (.file bytes) =>
      match store.worktree.stat worktreePath with
      | some .directory =>
          throw (.invalidArtifactPath worktreeRelativePath "path points to a directory")
      | some (.file held) =>
          if filesHaveSameContents hashFile bytes held then return store
          else return { store with worktree := store.worktree.put worktreePath bytes }
      | none => return { store with worktree := store.worktree.put worktreePath bytes }
  | _ => throw (.failed "ENOENT")

/-- `listRootArtifacts` lists the files below a root, in the order of a walk that is left open. -/
structure Lists (files : Files) (listed : List NamePath) : Prop where
  nodup : listed.Nodup
  mem_iff : ∀ path, path ∈ listed ↔ files.isFile path = true

def hydrateWorktree (hashFile : FileHash) (listed : List NamePath)
    : Except ArtifactStoreError ArtifactStore := do
  let migrated ← canonicalDeliverableKeys.foldlM (migrateLegacy hashFile) store
  listed.foldlM (hydrateArtifact hashFile) migrated

end ArtifactStore

end AiSdlc.Infrastructure
