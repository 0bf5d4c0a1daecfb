import Mathlib.Algebra.GroupWithZero.Nat
import AiSdlc.Js.Groups
import AiSdlc.Js.TextOperations

/-! The parser of unified diffs, which tells the lines apart by how they begin. -/

namespace AiSdlc.Application

open AiSdlc.Js

structure ParsedHunk where
  oldStart : Nat
  oldLines : Nat
  newStart : Nat
  newLines : Nat
  body : String
  additions : Nat
  deletions : Nat
  isNew : Bool
  isDeleted : Bool
  isBinary : Bool
  identity : String
  deriving DecidableEq, Repr

/-- The hunks of each file, in the order in which the files were first met. -/
abbrev FileHunks : Type :=
  Groups String ParsedHunk

structure ParsedUnifiedDiff where
  hunks : FileHunks
  files : List String
  diffStat : String
  parseError : Option String := none
  deriving DecidableEq, Repr

structure HunkHeader where
  oldStart : Nat
  oldLines : Nat
  newStart : Nat
  newLines : Nat
  deriving DecidableEq, Repr

def generateHunkIdentity (path : String) (header : HunkHeader) : String :=
  s!"{path}:{header.oldStart},{header.oldLines}:{header.newStart},{header.newLines}"

/-- The lines of a text, as characters. -/
def diffLines (text : String) : List (List Char) :=
  text.toList.splitOn '\n'

/-- `lines.join('\n')`. -/
def joinLines (lines : List (List Char)) : String :=
  .ofList (['\n'].intercalate lines)

/-- `line.startsWith(start)`. -/
def begins (line : List Char) (start : String) : Bool :=
  start.toList.isPrefixOf line

/-- The digits at the start, as a number, and what follows them. -/
def readNumber (chars : List Char) : Option (Nat × List Char) :=
  match chars.takeWhile Char.isDigit with
  | [] => none
  | digits => some (Nat.ofDigitChars 10 digits 0, chars.dropWhile Char.isDigit)

/-- The start of a range and its length, which is one where it is left out. -/
def readRange (chars : List Char) : Option ((Nat × Nat) × List Char) := do
  let (start, rest) ← readNumber chars
  match rest with
  | ',' :: more =>
      match readNumber more with
      | some (count, after) => some ((start, count), after)
      | none => some ((start, 1), rest)
  | _ => some ((start, 1), rest)

def parseHunkHeader (line : List Char) : Option HunkHeader := do
  let rest ← if begins line "@@ -" then some (line.drop 4) else none
  let ((oldStart, oldLines), rest) ← readRange rest
  let rest ← if begins rest " +" then some (rest.drop 2) else none
  let ((newStart, newLines), rest) ← readRange rest
  if begins rest " @@" then some { oldStart, oldLines, newStart, newLines } else none

/-- Replaces a pair of characters by one, from left to right. -/
def replacePair (first second replacement : Char) : List Char → List Char
  | [] => []
  | [char] => [char]
  | char :: next :: rest =>
      if char = first ∧ next = second then
        replacement :: replacePair first second replacement rest
      else char :: replacePair first second replacement (next :: rest)

/-- The inner part of a quoted path: first quotes, and then backslashes are unescaped. -/
def unescapePath (inner : List Char) : List Char :=
  replacePair '\\' '\\' '\\' (replacePair '\\' '"' '"' inner)

def unquotePath (path : String) : String :=
  match path.toList with
  | ['"'] => ""
  | '"' :: rest =>
      if rest.getLast? = some '"' then .ofList (unescapePath rest.dropLast) else path
  | _ => path

/-- `path.replace(/^…/, '')` for a start of a path. -/
def dropStart (start : String) (path : String) : String :=
  if start.toList.isPrefixOf path.toList then .ofList (path.toList.drop start.length) else path

/-- The path of a header line, after the first four characters. -/
def headerPath (start : String) (line : List Char) : Option String :=
  let path := trim (.ofList (line.drop 4))
  if path = "/dev/null" then none else some (dropStart start (unquotePath path))

structure OldNewPaths where
  oldPath : Option String := none
  newPath : Option String := none
  deriving DecidableEq, Repr

def OldNewPaths.read (paths : OldNewPaths) (line : List Char) : OldNewPaths :=
  if begins line "--- " then { paths with oldPath := headerPath "a/" line }
  else if begins line "+++ " then { paths with newPath := headerPath "b/" line }
  else paths

def parseOldNewPaths (headerLines : List (List Char)) : OldNewPaths :=
  headerLines.foldl OldNewPaths.read {}

/-- The characters before the last occurrence of ` b/` that has some before it, among those that
`.` matches.
-/
def beforeLastNewPath : List Char → Option (List Char)
  | [] => none
  | char :: rest =>
      if isDotCharacter char then
        match beforeLastNewPath rest with
        | some before => some (char :: before)
        | none => if begins rest " b/" then some [char] else none
      else none

def parseDiffGitLine (line : List Char) : Option String := do
  let rest ← if begins line "diff --git " then some (line.drop 11) else none
  let rest ←
    if begins rest "\"a/" then some (rest.drop 3)
    else if begins rest "a/" then some (rest.drop 2) else none
  let before ← beforeLastNewPath rest
  pure (unquotePath (.ofList before))

-----------------------------------------------------------------------------------------
-- The scan over the lines
-----------------------------------------------------------------------------------------

/-- What the parser knows after some lines. -/
structure DiffScan where
  hunks : FileHunks := []
  files : List String := []
  currentFile : Option String := none
  currentHunkHeader : Option HunkHeader := none
  currentHunkBody : List (List Char) := []
  headerLines : List (List Char) := []
  additions : Nat := 0
  deletions : Nat := 0
  isBinary : Bool := false
  isNew : Bool := false
  isDeleted : Bool := false
  parseError : Option String := none
  deriving DecidableEq, Repr

/-- `finalizeHunk` for the current hunk, where there is one of a named file. -/
def DiffScan.finalizeHunk (scan : DiffScan) : DiffScan :=
  match truthy scan.currentFile, scan.currentHunkHeader with
  | some file, some header =>
      {
        scan with
        hunks := scan.hunks.push file {
          oldStart := header.oldStart
          oldLines := header.oldLines
          newStart := header.newStart
          newLines := header.newLines
          body := joinLines scan.currentHunkBody
          additions := scan.additions
          deletions := scan.deletions
          isNew := scan.isNew
          isDeleted := scan.isDeleted
          isBinary := scan.isBinary
          identity := generateHunkIdentity file header
        }
      }
  | _, _ => scan

/-- The file that a line of a file header names; what it tells about a new or a deleted file is
forgotten with `startFile`.
-/
def DiffScan.nameFile (scan : DiffScan) (line : List Char) : DiffScan :=
  if begins line "diff --git" then
    { scan with currentFile := parseDiffGitLine line, headerLines := [line] }
  else if begins line "--- " then
    let { oldPath, newPath } := parseOldNewPaths [line]
    {
      scan with
      headerLines := scan.headerLines ++ [line]
      currentFile :=
        if oldPath = none ∧ newPath ≠ none then newPath
        else if oldPath ≠ none ∧ newPath = none then oldPath
        else (truthy oldPath).or scan.currentFile
    }
  else scan

/-- The next file begins without a hunk. -/
def DiffScan.startFile (scan : DiffScan) (line : List Char) : DiffScan :=
  {
    scan.finalizeHunk.nameFile line with
    currentHunkHeader := none
    currentHunkBody := []
    additions := 0
    deletions := 0
    isBinary := false
    isNew := false
    isDeleted := false
  }

def DiffScan.nameNewFile (scan : DiffScan) (line : List Char) : DiffScan :=
  let headerLines := scan.headerLines ++ [line]
  let { oldPath, newPath } := parseOldNewPaths headerLines
  {
    scan with
    headerLines
    currentFile := (truthy newPath).or scan.currentFile
    isNew := scan.isNew || (oldPath = none && newPath.isSome)
    isDeleted := scan.isDeleted || (oldPath.isSome && newPath = none)
  }

/-- The next hunk of the file begins; a header that cannot be read is told, the first one. -/
def DiffScan.startHunk (scan : DiffScan) (index : Nat) (line : List Char) : DiffScan :=
  match parseHunkHeader line with
  | some header =>
      {
        scan.finalizeHunk with
        currentHunkHeader := some header
        currentHunkBody := [line]
        additions := 0
        deletions := 0
      }
  | none =>
      let malformed := s!"Malformed hunk header at line {index + 1}: {String.ofList line}"
      { scan with parseError := scan.parseError.or (some malformed) }

def isAdditionLine (line : List Char) : Bool :=
  begins line "+" && !begins line "+++"

def isDeletionLine (line : List Char) : Bool :=
  begins line "-" && !begins line "---"

/-- A line of the current hunk. -/
def DiffScan.hunkLine (scan : DiffScan) (line : List Char) : DiffScan :=
  {
    scan with
    currentHunkBody := scan.currentHunkBody ++ [line]
    additions := scan.additions + if isAdditionLine line then 1 else 0
    deletions :=
      scan.deletions + if !isAdditionLine line && isDeletionLine line then 1 else 0
  }

/-- A binary file has one hunk without lines. -/
def DiffScan.binaryFile (scan : DiffScan) (file : String) (line : List Char) : DiffScan :=
  {
    scan with
    isBinary := true
    files := if file ∈ scan.files then scan.files else scan.files ++ [file]
    hunks := scan.hunks.push file {
      oldStart := 0
      oldLines := 0
      newStart := 0
      newLines := 0
      body := joinLines [line]
      additions := 0
      deletions := 0
      isNew := false
      isDeleted := false
      isBinary := true
      identity := generateHunkIdentity file ⟨0, 0, 0, 0⟩
    }
  }

/-- A line outside of every hunk, which starts no file. -/
def DiffScan.outerLine (scan : DiffScan) (line : List Char) : DiffScan :=
  match truthy scan.currentFile with
  | some file =>
      if includes (.ofList line) "Binary files" then scan.binaryFile file line else scan
  | none => scan

def DiffScan.read (scan : DiffScan) (index : Nat) (line : List Char) : DiffScan :=
  if begins line "diff --git" || begins line "--- " || begins line "diff --" then
    scan.startFile line
  else if begins line "+++ " then scan.nameNewFile line
  else if begins line "@@" then scan.startHunk index line
  else if scan.currentHunkHeader.isSome then scan.hunkLine line
  else scan.outerLine line

/-- The lines one after the other, with their positions. -/
def DiffScan.readAll (scan : DiffScan) (index : Nat) : List (List Char) → DiffScan
  | [] => scan
  | line :: rest => (scan.read index line).readAll (index + 1) rest

/-- The line of a file in the statistics. -/
def diffStatLine (path : String) (hunks : List ParsedHunk) : String :=
  if hunks.head?.any (·.isBinary) then s!"{path} | Binary"
  else
    let additions := (hunks.map (·.additions)).sum
    let deletions := (hunks.map (·.deletions)).sum
    s!"{path} | {additions} +, {deletions} -"

def DiffScan.result (scan : DiffScan) : ParsedUnifiedDiff :=
  let paths := scan.hunks.map (·.1)
  {
    hunks := scan.hunks
    files := scan.files ++ paths.filter (· ∉ scan.files)
    diffStat := joinTexts "\n" (scan.hunks.map fun (path, hunks) => diffStatLine path hunks)
    parseError := scan.parseError
  }

def parseUnifiedDiff (diff : String) : ParsedUnifiedDiff :=
  if isBlank diff then { hunks := [], files := [], diffStat := "" }
  else (DiffScan.readAll {} 0 (diffLines diff)).finalizeHunk.result

def findHunkForLine (hunks : FileHunks) (path : String) (line : Int) : Option ParsedHunk :=
  (hunks.get path).bind fun hunkList =>
    hunkList.find? fun hunk => hunk.newStart ≤ line && line < hunk.newStart + hunk.newLines

end AiSdlc.Application
