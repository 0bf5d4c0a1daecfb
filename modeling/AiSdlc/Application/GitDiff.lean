import AiSdlc.Application.QuotedPaths

/-! Diffs as git writes them: files with their headers, the hunks of each, and the lines of a hunk,
which may hold any text.
-/

namespace AiSdlc.Application

open AiSdlc.Js

/-- A text within one line. -/
abbrev LineText : Type :=
  {chars : List Char // '\n' ∉ chars}

/-- A line without text. -/
def LineText.empty : LineText :=
  ⟨[], by decide⟩

abbrev GitPath : Type :=
  {path : String // path ≠ ""}

/-- The abbreviated name of a blob. -/
abbrev BlobName : Type :=
  {chars : List Char // ∀ char ∈ chars, char ∈ "0123456789abcdef".toList}

/-- A line of a hunk; the last one tells that the line before it is not ended. -/
inductive GitDiffLine
  | context (text : LineText)
  | addition (text : LineText)
  | deletion (text : LineText)
  | noNewline
  deriving DecidableEq

def GitDiffLine.chars : GitDiffLine → List Char
  | .context text => ' ' :: text.1
  | .addition text => '+' :: text.1
  | .deletion text => '-' :: text.1
  | .noNewline => "\\ No newline at end of file".toList

def GitDiffLine.isAddition : GitDiffLine → Bool
  | .addition _ => true
  | _ => false

def GitDiffLine.isDeletion : GitDiffLine → Bool
  | .deletion _ => true
  | _ => false

def GitDiffLine.isContext : GitDiffLine → Bool
  | .context _ => true
  | _ => false

/-- A hunk, of which the ranges are as long as its lines tell; the heading is what git writes
after them.
-/
structure GitDiffHunk where
  oldStart : Nat
  newStart : Nat
  heading : LineText
  lines : List GitDiffLine
  deriving DecidableEq

namespace GitDiffHunk

def additions (hunk : GitDiffHunk) : Nat :=
  hunk.lines.countP (·.isAddition)

def deletions (hunk : GitDiffHunk) : Nat :=
  hunk.lines.countP (·.isDeletion)

def ranges (hunk : GitDiffHunk) : HunkHeader where
  oldStart := hunk.oldStart
  oldLines := hunk.lines.countP (·.isContext) + hunk.deletions
  newStart := hunk.newStart
  newLines := hunk.lines.countP (·.isContext) + hunk.additions

end GitDiffHunk

/-- A range, with its length where that is not one. -/
def rangeChars (start count : Nat) : List Char :=
  start.repr.toList ++ if count = 1 then [] else ',' :: count.repr.toList

def hunkHeaderLine (ranges : HunkHeader) (heading : List Char) : List Char :=
  "@@ -".toList ++ (rangeChars ranges.oldStart ranges.oldLines ++ (" +".toList
    ++ (rangeChars ranges.newStart ranges.newLines ++ (" @@".toList ++ heading))))

def GitDiffHunk.rendered (hunk : GitDiffHunk) : List (List Char) :=
  hunkHeaderLine hunk.ranges hunk.heading.1 :: hunk.lines.map (·.chars)

inductive FileMode
  | regular
  | executable
  | symbolicLink
  | submodule
  deriving DecidableEq, Repr

def FileMode.chars : FileMode → List Char
  | .regular => "100644".toList
  | .executable => "100755".toList
  | .symbolicLink => "120000".toList
  | .submodule => "160000".toList

/-- What happened to a file. -/
inductive GitChange
  | added (mode : FileMode)
  | deleted (mode : FileMode)
  | modified (modes : Option (FileMode × FileMode))
  | renamed (oldPath : GitPath) (similarity : Nat) (modes : Option (FileMode × FileMode))
  deriving DecidableEq

/-- The blobs before and after, with the mode where it stays. -/
structure BlobRange where
  before : BlobName
  after : BlobName
  mode : Option FileMode
  deriving DecidableEq

/-- A file of a diff: a deleted one under its old path, every other one under its new path. -/
structure GitDiffFile where
  path : GitPath
  change : GitChange
  blobs : Option BlobRange
  hunks : List GitDiffHunk
  deriving DecidableEq

/-- A path is quoted where a character of it is escaped. -/
def needsQuotes (path : List Char) : Bool :=
  path.any fun char => quoteChar char ≠ [char]

/-- A name, after `a/` or `b/` or alone. -/
def nameChars (start : List Char) (path : String) : List Char :=
  if needsQuotes path.toList then '"' :: (start ++ path.toList).flatMap quoteChar ++ ['"']
  else start ++ path.toList

/-- A name in the lines before the hunks, where a tab ends one with blanks. -/
def labelChars (name : List Char) : List Char :=
  if ' ' ∈ name then name ++ ['\t'] else name

def modeLines : Option (FileMode × FileMode) → List (List Char)
  | none => []
  | some (before, after) => ["old mode ".toList ++ before.chars, "new mode ".toList ++ after.chars]

def BlobRange.rendered (blobs : BlobRange) : List Char :=
  "index ".toList ++ (blobs.before.1 ++ (['.', '.'] ++ (blobs.after.1
    ++ (blobs.mode.map fun mode => ' ' :: mode.chars).getD [])))

namespace GitDiffFile

def oldPath (file : GitDiffFile) : String :=
  match file.change with
  | .renamed oldPath _ _ => oldPath.1
  | _ => file.path.1

def isAdded (file : GitDiffFile) : Bool :=
  match file.change with
  | .added _ => true
  | _ => false

def isDeleted (file : GitDiffFile) : Bool :=
  match file.change with
  | .deleted _ => true
  | _ => false

/-- The first line of a file. -/
def gitLine (file : GitDiffFile) : List Char :=
  "diff --git ".toList ++ (nameChars ['a', '/'] file.oldPath
    ++ ' ' :: nameChars ['b', '/'] file.path.1)

/-- The lines that tell what happened. -/
def changeLines (file : GitDiffFile) : List (List Char) :=
  match file.change with
  | .added mode => ["new file mode ".toList ++ mode.chars]
  | .deleted mode => ["deleted file mode ".toList ++ mode.chars]
  | .modified modes => modeLines modes
  | .renamed oldPath similarity modes =>
      modeLines modes
      ++ [
        "similarity index ".toList ++ (similarity.repr.toList ++ ['%']),
        "rename from ".toList ++ nameChars [] oldPath.1,
        "rename to ".toList ++ nameChars [] file.path.1
      ]

def extendedLines (file : GitDiffFile) : List (List Char) :=
  file.changeLines ++ file.blobs.toList.map (·.rendered)

def oldLine (file : GitDiffFile) : List Char :=
  "--- ".toList
  ++ if file.isAdded then "/dev/null".toList else labelChars (nameChars ['a', '/'] file.oldPath)

def newLine (file : GitDiffFile) : List Char :=
  "+++ ".toList
  ++ if file.isDeleted then "/dev/null".toList else labelChars (nameChars ['b', '/'] file.path.1)

/-- The lines of a file; without hunks there are only those that tell what happened. -/
def rendered (file : GitDiffFile) : List (List Char) :=
  file.gitLine :: file.extendedLines
  ++ if file.hunks = [] then []
    else file.oldLine :: file.newLine :: file.hunks.flatMap (·.rendered)

end GitDiffFile

/-- What `git diff` writes, without the last line break, which the runner of git removes. -/
def renderDiff (files : List GitDiffFile) : String :=
  joinLines (files.flatMap (·.rendered))

end AiSdlc.Application
