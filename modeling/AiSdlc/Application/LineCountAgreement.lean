import Mathlib.Algebra.BigOperators.Group.List.Basic
import AiSdlc.Application.ListedChanges
import AiSdlc.Application.SectionNames

/-! When the scanner and the parser count the changed lines of a path alike, told by the names and
the lines of the diff.
-/

namespace AiSdlc.Application

open AiSdlc.Js
open AiSdlc.Domain

/-- The changed lines of a path. -/
def changesUnder (files : List GitDiffFile) (path : String) : Nat :=
  ((files.filter (·.path.1 = path)).map (·.changes)).sum

/-- The scanner counts the changed lines of the path, and so does the parser. -/
def CountsAgree (files : List GitDiffFile) (path : String) : Prop :=
  let count := getFileDiffLineCount (renderDiff files) path
  let parsed := parseUnifiedDiff (renderDiff files)
  count.total = changesUnder files path ∧ count.total = FileHunks.changesUnder parsed.hunks path

namespace GitDiffFile

/-- The changed lines of the path are plain, and both names of the file are read where there are
any; of another file the scanner and the parser count none under the path.
-/
structure CountedRight (file : GitDiffFile) (path : String) : Prop where
  own :
    file.path.1 = path → file.changes ≠ 0
    → file.names path = true ∧ file.ReadBack ∧ file.Plain
  unscanned :
    file.path.1 ≠ path → file.names path = true
    → ∀ line ∈ file.body, line.isChanged = true → line.isOverlooked = true
  unlisted :
    file.path.1 ≠ path
    → ∀ before hunk after, file.hunks = before ++ hunk :: after
      → nameAfter file.readName (before.flatMap (·.lines) ++ hunk.shown) = some path
      → ∀ line ∈ hunk.shown, line.isListed = false

/-- The changed lines of the path that the scanner does not count. -/
def missed (file : GitDiffFile) (path : String) : Nat :=
  if file.path.1 ≠ path then 0
  else if file.names path then file.overlooked else file.changes

/-- The changed lines of another path that it counts. -/
def foreign (file : GitDiffFile) (path : String) : Nat :=
  if file.path.1 ≠ path && file.names path then file.changes - file.overlooked else 0

/-- The changed lines of the path that the parser does not list there. -/
def unlisted (file : GitDiffFile) (path : String) : Nat :=
  if file.path.1 = path then file.changes - file.listedUnder path else 0

/-- The changed lines of another path that it lists there. -/
def mislisted (file : GitDiffFile) (path : String) : Nat :=
  if file.path.1 = path then 0 else file.listedUnder path

end GitDiffFile

section Listed

variable {name : Option String} {hunks : List GitDiffHunk} {file : GitDiffFile} {path : String}
  {line : GitDiffLine} {lines : List GitDiffLine} {listed : List (Option String × Nat)}

theorem nameAfter_append (name : Option String) (lines more : List GitDiffLine)
    : nameAfter name (lines ++ more) = nameAfter (nameAfter name lines) more :=
  List.foldl_append

/-- What is listed comes from a hunk, under the name that the lines up to its end leave, by
induction over the hunks.
-/
theorem mem_listing {entry : Option String × Nat}
    : entry ∈ listing name hunks
      ↔ ∃ before hunk after, hunks = before ++ hunk :: after
        ∧ entry
          = (nameAfter name (before.flatMap (·.lines) ++ hunk.shown), hunk.listedChanges) := by
  induction hunks generalizing name with
  | nil => simp [listing]
  | cons first rest ih =>
      rw [listing, List.mem_cons, ih]
      constructor
      · rintro (rfl | ⟨before, hunk, after, rfl, rfl⟩)
        · exact ⟨[], first, rest, rfl, rfl⟩
        · refine ⟨first :: before, hunk, after, rfl, ?_⟩
          rw [List.flatMap_cons, List.append_assoc, nameAfter_append name first.lines]
      · rintro ⟨before, hunk, after, split, rfl⟩
        cases before with
        | nil =>
            obtain ⟨rfl, rfl⟩ := List.cons.inj split
            exact .inl rfl
        | cons second others =>
            obtain ⟨rfl, rfl⟩ := List.cons.inj split
            refine .inr ⟨others, hunk, after, rfl, ?_⟩
            rw [List.flatMap_cons, List.append_assoc, nameAfter_append name first.lines]

theorem changesIn_eq_zero
    : changesIn listed path = 0 ↔ ∀ entry ∈ listed, entry.1 = some path → entry.2 = 0 := by
  unfold changesIn
  rw [List.sum_eq_zero_iff]
  constructor
  · intro none entry member named
    exact none _ (List.mem_map.mpr ⟨entry, List.mem_filter.mpr ⟨member, by simp [named]⟩, rfl⟩)
  · intro none count member
    obtain ⟨entry, shown, rfl⟩ := List.mem_map.mp member
    obtain ⟨within, named⟩ := List.mem_filter.mp shown
    exact none entry within (by simpa using named)

theorem listedUnder_eq_zero
    : file.listedUnder path = 0
      ↔ ∀ before hunk after, file.hunks = before ++ hunk :: after
        → nameAfter file.readName (before.flatMap (·.lines) ++ hunk.shown) = some path
        → ∀ line ∈ hunk.shown, line.isListed = false := by
  have counted (hunk : GitDiffHunk)
      : hunk.listedChanges = 0 ↔ ∀ line ∈ hunk.shown, line.isListed = false := by
    unfold GitDiffHunk.listedChanges
    simp only [List.countP_eq_zero, Bool.not_eq_true]
  unfold GitDiffFile.listedUnder
  rw [changesIn_eq_zero]
  constructor
  · intro none before hunk after split named
    exact (counted hunk).mp (none _ (mem_listing.mpr ⟨before, hunk, after, split, rfl⟩) named)
  · intro none entry member named
    obtain ⟨before, hunk, after, split, rfl⟩ := mem_listing.mp member
    exact (counted hunk).mpr (none before hunk after split named)

theorem changesIn_listing_le
    : changesIn (listing name hunks) path ≤ (hunks.flatMap (·.lines)).countP (·.isListed) := by
  induction hunks generalizing name with
  | nil => exact Nat.le_refl _
  | cons hunk rest ih =>
      have shown : hunk.listedChanges ≤ hunk.lines.countP (·.isListed) :=
        (List.takeWhile_prefix _).sublist.countP_le
      have later := @ih (nameAfter name hunk.lines)
      unfold changesIn at later ⊢
      rw [listing, List.filter_cons, List.flatMap_cons, List.countP_append]
      split
      · rw [List.map_cons, List.sum_cons]
        omega
      · omega

theorem listedUnder_le_listed : file.listedUnder path ≤ file.body.countP (·.isListed) :=
  changesIn_listing_le

theorem listedUnder_le_changes : file.listedUnder path ≤ file.changes :=
  listedUnder_le_listed.trans
    (List.countP_mono_left fun _ _ listed => (Bool.and_eq_true_iff.mp listed).1)

theorem GitDiffLine.unnamed_of_plain (plain : line.Plain)
    : line.endsHunk = false ∧ line.givesName = false := by
  cases line with
  | context text => exact ⟨rfl, rfl⟩
  | noNewline => exact ⟨rfl, rfl⟩
  | addition text =>
      refine ⟨rfl, eq_false_of_ne_true fun gives => ?_⟩
      have unlisted := isListed_of_givesName gives
      rw [GitDiffLine.isListed, decide_eq_true plain, Bool.and_true] at unlisted
      exact Bool.false_ne_true unlisted.symm
  | deletion text =>
      refine ⟨eq_false_of_ne_true fun ends => ?_, rfl⟩
      have dashes : begins text.1 "--" = true := by
        have starts : begins ('-' :: text.1) "--- " = true := ends
        exact @begins_tail text.1 '-' "--- " "--" [' '] rfl starts
      rw [GitDiffLine.Plain, dashes] at plain
      exact Bool.false_ne_true plain.symm

theorem nameAfter_of_plain (plain : ∀ line ∈ lines, line.Plain) : nameAfter name lines = name := by
  induction lines with
  | nil => rfl
  | cons line rest ih =>
      obtain ⟨kept, unnamed⟩ := GitDiffLine.unnamed_of_plain (plain line List.mem_cons_self)
      have same : nameAfter name (line :: rest) = nameAfter (line.rename name) rest := rfl
      rw [same, rename_of_listed line name kept unnamed]
      exact ih fun next member => plain next (List.mem_cons_of_mem _ member)

/-- Hunks of plain lines are listed under the name of the file, by induction over them. -/
theorem changesIn_of_plain (plain : ∀ hunk ∈ hunks, ∀ line ∈ hunk.lines, line.Plain)
    : changesIn (listing name hunks) path
      = if name = some path then (hunks.flatMap (·.lines)).countP (·.isChanged) else 0 := by
  induction hunks with
  | nil => exact (ite_self _).symm
  | cons hunk rest ih =>
      have here := plain hunk List.mem_cons_self
      have later := ih fun next member => plain next (List.mem_cons_of_mem _ member)
      have shown : hunk.shown = hunk.lines := by
        refine List.takeWhile_eq_self_iff.mpr fun line member => ?_
        rw [(GitDiffLine.unnamed_of_plain (here line member)).1]
        rfl
      have counted : hunk.listedChanges = hunk.lines.countP (·.isChanged) := by
        unfold GitDiffHunk.listedChanges
        rw [shown]
        refine List.countP_congr fun line member => ?_
        rw [GitDiffLine.isListed, decide_eq_true (here line member), Bool.and_true]
      unfold changesIn at later ⊢
      rw [listing, shown, nameAfter_of_plain here, counted, List.filter_cons, List.flatMap_cons,
        List.countP_append]
      by_cases named : name = some path
      · rw [if_pos named] at later ⊢
        rw [if_pos (by simp [named]), List.map_cons, List.sum_cons, later]
      · rw [if_neg named] at later ⊢
        rw [if_neg (by simp [named]), later]

/-- The changed lines of a file are listed under its path just where they are plain and the path is
read back.
-/
theorem listedUnder_own
    : file.listedUnder file.path.1 = file.changes
      ↔ (file.changes ≠ 0 → file.ReadBack ∧ file.Plain) := by
  constructor
  · intro all some
    have plain : file.Plain := by
      have many : file.changes ≤ file.body.countP fun line => line.isChanged && decide line.Plain :=
        all.symm.trans_le listedUnder_le_listed
      intro hunk member line within
      cases changed : line.isChanged with
      | false => exact GitDiffLine.plain_of_unchanged changed
      | true =>
          refine of_decide_eq_true (of_countP_le many line ?_ changed)
          exact List.mem_flatMap.mpr ⟨hunk, member, within⟩
    refine ⟨GitDiffFile.readName_eq_path.mp (by_contra fun unread => ?_), plain⟩
    unfold GitDiffFile.listedUnder at all
    rw [changesIn_of_plain plain, if_neg unread] at all
    exact some all.symm
  · intro clear
    by_cases none : file.changes = 0
    · rw [none]
      exact Nat.le_zero.mp (none ▸ listedUnder_le_changes)
    · obtain ⟨read, plain⟩ := clear none
      unfold GitDiffFile.listedUnder
      rw [changesIn_of_plain plain, if_pos (GitDiffFile.readName_eq_path.mpr read)]
      rfl

end Listed

section Counts

variable {file : GitDiffFile} {files : List GitDiffFile} {path : String}

namespace GitDiffFile

/-- What the scanner counts in a file. -/
def scanned (file : GitDiffFile) (path : String) : Nat :=
  if file.names path then file.changes - file.overlooked else 0

/-- What is to be counted in a file. -/
def owned (file : GitDiffFile) (path : String) : Nat :=
  if file.path.1 = path then file.changes else 0

theorem countedIn_eq : file.countedIn (normalizeTaskPath path) = file.scanned path := by
  unfold countedIn scanned
  rw [namesTarget_gitLine]

/-- The scanner counts nothing where it does not know the name or leaves out every changed line. -/
theorem scanned_eq_zero
    : file.scanned path = 0
      ↔ (file.names path = true
        → ∀ line ∈ file.body, line.isChanged = true → line.isOverlooked = true) := by
  have both
      : (file.body.countP fun line => line.isChanged && line.isOverlooked) = file.overlooked := by
    refine List.countP_congr fun line _ => ?_
    rw [Bool.and_eq_true_iff]
    exact and_iff_right_of_imp GitDiffLine.isChanged_of_overlooked
  unfold scanned
  by_cases named : file.names path = true
  · rw [if_pos named, Nat.sub_eq_zero_iff_le]
    constructor
    · intro many _
      exact of_countP_le (many.trans_eq both.symm)
    · intro all
      refine List.countP_mono_left fun line member => all named line member
  · rw [if_neg named]
    exact iff_of_true rfl fun named' => absurd named' named

/-- A plain line is not left out. -/
theorem overlooked_of_plain (plain : file.Plain) : file.overlooked = 0 := by
  refine List.countP_eq_zero.mpr fun line member left => ?_
  obtain ⟨hunk, listed, within⟩ := List.mem_flatMap.mp member
  obtain ⟨kept, unnamed⟩ := GitDiffLine.unnamed_of_plain (plain hunk listed line within)
  cases line with
  | context text => exact Bool.false_ne_true left
  | noNewline => exact Bool.false_ne_true left
  | addition text =>
      have gives : (GitDiffLine.addition text).givesName = true := begins_of_trimmed left
      exact Bool.false_ne_true (unnamed.symm.trans gives)
  | deletion text =>
      have ends : (GitDiffLine.deletion text).endsHunk = true := begins_of_trimmed left
      exact Bool.false_ne_true (kept.symm.trans ends)

/-- A file is counted right where the scanner and the parser both count what is to be counted. -/
theorem countedRight_iff
    : file.CountedRight path
      ↔ file.scanned path = file.owned path ∧ file.listedUnder path = file.owned path := by
  by_cases own : file.path.1 = path
  · have owned : file.owned path = file.changes := if_pos own
    subst own
    rw [owned, listedUnder_own]
    constructor
    · intro right
      refine ⟨?_, fun some => (right.own rfl some).2⟩
      by_cases none : file.changes = 0
      · unfold scanned
        rw [none, Nat.zero_sub, ite_self]
      · obtain ⟨named, -, plain⟩ := right.own rfl none
        rw [scanned, if_pos named, overlooked_of_plain plain, Nat.sub_zero]
    · rintro ⟨counted, clear⟩
      refine ⟨fun _ some => ⟨by_contra fun unnamed => some ?_, clear some⟩, ?_, ?_⟩
      · rw [← counted, scanned, if_neg unnamed]
      · exact fun other => absurd rfl other
      · exact fun other => absurd rfl other
  · have owned : file.owned path = 0 := if_neg own
    rw [owned, scanned_eq_zero, listedUnder_eq_zero]
    constructor
    · exact fun right => ⟨right.unscanned own, right.unlisted own⟩
    · exact fun ⟨unscanned, unlisted⟩ =>
        ⟨fun same => absurd same own, fun _ => unscanned, fun _ => unlisted⟩

theorem scanned_add_missed
    : file.scanned path + file.missed path = file.owned path + file.foreign path := by
  have bound := @overlooked_le file
  unfold scanned missed owned foreign
  cases file.names path <;>
    by_cases same : file.path.1 = path <;>
    simp [same]
  exact Nat.sub_add_cancel bound

theorem listed_add_unlisted
    : file.listedUnder path + file.unlisted path = file.owned path + file.mislisted path := by
  have bound := @listedUnder_le_changes file path
  unfold unlisted owned mislisted
  by_cases same : file.path.1 = path
  · rw [if_pos same, if_pos same, if_pos same, Nat.add_sub_cancel' bound, Nat.add_zero]
  · rw [if_neg same, if_neg same, if_neg same, Nat.zero_add, Nat.add_zero]

end GitDiffFile

theorem changesUnder_eq (files : List GitDiffFile) (path : String)
    : changesUnder files path = (files.map (·.owned path)).sum := by
  unfold changesUnder
  induction files with
  | nil => rfl
  | cons file rest ih =>
      rw [List.filter_cons, List.map_cons, List.sum_cons, ← ih, GitDiffFile.owned]
      by_cases same : file.path.1 = path
      · rw [if_pos (by simp [same]), if_pos same, List.map_cons, List.sum_cons]
      · rw [if_neg (by simp [same]), if_neg same, Nat.zero_add]

theorem countsAgree_iff (files : List GitDiffFile) (path : String)
    : CountsAgree files path
      ↔ (files.map (·.scanned path)).sum = (files.map (·.owned path)).sum
        ∧ (files.map (·.listedUnder path)).sum = (files.map (·.owned path)).sum := by
  have counted : (getFileDiffLineCount (renderDiff files) path).total
      = (files.map (·.scanned path)).sum := by
    rw [total_getFileDiffLineCount]
    exact congrArg List.sum (List.map_congr_left fun file _ => GitDiffFile.countedIn_eq)
  unfold CountsAgree
  dsimp only
  rw [counted, changesUnder_eq, changesUnder_parseUnifiedDiff]
  refine and_congr_right fun same => ?_
  rw [same]
  exact eq_comm

end Counts

/-- The changed lines of the path that the scanner does not count, in all files. -/
def missedChanges (files : List GitDiffFile) (path : String) : Nat :=
  (files.map (·.missed path)).sum

def foreignChanges (files : List GitDiffFile) (path : String) : Nat :=
  (files.map (·.foreign path)).sum

def unlistedChanges (files : List GitDiffFile) (path : String) : Nat :=
  (files.map (·.unlisted path)).sum

def mislistedChanges (files : List GitDiffFile) (path : String) : Nat :=
  (files.map (·.mislisted path)).sum

/-- The scanner and the parser count the changed lines of a path in every part of a diff just where
they count those of each file right; in a diff alone, lines that are missed can be made up for by
lines of other paths.
-/
theorem lineCount_iff (files : List GitDiffFile) (path : String)
    : ((∀ part : List GitDiffFile, part.Sublist files → CountsAgree part path)
        ↔ ∀ file ∈ files, file.CountedRight path)
      ∧ (CountsAgree files path
        ↔ missedChanges files path = foreignChanges files path
          ∧ unlistedChanges files path = mislistedChanges files path) := by
  constructor
  · constructor
    · intro agree file member
      have alone := (countsAgree_iff [file] path).mp
        (agree [file] (List.singleton_sublist.mpr member))
      simp only [List.map_cons, List.map_nil, List.sum_singleton] at alone
      exact GitDiffFile.countedRight_iff.mpr alone
    · intro right part within
      have each (file : GitDiffFile) (member : file ∈ part) :=
        GitDiffFile.countedRight_iff.mp (right file (within.subset member))
      refine (countsAgree_iff part path).mpr ⟨?_, ?_⟩
      · exact congrArg List.sum (List.map_congr_left fun file member => (each file member).1)
      · exact congrArg List.sum (List.map_congr_left fun file member => (each file member).2)
  · have scanned : (files.map (·.scanned path)).sum + missedChanges files path
        = (files.map (·.owned path)).sum + foreignChanges files path := by
      unfold missedChanges foreignChanges
      rw [← List.sum_map_add, ← List.sum_map_add]
      exact congrArg List.sum (List.map_congr_left fun file _ => GitDiffFile.scanned_add_missed)
    have listed : (files.map (·.listedUnder path)).sum + unlistedChanges files path
        = (files.map (·.owned path)).sum + mislistedChanges files path := by
      unfold unlistedChanges mislistedChanges
      rw [← List.sum_map_add, ← List.sum_map_add]
      exact congrArg List.sum (List.map_congr_left fun file _ => GitDiffFile.listed_add_unlisted)
    rw [countsAgree_iff]
    omega

/-- A modified file with a line that is replaced. -/
def replacedLineFile : GitDiffFile where
  path := ⟨"src/a.ts", by decide⟩
  change := .modified none
  blobs := none
  hunks := [
    {
      oldStart := 3
      newStart := 3
      heading := .empty
      lines := [
        .deletion ⟨"old();".toList, by decide⟩,
        .addition ⟨"--new;".toList, by decide⟩
      ]
    }
  ]

/-- A file with changes that is renamed to another name. -/
def renamedFile : GitDiffFile where
  path := ⟨"src/c.ts", by decide⟩
  change := .renamed ⟨"src/b.ts", by decide⟩ 90 none
  blobs := none
  hunks := [
    {
      oldStart := 1
      newStart := 1
      heading := .empty
      lines := [.addition ⟨"more();".toList, by decide⟩]
    }
  ]

/-- A file that is only renamed. -/
def renamedOnlyFile : GitDiffFile where
  path := ⟨"lib/d.ts", by decide⟩
  change := .renamed ⟨"src/d.ts", by decide⟩ 100 none
  blobs := none
  hunks := []

/-- A script in which an option is replaced. -/
def optionFile : GitDiffFile where
  path := ⟨"run.sh", by decide⟩
  change := .modified none
  blobs := none
  hunks := [
    {
      oldStart := 2
      newStart := 2
      heading := .empty
      lines := [
        .deletion ⟨"--verbose;".toList, by decide⟩,
        .addition ⟨"--quiet;".toList, by decide⟩
      ]
    }
  ]

theorem lineCount_iff_replaced
    : CountsAgree [replacedLineFile, renamedFile, renamedOnlyFile] "src/a.ts"
      ∧ changesUnder [replacedLineFile, renamedFile, renamedOnlyFile] "src/a.ts" = 2 := by
  let files : List GitDiffFile := [replacedLineFile, renamedFile, renamedOnlyFile]
  have apart (file : GitDiffFile) (other : file.path.1 ≠ "src/a.ts")
      (unnamed : file.names "src/a.ts" = false) (unlisted : file.listedUnder "src/a.ts" = 0)
      : file.CountedRight "src/a.ts" :=
    ⟨fun same => absurd same other,
      fun _ named => absurd (unnamed.symm.trans named) Bool.false_ne_true,
      fun _ => listedUnder_eq_zero.mp unlisted⟩
  have right : ∀ file ∈ files, file.CountedRight "src/a.ts" := by
    intro file member
    simp only [files, List.mem_cons, List.not_mem_nil, or_false] at member
    rcases member with rfl | rfl | rfl
    · refine ⟨fun _ _ => ⟨by decide, .inl ?_, ?_⟩, fun other => absurd rfl other,
        fun other => absurd rfl other⟩
      · unfold ReadableName SimplyQuoted
        decide
      · unfold GitDiffFile.Plain
        decide
    · exact apart renamedFile (by decide) (by decide) (by decide)
    · exact apart renamedOnlyFile (by decide) (by decide) (by decide)
  exact ⟨(lineCount_iff files "src/a.ts").1.mpr right files (List.Sublist.refl _), by decide⟩

/-- A removed comment is left out, the changes of a renamed file are counted for its old name, and
the parser does not list a removed option.
-/
theorem changes_miscounted
    : ((getFileDiffLineCount (renderDiff [commentedFile]) "query.sql").total = 2
        ∧ changesUnder [commentedFile] "query.sql" = 3)
      ∧ ((getFileDiffLineCount (renderDiff [replacedLineFile, renamedFile]) "src/b.ts").total = 1
        ∧ changesUnder [replacedLineFile, renamedFile] "src/b.ts" = 0
        ∧ FileHunks.changesUnder
            (parseUnifiedDiff (renderDiff [replacedLineFile, renamedFile])).hunks "src/b.ts" = 0)
      ∧ (getFileDiffLineCount (renderDiff [optionFile]) "run.sh").total = 2
      ∧ FileHunks.changesUnder (parseUnifiedDiff (renderDiff [optionFile])).hunks "run.sh" = 1 := by
  simp only [total_getFileDiffLineCount, changesUnder_parseUnifiedDiff]
  decide

end AiSdlc.Application
