import Mathlib.Algebra.Order.Group.Nat
import Mathlib.Algebra.Order.BigOperators.Group.List
import AiSdlc.Application.DiffRoundTrip

/-! When a rendered diff is read back: no more changed lines are counted than begin like one, so
that none may be lost; a hunk is listed once, so that each must be listed under its own path.
-/

namespace AiSdlc.Application

open AiSdlc.Js

section Counts

variable {scan : DiffScan} {index : Nat} {line : List Char} {lines : List (List Char)}

def ParsedHunk.changes (hunk : ParsedHunk) : Nat :=
  hunk.additions + hunk.deletions

/-- The changed lines of all hunks. -/
def changesOf (hunks : FileHunks) : Nat :=
  ((hunks.flatMap Prod.snd).map (·.changes)).sum

theorem changesOf_push (path : String) (hunk : ParsedHunk) (hunks : FileHunks)
    : changesOf (hunks.push path hunk) = changesOf hunks + hunk.changes := by
  unfold changesOf
  rw [((Groups.perm_push path hunk hunks).map _).sum_nat, List.map_append, List.sum_append]
  rfl

theorem changesOf_pushAll (hunks : FileHunks) (pairs : List (String × ParsedHunk))
    : changesOf (hunks.pushAll pairs) = changesOf hunks + (pairs.map (·.2.changes)).sum := by
  induction pairs generalizing hunks with
  | nil => rfl
  | cons pair rest ih =>
      have later := ih (hunks.push pair.1 pair.2)
      rw [changesOf_push, Nat.add_assoc] at later
      exact later

/-- The changed lines that were counted so far. -/
def DiffScan.changes (scan : DiffScan) : Nat :=
  changesOf scan.hunks + scan.additions + scan.deletions

/-- Listing the current hunk counts no line anew. -/
theorem changesOf_settled (scan : DiffScan) : changesOf scan.settled ≤ scan.changes := by
  unfold DiffScan.settled DiffScan.finalizeHunk DiffScan.changes
  split
  · rw [changesOf_push, ParsedHunk.changes]
    exact Nat.le_of_eq (Nat.add_assoc _ _ _).symm
  · omega

theorem read_cases (scan : DiffScan) (index : Nat) (line : List Char)
    : scan.read index line = scan.startFile line
      ∨ scan.read index line = scan.nameNewFile line
      ∨ scan.read index line = scan.startHunk index line
      ∨ scan.read index line = scan.hunkLine line
      ∨ scan.read index line = scan.outerLine line := by
  unfold DiffScan.read
  split_ifs
  · exact .inl rfl
  · exact .inr (.inl rfl)
  · exact .inr (.inr (.inl rfl))
  · exact .inr (.inr (.inr (.inl rfl)))
  · exact .inr (.inr (.inr (.inr rfl)))

theorem hunks_nameFile (scan : DiffScan) (line : List Char)
    : (scan.nameFile line).hunks = scan.hunks := by
  unfold DiffScan.nameFile
  split_ifs <;> rfl

/-- A line is counted once at most, and only where it begins like a changed one. -/
theorem changes_read
    : (scan.read index line).changes ≤ scan.changes + if countsAsChange line then 1 else 0 := by
  have settled := changesOf_settled scan
  rcases read_cases scan index line with read | read | read | read | read <;> rw [read]
  · have hunks : (scan.startFile line).hunks = scan.settled := hunks_nameFile scan.finalizeHunk line
    have counted : (scan.startFile line).changes = changesOf (scan.startFile line).hunks := rfl
    rw [counted, hunks]
    omega
  · exact Nat.le_add_right _ _
  · unfold DiffScan.startHunk
    cases parseHunkHeader line with
    | none => exact Nat.le_add_right _ _
    | some header => exact settled.trans (Nat.le_add_right _ _)
  · unfold DiffScan.hunkLine DiffScan.changes countsAsChange
    cases isAdditionLine line <;> cases isDeletionLine line <;>
      simp <;> omega
  · unfold DiffScan.outerLine
    split
    next file _ =>
      split
      · have same : (scan.binaryFile file line).changes = scan.changes := by
          unfold DiffScan.changes DiffScan.binaryFile
          rw [changesOf_push]
          rfl
        rw [same]
        exact Nat.le_add_right _ _
      · exact Nat.le_add_right _ _
    next => exact Nat.le_add_right _ _

/-- So it is with several lines, by induction over them. -/
theorem changes_readAll
    : (scan.readAll index lines).changes ≤ scan.changes + lines.countP countsAsChange := by
  induction lines generalizing scan index with
  | nil => exact Nat.le_refl _
  | cons line rest ih =>
      have here := @changes_read scan index line
      have there := @ih (scan.read index line) (index + 1)
      rw [DiffScan.readAll, List.countP_cons]
      omega

theorem changesOf_parseUnifiedDiff (diff : String)
    : changesOf (parseUnifiedDiff diff).hunks ≤ (diffLines diff).countP countsAsChange := by
  unfold parseUnifiedDiff
  split
  · exact Nat.zero_le _
  · have counted := @changes_readAll {} 0 (diffLines diff)
    have settled := changesOf_settled (DiffScan.readAll {} 0 (diffLines diff))
    have none : DiffScan.changes {} = 0 := rfl
    rw [none, Nat.zero_add] at counted
    exact settled.trans counted

end Counts

section Listed

variable {scan : DiffScan} {index : Nat} {line : List Char} {lines : List (List Char)}

/-- A file is listed with a hunk. -/
def FilesHaveHunks (scan : DiffScan) : Prop :=
  ∀ file ∈ scan.files, file ∈ scan.hunks.map Prod.fst

theorem FilesHaveHunks.finalizeHunk (listed : FilesHaveHunks scan)
    : FilesHaveHunks scan.finalizeHunk := by
  unfold DiffScan.finalizeHunk
  split
  · exact fun file member => Groups.mem_keys_push.mpr (.inr (listed file member))
  · exact listed

theorem FilesHaveHunks.read (listed : FilesHaveHunks scan)
    : FilesHaveHunks (scan.read index line) := by
  rcases read_cases scan index line with read | read | read | read | read <;> rw [read]
  · have hunks : (scan.startFile line).hunks = scan.finalizeHunk.hunks :=
      hunks_nameFile scan.finalizeHunk line
    have files : (scan.startFile line).files = scan.finalizeHunk.files := by
      unfold DiffScan.startFile DiffScan.nameFile
      split_ifs <;> rfl
    unfold FilesHaveHunks
    rw [hunks, files]
    exact listed.finalizeHunk
  · exact listed
  · unfold DiffScan.startHunk
    cases parseHunkHeader line with
    | none => exact listed
    | some header => exact listed.finalizeHunk
  · exact listed
  · unfold DiffScan.outerLine
    split
    next name _ =>
      split
      · intro file member
        refine Groups.mem_keys_push.mpr ?_
        have either : file ∈ scan.files ∨ file = name := by
          unfold DiffScan.binaryFile at member
          dsimp only at member
          split at member
          · exact .inl member
          · simpa using member
        exact either.elim (fun before => .inr (listed file before)) .inl
      · exact listed
    next => exact listed

theorem FilesHaveHunks.readAll (listed : FilesHaveHunks scan)
    : FilesHaveHunks (scan.readAll index lines) := by
  induction lines generalizing scan index with
  | nil => exact listed
  | cons line rest ih => exact ih listed.read

theorem mem_files_parseUnifiedDiff {diff path : String}
    : path ∈ (parseUnifiedDiff diff).files
      ↔ path ∈ (parseUnifiedDiff diff).hunks.map Prod.fst := by
  unfold parseUnifiedDiff
  split
  · exact Iff.rfl
  · have none : FilesHaveHunks {} := fun _ member => nomatch member
    have listed := (@FilesHaveHunks.readAll {} 0 (diffLines diff) none).finalizeHunk path
    unfold DiffScan.result
    rw [List.mem_append, List.mem_filter]
    by_cases member : path ∈ (DiffScan.readAll {} 0 (diffLines diff)).finalizeHunk.files
    · exact iff_of_true (.inl member) (listed member)
    · simp [member]

end Listed

namespace GitDiffFile

/-- A file that the parser takes for what it is: its changed lines are plain, its path is read back
where it has hunks, and no line before the hunks is taken for one about a binary file.
-/
structure Clear (file : GitDiffFile) : Prop where
  plain : file.Plain
  named : file.hunks ≠ [] → file.ReadBack
  unmistaken :
    (truthy (parseDiffGitLine file.gitLine)).isSome = true
    → ∀ line ∈ file.extendedLines, tellsBinary line = false

/-- The lines of all hunks. -/
def body (file : GitDiffFile) : List GitDiffLine :=
  file.hunks.flatMap (·.lines)

end GitDiffFile

def GitDiffLine.isChanged (line : GitDiffLine) : Bool :=
  line.isAddition || line.isDeletion

section ReadBack

variable {file : GitDiffFile} {files : List GitDiffFile} {hunk : GitDiffHunk}

/-- Of the lines of a file, those are counted that are changed and plain. -/
theorem countP_rendered
    : file.rendered.countP countsAsChange
      = file.body.countP fun line => line.isChanged && decide line.Plain := by
  have extended : file.extendedLines.countP countsAsChange = 0 := by
    refine List.countP_eq_zero.mpr fun line member => ?_
    rcases GitDiffFile.head_extendedLines member with ⟨mode, rfl⟩ | ordinary
    · rw [@countsAsChange_eq_false _ 'd' rfl (by decide)]
      exact Bool.false_ne_true
    · have plus : begins line "+" = false := begins_eq_false rfl (ordinary '+' (by decide))
      have minus : begins line "-" = false := begins_eq_false rfl (ordinary '-' (by decide))
      rw [countsAsChange, isAdditionLine, isDeletionLine, plus, minus]
      exact Bool.false_ne_true
  have first : countsAsChange file.gitLine = false := @countsAsChange_eq_false _ 'd' rfl (by decide)
  have old : countsAsChange file.oldLine = false := by
    have plus : begins file.oldLine "+" = false := rfl
    have three : begins file.oldLine "---" = true := rfl
    rw [countsAsChange, isAdditionLine, isDeletionLine, plus, three, Bool.not_true, Bool.and_false,
      Bool.false_and, Bool.or_self]
  have new : countsAsChange file.newLine = false := by
    have three : begins file.newLine "+++" = true := rfl
    have minus : begins file.newLine "-" = false := rfl
    rw [countsAsChange, isAdditionLine, isDeletionLine, minus, three, Bool.not_true, Bool.and_false,
      Bool.false_and, Bool.or_self]
  have hunks : (file.hunks.flatMap (·.rendered)).countP countsAsChange
      = file.body.countP fun line => line.isChanged && decide line.Plain := by
    unfold GitDiffFile.body
    induction file.hunks with
    | nil => rfl
    | cons hunk rest ih =>
        have header : countsAsChange (hunkHeaderLine hunk.ranges hunk.heading.1) = false :=
          @countsAsChange_eq_false _ '@' rfl (by decide)
        have lines : (countsAsChange ∘ fun line : GitDiffLine => line.chars)
            = fun line => line.isChanged && decide line.Plain :=
          funext countsAsChange_chars
        rw [List.flatMap_cons, List.flatMap_cons, List.countP_append, List.countP_append, ih,
          GitDiffHunk.rendered, List.countP_cons_of_neg (by simp [header]), List.countP_map, lines]
  unfold GitDiffFile.rendered
  rw [List.countP_append, List.countP_cons_of_neg (by simp [first]), extended, Nat.zero_add]
  split
  next empty =>
    unfold GitDiffFile.body
    rw [empty]
    rfl
  next =>
    rw [List.countP_cons_of_neg (by simp [old]), List.countP_cons_of_neg (by simp [new]), hunks]

theorem changes_entries
    : (file.entries.map (·.2.changes)).sum = file.body.countP (·.isChanged) := by
  have each (hunk : GitDiffHunk)
      : hunk.additions + hunk.deletions = hunk.lines.countP (·.isChanged) := by
    unfold GitDiffHunk.additions GitDiffHunk.deletions
    induction hunk.lines with
    | nil => rfl
    | cons line rest ih =>
        have sign : (if line.isAddition then 1 else 0) + (if line.isDeletion then 1 else 0)
            = if line.isChanged then 1 else 0 := by
          cases line <;> rfl
        simp only [List.countP_cons]
        omega
  unfold GitDiffFile.entries GitDiffFile.entriesAs GitDiffFile.body
  induction file.hunks with
  | nil => rfl
  | cons hunk rest ih =>
      rw [List.flatMap_cons, List.flatMap_cons, List.map_append, List.sum_append,
        List.countP_append, ih, ← each hunk]
      rfl

/-- Where as many values have both properties as have the first, each that has the first has both.
-/
theorem of_countP_le {α : Type} {first second : α → Bool} {values : List α}
    (many : values.countP first ≤ values.countP fun value => first value && second value)
    : ∀ value ∈ values, first value = true → second value = true := by
  induction values with
  | nil => exact fun _ member => nomatch member
  | cons value rest ih =>
      have fewer : (rest.countP fun value => first value && second value) ≤ rest.countP first :=
        List.countP_mono_left fun other _ both => (Bool.and_eq_true_iff.mp both).1
      intro other member holds
      rw [List.countP_cons, List.countP_cons] at many
      rcases List.mem_cons.mp member with rfl | later
      · by_contra fails
        rw [holds, eq_false_of_ne_true fails] at many
        simp only [Bool.and_false, Bool.false_eq_true, if_true, if_false] at many
        omega
      · refine ih ?_ other later holds
        have here : (if (first value && second value) = true then 1 else 0)
            ≤ if first value = true then 1 else 0 := by
          cases first value <;> cases second value <;> decide
        omega

theorem GitDiffLine.plain_of_unchanged {line : GitDiffLine} (kept : line.isChanged = false)
    : line.Plain := by
  cases line with
  | addition text => exact nomatch kept
  | deletion text => exact nomatch kept
  | context text => trivial
  | noNewline => trivial

/-- A diff that is read back has plain lines only. -/
theorem plain_of_hunks_eq (same : (parseUnifiedDiff (renderDiff files)).hunks = diffHunks files)
    : ∀ file ∈ files, file.Plain := by
  by_cases some : files = []
  · subst some
    exact fun _ member => nomatch member
  · have counted := changesOf_parseUnifiedDiff (renderDiff files)
    have all : changesOf (diffHunks files) = (files.flatMap (·.body)).countP (·.isChanged) := by
      have none : changesOf [] = 0 := rfl
      unfold diffHunks
      rw [changesOf_pushAll, none, Nat.zero_add]
      clear counted same some
      induction files with
      | nil => rfl
      | cons file rest ih =>
          rw [List.flatMap_cons, List.flatMap_cons, List.map_append, List.sum_append,
            List.countP_append, ih, changes_entries]
    have plain : (files.flatMap (·.rendered)).countP countsAsChange
        = (files.flatMap (·.body)).countP fun line => line.isChanged && decide line.Plain := by
      rw [List.countP_flatMap, List.countP_flatMap]
      exact congrArg List.sum (List.map_congr_left fun file _ => countP_rendered)
    rw [same, all, diffLines_renderDiff some, plain] at counted
    intro file member hunk listed line within
    cases changed : line.isChanged with
    | false => exact GitDiffLine.plain_of_unchanged changed
    | true =>
        refine of_decide_eq_true (of_countP_le counted line ?_ changed)
        exact List.mem_flatMap.mpr ⟨file, member, List.mem_flatMap.mpr ⟨hunk, listed, within⟩⟩

/-- A file that is taken for what it is is listed as it is. -/
theorem GitDiffFile.Clear.readEntries (clear : file.Clear) : file.readEntries = file.entries := by
  have nothing : file.mistakenFor file.extendedLines = [] := by
    unfold mistakenFor
    cases named : truthy (parseDiffGitLine file.gitLine) with
    | none => exact List.flatMap_eq_nil_iff.mpr fun _ _ => rfl
    | some name =>
        have told := clear.unmistaken (by rw [named]; rfl)
        rw [List.filter_eq_nil_iff.mpr fun line member => by simp [told line member]]
        rfl
  unfold GitDiffFile.readEntries GitDiffFile.entries
  rw [nothing, List.nil_append]
  by_cases some : file.hunks = []
  · rw [some]
    rfl
  · rw [readName_eq_path.mpr (clear.named some)]

theorem mem_keys_diffHunks {path : String}
    : path ∈ (diffHunks files).map Prod.fst
      ↔ ∃ file ∈ files, file.path.1 = path ∧ file.hunks ≠ [] := by
  unfold diffHunks
  rw [Groups.mem_keys_pushAll, List.map_nil]
  simp only [List.not_mem_nil, or_false, List.mem_map, List.mem_flatMap, GitDiffFile.entries,
    GitDiffFile.entriesAs, Option.toList_some, List.map_singleton, List.mem_singleton]
  constructor
  · rintro ⟨pair, ⟨file, member, hunk, listed, rfl⟩, rfl⟩
    exact ⟨file, member, rfl, List.ne_nil_of_mem listed⟩
  · rintro ⟨file, member, rfl, some⟩
    obtain ⟨hunk, rest, hunks⟩ := List.exists_cons_of_ne_nil some
    exact ⟨_, ⟨file, member, hunk, hunks ▸ List.mem_cons_self, rfl⟩, rfl⟩

/-- What is listed under a path is what is to be listed there. -/
theorem values_eq_of_hunks_eq (plain : ∀ file ∈ files, file.Plain)
    (same : (parseUnifiedDiff (renderDiff files)).hunks = diffHunks files) (path : String)
    : ((files.flatMap (·.readEntries)).filter (·.1 = path)).map Prod.snd
      = ((files.flatMap (·.entries)).filter (·.1 = path)).map Prod.snd := by
  rw [hunks_parseUnifiedDiff plain, diffHunks] at same
  have values := congrArg (Groups.values · path) same
  simp only [Groups.values_pushAll] at values
  exact List.append_cancel_left values

/-- No line of such a diff is taken for one about a binary file. -/
theorem mistakenFor_eq_nil (plain : ∀ file ∈ files, file.Plain)
    (same : (parseUnifiedDiff (renderDiff files)).hunks = diffHunks files)
    : ∀ file ∈ files, file.mistakenFor file.extendedLines = [] := by
  intro file member
  by_contra some
  obtain ⟨⟨path, hunk⟩, within⟩ := List.exists_mem_of_ne_nil _ some
  have binary : hunk.isBinary = true := by
    obtain ⟨line, -, listed⟩ := List.mem_flatMap.mp within
    obtain ⟨name, -, pair⟩ := List.mem_map.mp listed
    rw [← (Prod.mk.inj pair).2]
    rfl
  have listed : hunk ∈ ((files.flatMap (·.readEntries)).filter (·.1 = path)).map Prod.snd := by
    refine List.mem_map.mpr ⟨(path, hunk), List.mem_filter.mpr ⟨?_, by simp⟩, rfl⟩
    exact List.mem_flatMap.mpr ⟨file, member, List.mem_append_left _ within⟩
  rw [values_eq_of_hunks_eq plain same] at listed
  obtain ⟨pair, shown, rfl⟩ := List.mem_map.mp listed
  obtain ⟨other, -, entry⟩ := List.mem_flatMap.mp (List.mem_filter.mp shown).1
  obtain ⟨rendered, -, named⟩ := List.mem_flatMap.mp entry
  obtain rfl := List.mem_singleton.mp named
  exact nomatch binary

theorem countP_entriesAs (file : GitDiffFile) (name : Option String) (path : String)
    : (file.entriesAs name file.hunks).countP (·.1 = path)
      = if name = some path then file.hunks.length else 0 := by
  unfold GitDiffFile.entriesAs
  induction file.hunks with
  | nil => simp
  | cons hunk rest ih =>
      rw [List.flatMap_cons, List.countP_append, ih]
      cases name with
      | none => rfl
      | some name =>
          by_cases found : name = path
          · simp [found, Nat.add_comm]
          · simp [found]

/-- The path of every file with hunks is read back in such a diff: a path that is not readable has
no hunks from elsewhere that make up for those it lost.
-/
theorem readBack_of_hunks_eq (plain : ∀ file ∈ files, file.Plain)
    (same : (parseUnifiedDiff (renderDiff files)).hunks = diffHunks files)
    : ∀ file ∈ files, file.hunks ≠ [] → file.ReadBack := by
  intro file member some
  by_contra unread
  have none := mistakenFor_eq_nil plain same
  have values := congrArg List.length (values_eq_of_hunks_eq plain same file.path.1)
  simp only [List.length_map, ← List.countP_eq_length_filter, List.countP_flatMap] at values
  have unreadable : ¬ ReadableName file.path.1 := fun readable => unread (.inl readable)
  have each (other : GitDiffFile) (within : other ∈ files)
      : other.readEntries.countP (·.1 = file.path.1)
        ≤ other.entries.countP (·.1 = file.path.1) := by
    unfold GitDiffFile.readEntries GitDiffFile.entries
    rw [none other within, List.nil_append, countP_entriesAs, countP_entriesAs]
    by_cases listed : other.readName = Option.some file.path.1
    · rcases GitDiffFile.readName_cases listed with path | readable
      · rw [if_pos listed, if_pos (congrArg Option.some path)]
      · exact absurd readable unreadable
    · rw [if_neg listed]
      exact Nat.zero_le _
  have fewer : file.readEntries.countP (·.1 = file.path.1)
      < file.entries.countP (·.1 = file.path.1) := by
    have lost : ¬ file.readName = Option.some file.path.1 := fun read =>
      unread (GitDiffFile.readName_eq_path.mp read)
    unfold GitDiffFile.readEntries GitDiffFile.entries
    rw [none file member, List.nil_append, countP_entriesAs, countP_entriesAs, if_neg lost,
      if_pos rfl]
    exact List.length_pos_iff.mpr some
  exact absurd values (List.sum_lt_sum _ _ each ⟨file, member, fewer⟩).ne

theorem clear_of_readsBack (read : ReadsBack files)
    : ∀ file ∈ files, file.Clear ∧ ∃ other ∈ files, other.path = file.path ∧ other.hunks ≠ [] := by
  obtain ⟨same, listed⟩ := read
  intro file member
  have plain := plain_of_hunks_eq same
  have nothing := mistakenFor_eq_nil plain same file member
  refine ⟨⟨plain file member, readBack_of_hunks_eq plain same file member, ?_⟩, ?_⟩
  · intro named line extended
    obtain ⟨name, found⟩ := Option.isSome_iff_exists.mp named
    unfold GitDiffFile.mistakenFor at nothing
    rw [found, List.flatMap_eq_nil_iff] at nothing
    refine eq_false_of_ne_true fun binary => ?_
    exact nomatch nothing line (List.mem_filter.mpr ⟨extended, binary⟩)
  · have key := (listed file.path.1).mpr ⟨file, member, rfl⟩
    rw [mem_files_parseUnifiedDiff, same, mem_keys_diffHunks] at key
    obtain ⟨other, within, path, some⟩ := key
    exact ⟨other, within, Subtype.ext path, some⟩

theorem readsBack_of_clear
    (clear : ∀ file ∈ files,
      file.Clear ∧ ∃ other ∈ files, other.path = file.path ∧ other.hunks ≠ [])
    : ReadsBack files := by
  have entries : files.flatMap (·.readEntries) = files.flatMap (·.entries) :=
    List.flatMap_congr fun file member => (clear file member).1.readEntries
  have same : (parseUnifiedDiff (renderDiff files)).hunks = diffHunks files := by
    rw [hunks_parseUnifiedDiff fun file member => (clear file member).1.plain, entries]
    rfl
  refine ⟨same, fun path => ?_⟩
  rw [mem_files_parseUnifiedDiff, same, mem_keys_diffHunks]
  constructor
  · rintro ⟨file, member, path, -⟩
    exact ⟨file, member, path⟩
  · rintro ⟨file, member, rfl⟩
    obtain ⟨-, other, within, path, some⟩ := clear file member
    exact ⟨other, within, congrArg Subtype.val path, some⟩

end ReadBack

/-- A rendered diff is read back just where every file is taken for what it is, and is listed with
a hunk.
-/
theorem readsBack_iff_clear (files : List GitDiffFile)
    : ReadsBack files
      ↔ ∀ file ∈ files,
          file.Clear ∧ ∃ other ∈ files, other.path = file.path ∧ other.hunks ≠ [] :=
  ⟨clear_of_readsBack, readsBack_of_clear⟩

/-- A file of which a commented line is removed, and another line is changed after it. -/
def commentedFile : GitDiffFile where
  path := ⟨"query.sql", by decide⟩
  change := .modified none
  blobs := none
  hunks := [
    {
      oldStart := 1
      newStart := 1
      heading := .empty
      lines := [
        .deletion ⟨"-- all orders".toList, by decide⟩,
        .deletion ⟨"select 1;".toList, by decide⟩,
        .addition ⟨"select 2;".toList, by decide⟩
      ]
    }
  ]

/-- The removed comment is taken for the header of a file: no changed line of the hunk is counted.
-/
theorem comment_taken_for_header
    : ¬ ReadsBack [commentedFile]
      ∧ changesOf (parseUnifiedDiff (renderDiff [commentedFile])).hunks = 0
      ∧ changesOf (diffHunks [commentedFile]) = 3 := by
  have lost : changesOf (parseUnifiedDiff (renderDiff [commentedFile])).hunks = 0 := by
    decide +kernel
  have whole : changesOf (diffHunks [commentedFile]) = 3 := by
    decide
  refine ⟨fun read => ?_, lost, whole⟩
  rw [read.1, whole] at lost
  exact nomatch lost

end AiSdlc.Application
