import Mathlib.Data.List.Infix

/-! Trees of files: the entries at paths, and what calls of a file system do to them. -/

namespace AiSdlc.Js

inductive FileEntry (Contents : Type)
  | file (contents : Contents)
  | directory

/-- The entry at each path, as a list of names; the root itself has none. -/
abbrev FileTree (Name Contents : Type) : Type :=
  List Name → Option (FileEntry Contents)

namespace FileTree

variable {Name Contents : Type}

def empty : FileTree Name Contents :=
  fun _ => none

/-- `stat`; the root is a directory. -/
def stat (tree : FileTree Name Contents) (path : List Name) : Option (FileEntry Contents) :=
  match path with
  | [] => some .directory
  | path => tree path

/-- Whether a file stands at a path. -/
def isFile (tree : FileTree Name Contents) (path : List Name) : Bool :=
  match tree.stat path with
  | some (.file _) => true
  | _ => false

/-- Whether a path leads through a file. -/
def isBlocked (tree : FileTree Name Contents) (path : List Name) : Bool :=
  (List.range path.length).any fun count => tree.isFile (path.take count)

variable [DecidableEq Name]

/-- `writeFile`, where the directory exists. -/
def writeFile (tree : FileTree Name Contents) (path : List Name) (contents : Contents)
    : FileTree Name Contents :=
  fun other => if other = path then some (.file contents) else tree other

def unlink (tree : FileTree Name Contents) (path : List Name) : FileTree Name Contents :=
  fun other => if other = path then none else tree other

/-- `mkdir` with `recursive`. -/
def makeDirectories (tree : FileTree Name Contents) (path : List Name) : FileTree Name Contents :=
  fun other => (tree other).or (if other <+: path then some .directory else none)

/-- Makes the directory of a file, and writes the file. -/
def put (tree : FileTree Name Contents) (path : List Name) (contents : Contents)
    : FileTree Name Contents :=
  (tree.makeDirectories path.dropLast).writeFile path contents

section Changes

variable {tree : FileTree Name Contents} {path other : List Name} {contents : Contents}

omit [DecidableEq Name] in
theorem isFile_iff
    : tree.isFile path = true ↔ path ≠ [] ∧ ∃ contents, tree path = some (.file contents) := by
  cases path with
  | nil => simp [isFile, stat]
  | cons name path =>
      rw [isFile, stat]
      · cases tree (name :: path) with
        | none => simp
        | some entry => cases entry <;> simp
      · simp

omit [DecidableEq Name] in
theorem isBlocked_eq_false
    : tree.isBlocked path = false
      ↔ ∀ front, front <+: path → front ≠ path → tree.isFile front = false := by
  rw [isBlocked, List.any_eq_false]
  constructor
  · intro free front starts different
    obtain ⟨rest, rfl⟩ := starts
    have shorter : front.length < (front ++ rest).length := by
      have more : rest ≠ [] := fun none => different (by simp [none])
      have positive := List.length_pos_iff.mpr more
      rw [List.length_append]
      omega
    have found := free front.length (List.mem_range.mpr shorter)
    rw [List.take_left] at found
    simpa using found
  · intro free count within
    rw [List.mem_range] at within
    rw [free _ (List.take_prefix _ _) fun same => ?_]
    · exact Bool.false_ne_true
    · have lengths := congrArg List.length same
      rw [List.length_take] at lengths
      omega

@[simp]
theorem unlink_self : tree.unlink path path = none :=
  if_pos rfl

theorem unlink_of_ne (apart : other ≠ path) : tree.unlink path other = tree other :=
  if_neg apart

theorem unlink_eq_none (none : tree other = none) : tree.unlink path other = Option.none := by
  unfold unlink
  split
  · rfl
  · exact none

@[simp]
theorem put_self : tree.put path contents path = some (.file contents) :=
  if_pos rfl

/-- Only paths in front of the file change. -/
theorem put_of_not_prefix (apart : ¬other <+: path)
    : tree.put path contents other = tree other := by
  have different : other ≠ path := by
    rintro rfl
    exact apart List.prefix_rfl
  have above : ¬other <+: path.dropLast := fun starts =>
    apart (starts.trans (List.dropLast_prefix path))
  rw [put, writeFile, if_neg different, makeDirectories, if_neg above, Option.or_none]

/-- The other files stay, and none comes up. -/
theorem put_file_of_ne (different : other ≠ path) {held : Contents}
    : tree.put path contents other = some (.file held) ↔ tree other = some (.file held) := by
  rw [put, writeFile, if_neg different, makeDirectories]
  cases tree other with
  | some entry => simp
  | none =>
      rw [Option.none_or]
      split <;> simp

theorem isFile_put_of_ne (different : other ≠ path)
    : (tree.put path contents).isFile other = tree.isFile other := by
  rw [Bool.eq_iff_iff, isFile_iff, isFile_iff]
  exact and_congr_right fun _ => exists_congr fun _ => put_file_of_ne different

theorem isFile_unlink (file : (tree.unlink path).isFile other = true)
    : other ≠ path ∧ tree.isFile other = true := by
  obtain ⟨nonempty, held, found⟩ := isFile_iff.mp file
  have different : other ≠ path := by
    rintro rfl
    rw [unlink_self] at found
    cases found
  rw [unlink_of_ne different] at found
  exact ⟨different, isFile_iff.mpr ⟨nonempty, held, found⟩⟩

theorem isFile_unlink_eq_false (absent : tree.isFile other = false)
    : (tree.unlink path).isFile other = false := by
  refine Bool.eq_false_iff.mpr fun file => ?_
  rw [(isFile_unlink file).2] at absent
  cases absent

omit [DecidableEq Name] in
theorem stat_of_ne_nil (nonempty : path ≠ []) : tree.stat path = tree path := by
  obtain ⟨name, rest, rfl⟩ := List.exists_cons_of_ne_nil nonempty
  rfl

theorem unlink_eq_self (absent : tree path = none) : tree.unlink path = tree := by
  funext other
  by_cases same : other = path
  · rw [same, unlink_self, absent]
  · exact unlink_of_ne same

end Changes

end FileTree

end AiSdlc.Js
