import AiSdlc.Js.TextOperations

/-! The normal form of the paths that tasks declare and that changes are reported under. -/

namespace AiSdlc.Domain

open AiSdlc.Js

/-- The loop over the segments of a path, with the segments that stand so far. -/
def stackSegments (stack : List (List Char)) : List (List Char) → List (List Char)
  | [] => stack
  | seg :: rest =>
      if seg = [] || seg = ['.'] then stackSegments stack rest
      else if seg = ['.', '.'] then stackSegments stack.dropLast rest
      else stackSegments (stack ++ [seg]) rest

def normalizeTaskPath (path : String) : String :=
  let trimmed := trim path
  if trimmed = "" then ""
  else joinSegments (stackSegments [] ((posixChars trimmed).splitOn '/'))

/-- A segment that stays in a path. -/
structure IsSegment (seg : List Char) : Prop where
  nonempty : seg ≠ []
  here : seg ≠ ['.']
  up : seg ≠ ['.', '.']
  slash : '/' ∉ seg
  backslash : '\\' ∉ seg

theorem stackSegments_append {stack segs rest : List (List Char)}
    (stay : ∀ seg ∈ segs, IsSegment seg)
    : stackSegments stack (segs ++ rest) = stackSegments (stack ++ segs) rest := by
  induction segs generalizing stack with
  | nil => simp
  | cons seg segs ih =>
      obtain ⟨nonempty, here, up, -, -⟩ := stay seg List.mem_cons_self
      have later := fun other within => stay other (List.mem_cons_of_mem _ within)
      simp [stackSegments, nonempty, here, up, ih later]

/-- What is stacked stays, by induction over the segments. -/
theorem isSegment_of_mem_stackSegments {stack segs : List (List Char)}
    (stays : ∀ seg ∈ stack, IsSegment seg)
    (plain : ∀ seg ∈ segs, '/' ∉ seg ∧ '\\' ∉ seg)
    : ∀ seg ∈ stackSegments stack segs, IsSegment seg := by
  induction segs generalizing stack with
  | nil => exact stays
  | cons first rest ih =>
      have later := fun seg within => plain seg (List.mem_cons_of_mem _ within)
      unfold stackSegments
      split
      · exact ih stays later
      next named =>
        split
        · exact ih (fun seg within => stays seg (List.dropLast_subset _ within)) later
        next up =>
          refine ih (fun seg within => ?_) later
          rcases List.mem_append.mp within with old | new
          · exact stays seg old
          · obtain rfl := List.mem_singleton.mp new
            simp only [Bool.or_eq_true, decide_eq_true_eq, not_or] at named
            obtain ⟨slash, backslash⟩ := plain seg List.mem_cons_self
            exact ⟨named.1, named.2, up, slash, backslash⟩

/-- The segments of a path's normal form. -/
def taskSegments (path : String) : List (List Char) :=
  stackSegments [] ((posixChars (trim path)).splitOn '/')

@[simp]
theorem normalizeTaskPath_empty : normalizeTaskPath "" = "" := by
  decide

theorem normalizeTaskPath_eq (path : String)
    : normalizeTaskPath path = joinSegments (taskSegments path) := by
  unfold normalizeTaskPath taskSegments
  by_cases blank : trim path = ""
  · simp [blank, posixChars, stackSegments, joinSegments]
  · simp [blank]

/-- The parts of a split text hold its other characters. -/
theorem subset_of_mem_splitOn {chars seg : List Char} (within : seg ∈ chars.splitOn '/')
    : '/' ∉ seg ∧ seg ⊆ chars := by
  induction chars generalizing seg with
  | nil =>
      obtain rfl : seg = [] := by simpa using within
      simp
  | cons first rest ih =>
      rw [List.splitOn_cons_eq_if_modifyHead] at within
      split at within
      · rcases List.mem_cons.mp within with rfl | later
        · simp
        · exact ⟨(ih later).1, List.Subset.trans (ih later).2 (List.subset_cons_self _ _)⟩
      next other =>
        have more := List.splitOn_ne_nil '/' rest
        cases split : rest.splitOn '/' with
        | nil => exact absurd split more
        | cons head tail =>
            rw [split, List.modifyHead_cons] at within
            rcases List.mem_cons.mp within with rfl | later
            · obtain ⟨outside, inside⟩ := ih (split ▸ List.mem_cons_self)
              have apart : '/' ≠ first := fun same => other (by simp [← same])
              exact ⟨by simp [apart, outside], List.cons_subset_cons _ inside⟩
            · obtain ⟨outside, inside⟩ := ih (split ▸ List.mem_cons_of_mem _ later)
              exact ⟨outside, List.Subset.trans inside (List.subset_cons_self _ _)⟩

theorem backslash_not_mem_posixChars (text : String) : '\\' ∉ posixChars text := by
  unfold posixChars
  rw [List.mem_map]
  rintro ⟨char, -, same⟩
  split at same
  · exact absurd same (by decide)
  next other => exact other same

theorem isSegment_of_mem_taskSegments {path : String}
    : ∀ seg ∈ taskSegments path, IsSegment seg := by
  refine isSegment_of_mem_stackSegments (by simp) fun seg within => ?_
  obtain ⟨slash, inside⟩ := subset_of_mem_splitOn within
  exact ⟨slash, fun backslash => backslash_not_mem_posixChars _ (inside backslash)⟩

/-- The characters of a normal form. -/
def segmentChars (segs : List (List Char)) : List Char :=
  ['/'].intercalate segs

theorem segmentChars_concat {segs : List (List Char)} {last : List Char} (some : segs ≠ [])
    : segmentChars (segs ++ [last]) = segmentChars segs ++ '/' :: last := by
  induction segs with
  | nil => contradiction
  | cons first rest ih =>
      cases rest with
      | nil => simp [segmentChars]
      | cons second rest =>
          have later := ih (List.cons_ne_nil _ _)
          simp only [segmentChars, List.cons_append, List.intercalate_cons_cons] at later ⊢
          rw [later]
          simp

theorem backslash_not_mem_segmentChars {segs : List (List Char)}
    (plain : ∀ seg ∈ segs, '\\' ∉ seg)
    : '\\' ∉ segmentChars segs := by
  induction segs with
  | nil => simp [segmentChars]
  | cons first rest ih =>
      have here := plain first List.mem_cons_self
      have later := ih fun seg within => plain seg (List.mem_cons_of_mem _ within)
      cases rest with
      | nil => simpa [segmentChars] using here
      | cons second rest =>
          rw [segmentChars, List.intercalate_cons_cons]
          simp only [List.mem_append, List.mem_singleton, not_or]
          exact ⟨⟨here, by decide⟩, later⟩

/-- Of a text that white space surrounds, only the part between is split. -/
theorem taskSegments_of_trim {path : String} {chars : List Char}
    (trims : trim path = .ofList chars) (plain : '\\' ∉ chars)
    : taskSegments path = stackSegments [] (chars.splitOn '/') := by
  have same : posixChars (.ofList chars) = chars := by
    rw [posixChars, String.toList_ofList]
    refine (List.map_congr_left fun char within => ?_).trans (List.map_id chars)
    have other : char ≠ '\\' := fun backslash => plain (backslash ▸ within)
    simp [other]
  rw [taskSegments, trims, same]

theorem stackSegments_append_eq {stack segs rest : List (List Char)}
    : stackSegments stack (segs ++ rest) = stackSegments (stackSegments stack segs) rest := by
  induction segs generalizing stack with
  | nil => rfl
  | cons seg segs ih =>
      by_cases skipped : (decide (seg = []) || decide (seg = ['.'])) = true
      · simp only [List.cons_append, stackSegments, skipped, if_true, ih]
      · by_cases up : seg = ['.', '.']
        · simp only [List.cons_append, stackSegments, up, if_true, ih]
          rfl
        · simp only [List.cons_append, stackSegments, skipped, up, if_false, ih,
            Bool.false_eq_true]

section Trim

variable {isSpace : Char → Bool} {front rest : List Char} {char : Char}

theorem dropWhile_append_cons (mark : isSpace char = false)
    : (front ++ char :: rest).dropWhile isSpace = front.dropWhile isSpace ++ char :: rest := by
  induction front with
  | nil => simp [mark]
  | cons first front ih =>
      rw [List.cons_append, List.dropWhile_cons, List.dropWhile_cons]
      split
      · exact ih
      · rfl

theorem rdropWhile_append_cons (mark : isSpace char = false)
    : (front ++ char :: rest).rdropWhile isSpace = front ++ char :: rest.rdropWhile isSpace := by
  unfold List.rdropWhile
  rw [List.reverse_append, List.reverse_cons, List.append_assoc, List.singleton_append,
    dropWhile_append_cons mark]
  simp

theorem rdropWhile_append_of_all (spaces : rest.all isSpace = true)
    : (front ++ rest).rdropWhile isSpace = front.rdropWhile isSpace := by
  unfold List.rdropWhile
  rw [List.reverse_append, List.dropWhile_append_of_pos]
  simpa using spaces

end Trim

theorem splitOn_normalizeTaskPath {raw path : String} (normal : normalizeTaskPath raw = path)
    (nonempty : path ≠ "")
    : path.toList.splitOn '/' = taskSegments raw := by
  rw [← normal, normalizeTaskPath_eq, joinSegments, String.toList_ofList]
  refine List.splitOn_intercalate _ (fun seg within => ?_) fun none => ?_
  · exact (isSegment_of_mem_taskSegments seg within).slash
  · rw [← normal, normalizeTaskPath_eq, none] at nonempty
    exact nonempty rfl

theorem isSegment_of_normalizeTaskPath {raw path : String} (normal : normalizeTaskPath raw = path)
    (nonempty : path ≠ "")
    : ∀ seg ∈ path.toList.splitOn '/', IsSegment seg := by
  rw [splitOn_normalizeTaskPath normal nonempty]
  exact isSegment_of_mem_taskSegments

theorem backslash_not_mem_of_normal {raw path : String} (normal : normalizeTaskPath raw = path)
    : '\\' ∉ path.toList := by
  rw [← normal, normalizeTaskPath_eq, joinSegments, String.toList_ofList]
  exact backslash_not_mem_segmentChars fun seg within =>
    (isSegment_of_mem_taskSegments seg within).backslash

/-- The last name of a path that white space follows nowhere is kept. -/
theorem taskSegments_of_suffix {path : String} {front name : List Char}
    (plain : '\\' ∉ path.toList) (named : IsSegment name)
    (tight : name.rdropWhile isWhitespace = name)
    (ends : path.toList = front ++ '/' :: name)
    : ∃ before, taskSegments path = before ++ [name] := by
  have slash : isWhitespace '/' = false := by decide
  have trims : trim path = .ofList (front.dropWhile isWhitespace ++ '/' :: name) := by
    rw [trim, ends, dropWhile_append_cons slash, rdropWhile_append_cons slash, tight]
  have sub : front.dropWhile isWhitespace ++ '/' :: name ⊆ path.toList := by
    rw [ends]
    exact List.append_subset.mpr ⟨fun char within => List.mem_append_left _
      ((List.dropWhile_sublist _).subset within), List.subset_append_right _ _⟩
  have alone : name.splitOn '/' = [name] := List.splitOn_eq_singleton named.slash
  refine ⟨stackSegments [] ((front.dropWhile isWhitespace).splitOn '/'), ?_⟩
  rw [taskSegments_of_trim trims fun within => plain (sub within),
    List.splitOn_append_cons_self, alone, stackSegments_append_eq]
  simp [stackSegments, named.nonempty, named.here, named.up]

/-- Below a directory of a path in normal form, only white space after two dots leads out. -/
theorem taskSegments_of_prefix {raw path : String} {name rest : List Char}
    (normal : normalizeTaskPath raw = path) (named : '/' ∉ name)
    (tight : name.dropWhile isWhitespace = name) (starts : path.toList = name ++ '/' :: rest)
    : (∃ below, taskSegments path = name :: below)
      ∨ ∃ space, rest = '.' :: '.' :: space ∧ space.all isWhitespace = true := by
  have slash : isWhitespace '/' = false := by decide
  have nonempty : path ≠ "" := by
    rintro rfl
    simp at starts
  have segments := isSegment_of_normalizeTaskPath normal nonempty
  rw [starts, List.splitOn_append_cons_self_of_not_mem named] at segments
  have first : IsSegment name := segments name List.mem_cons_self
  have below := fun seg within => segments seg (List.mem_cons_of_mem _ within)
  obtain none | ⟨init, last, parts⟩ := List.eq_nil_or_concat (rest.splitOn '/')
  · exact absurd none (List.splitOn_ne_nil _ _)
  rw [List.concat_eq_append] at parts
  rw [parts] at below
  have trimmed : (rest.rdropWhile isWhitespace).splitOn '/'
      = init ++ [last.rdropWhile isWhitespace] := by
    have whole : segmentChars (init ++ [last]) = rest := by
      rw [← parts]
      exact List.intercalate_splitOn _
    have alone : (last.rdropWhile isWhitespace).splitOn '/' = [last.rdropWhile isWhitespace] := by
      refine List.splitOn_eq_singleton fun within => ?_
      exact (below last (by simp)).slash ((List.rdropWhile_prefix _ _).subset within)
    by_cases single : init = []
    · rw [single, List.nil_append] at whole ⊢
      have same : last = rest := by simpa [segmentChars] using whole
      rw [← same, alone]
    · have front : (segmentChars init).splitOn '/' = init :=
        List.splitOn_intercalate _
          (fun seg within => (below seg (List.mem_append_left _ within)).slash) single
      rw [← whole, segmentChars_concat single, rdropWhile_append_cons slash,
        List.splitOn_append_cons_self, alone, front]
  have trims : trim path = .ofList (name ++ '/' :: rest.rdropWhile isWhitespace) := by
    rw [trim, starts, dropWhile_append_cons slash, rdropWhile_append_cons slash, tight]
  have plain : '\\' ∉ name ++ '/' :: rest.rdropWhile isWhitespace := by
    intro within
    have prefix_ : name ++ '/' :: rest.rdropWhile isWhitespace <+: path.toList := by
      rw [starts, List.prefix_append_right_inj, List.cons_prefix_cons]
      exact ⟨rfl, List.rdropWhile_prefix _ _⟩
    exact backslash_not_mem_of_normal normal (prefix_.subset within)
  have inside : ∀ seg ∈ name :: init, IsSegment seg := by
    intro seg within
    rcases List.mem_cons.mp within with rfl | later
    · exact first
    · exact below seg (List.mem_append_left _ later)
  have stacked : taskSegments path
      = stackSegments (name :: init) [last.rdropWhile isWhitespace] := by
    rw [taskSegments_of_trim trims plain, List.splitOn_append_cons_self_of_not_mem named,
      trimmed, ← List.cons_append, stackSegments_append inside, List.nil_append]
  rw [stacked]
  unfold stackSegments
  split
  · exact .inl ⟨init, rfl⟩
  · split
    next up =>
      cases init with
      | cons second init => exact .inl ⟨(second :: init).dropLast, rfl⟩
      | nil =>
          have only : last = rest := by
            have whole : ['/'].intercalate (rest.splitOn '/') = rest := List.intercalate_splitOn _
            rw [parts] at whole
            simpa using whole
          refine .inr ⟨last.rtakeWhile isWhitespace, ?_, ?_⟩
          · have split : last.rdropWhile isWhitespace ++ last.rtakeWhile isWhitespace = last :=
              List.rdropWhile_append_rtakeWhile
            rw [up] at split
            exact only.symm.trans split.symm
          · exact List.all_eq_true.mpr fun char within => List.mem_rtakeWhile_imp within
    · exact .inl ⟨init ++ [last.rdropWhile isWhitespace], rfl⟩

/-- What is left of a path when white space is trimmed is stacked by segments. -/
theorem taskSegments_of_segments {path : String} {segs : List (List Char)}
    (trims : trim path = .ofList (segmentChars segs)) (some : segs ≠ [])
    (plain : ∀ seg ∈ segs, '/' ∉ seg ∧ '\\' ∉ seg)
    : taskSegments path = stackSegments [] segs := by
  have splits : (segmentChars segs).splitOn '/' = segs :=
    List.splitOn_intercalate _ (fun seg within => (plain seg within).1) some
  rw [taskSegments_of_trim trims
    (backslash_not_mem_segmentChars fun seg within => (plain seg within).2), splits]

theorem segmentChars_cons {first : List Char} {segs : List (List Char)} (some : segs ≠ [])
    : segmentChars (first :: segs) = first ++ '/' :: segmentChars segs := by
  cases segs with
  | nil => contradiction
  | cons second rest => simp [segmentChars, List.intercalate_cons_cons]

theorem trim_segments {first last : List Char} {middle : List (List Char)}
    : trim (joinSegments (first :: (middle ++ [last])))
      = .ofList (segmentChars
          (first.dropWhile isWhitespace :: (middle ++ [last.rdropWhile isWhitespace]))) := by
  have slash : isWhitespace '/' = false := by decide
  have some (tail : List Char) : middle ++ [tail] ≠ [] := by simp
  have whole (head tail : List Char) : segmentChars (head :: (middle ++ [tail]))
      = segmentChars (head :: middle) ++ '/' :: tail := by
    rw [← List.cons_append]
    exact segmentChars_concat (List.cons_ne_nil _ _)
  change trim (.ofList (segmentChars (first :: (middle ++ [last])))) = _
  rw [trim, String.toList_ofList, segmentChars_cons (some last), dropWhile_append_cons slash,
    ← segmentChars_cons (some last), whole, rdropWhile_append_cons slash, ← whole]

theorem taskSegments_dotted {first last : List Char} {middle : List (List Char)}
    (stay : ∀ seg ∈ middle, IsSegment seg) (dot : first.dropWhile isWhitespace = ['.'])
    (plain : '/' ∉ last ∧ '\\' ∉ last)
    : taskSegments (joinSegments (first :: (middle ++ [last])))
      = stackSegments middle [last.rdropWhile isWhitespace] := by
  have trims : trim (joinSegments (first :: (middle ++ [last])))
      = .ofList (segmentChars (['.'] :: (middle ++ [last.rdropWhile isWhitespace]))) :=
    dot ▸ trim_segments
  have short : last.rdropWhile isWhitespace ⊆ last := (List.rdropWhile_prefix _ _).subset
  rw [taskSegments_of_segments trims (List.cons_ne_nil _ _)]
  · change stackSegments [] (middle ++ [last.rdropWhile isWhitespace]) = _
    rw [stackSegments_append stay, List.nil_append]
  · intro seg within
    rcases List.mem_cons.mp within with rfl | later
    · decide
    · rcases List.mem_append.mp later with inside | final
      · exact ⟨(stay seg inside).slash, (stay seg inside).backslash⟩
      · obtain rfl := List.mem_singleton.mp final
        exact ⟨fun slash => plain.1 (short slash), fun backslash => plain.2 (short backslash)⟩

/-- Every normal form is the second normal form of some path, whose directory has a normal form
below it.
-/
theorem exists_twice_normalized {raw path : String} {word : List Char}
    (normal : normalizeTaskPath raw = path) (nonempty : path ≠ "") (named : IsSegment word)
    (tight : word.rdropWhile isWhitespace = word)
    : ∃ spelled once, normalizeTaskPath spelled = once ∧ normalizeTaskPath once = path
      ∧ normalizeTaskPath (joinSegments (once.toList.splitOn '/').dropLast)
        = path ++ "/" ++ .ofList word := by
  have stay : ∀ seg ∈ taskSegments raw, IsSegment seg := isSegment_of_mem_taskSegments
  have below : ∀ seg ∈ taskSegments raw ++ [word], IsSegment seg := by
    intro seg within
    rcases List.mem_append.mp within with inside | last
    · exact stay seg inside
    · exact List.mem_singleton.mp last ▸ named
  let around : List (List Char) := [' ', '.'] :: (taskSegments raw ++ [word] ++ [['.', '.', ' ']])
  have aroundStay : ∀ seg ∈ around, IsSegment seg := by
    intro seg within
    rcases List.mem_cons.mp within with rfl | later
    · exact ⟨by decide, by decide, by decide, by decide, by decide⟩
    · rcases List.mem_append.mp later with inside | last
      · exact below seg inside
      · obtain rfl := List.mem_singleton.mp last
        exact ⟨by decide, by decide, by decide, by decide, by decide⟩
  have path_eq : path = joinSegments (taskSegments raw) := by
    rw [← normal, normalizeTaskPath_eq]
  have some : taskSegments raw ≠ [] := by
    intro none
    rw [path_eq, none] at nonempty
    exact nonempty rfl
  refine ⟨joinSegments (['.'] :: (around ++ [['.']])), joinSegments around, ?_, ?_, ?_⟩
  · rw [normalizeTaskPath_eq, taskSegments_dotted aroundStay (by decide) (by decide)]
    rfl
  · rw [normalizeTaskPath_eq, taskSegments_dotted below (by decide) (by decide), path_eq]
    change joinSegments (taskSegments raw ++ [word]).dropLast = _
    rw [List.dropLast_concat]
  · have splits : (joinSegments around).toList.splitOn '/' = around := by
      rw [joinSegments, String.toList_ofList]
      exact List.splitOn_intercalate _ (fun seg within => (aroundStay seg within).slash)
        (List.cons_ne_nil _ _)
    have front : around.dropLast = [' ', '.'] :: (taskSegments raw ++ [word]) := by
      change ([' ', '.'] :: (taskSegments raw ++ [word]) ++ [['.', '.', ' ']]).dropLast = _
      rw [List.dropLast_concat]
    rw [splits, front, normalizeTaskPath_eq,
      taskSegments_dotted stay (by decide) ⟨named.slash, named.backslash⟩, tight, path_eq]
    have stacked : stackSegments (taskSegments raw) [word] = taskSegments raw ++ [word] := by
      simp [stackSegments, named.nonempty, named.here, named.up]
    have chars : (joinSegments (taskSegments raw ++ [word])).toList
        = segmentChars (taskSegments raw) ++ '/' :: word := by
      rw [joinSegments, String.toList_ofList]
      exact segmentChars_concat some
    rw [stacked, ← String.toList_inj, chars]
    simp [joinSegments, segmentChars]

end AiSdlc.Domain
