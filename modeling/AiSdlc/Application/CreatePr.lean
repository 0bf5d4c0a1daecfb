import AiSdlc.Js.TextOperations
import AiSdlc.Js.UnitTexts
import AiSdlc.Transition.While
import Mathlib.Data.Nat.Digits.Defs

/-! The body of a pull request: how it is assembled, and cut where it is too long. -/

namespace AiSdlc.Application

open AiSdlc.Js
open AiSdlc.Transition

-----------------------------------------------------------------------------------------
-- Sections that are removed
-----------------------------------------------------------------------------------------

/-- Where the line of a section header begins. -/
def findSection (body header : CodeUnits) : Option Nat :=
  if header ++ [newline] <+: body ∨ body = header then some 0
  else
    match findPart (newline :: (header ++ [newline])) body with
    | some found => some (found + 1)
    | none =>
        match findPart (newline :: header) body with
        | some eofFound =>
            if eofFound + 1 + header.length = body.length then some (eofFound + 1) else none
        | none => none

/-- `'\n## '`. -/
def sectionBreak : CodeUnits :=
  newline :: codeUnits "## "

/-- `_removeSection`. -/
def removeSection (body header : CodeUnits) : CodeUnits :=
  match findSection body header with
  | none => body
  | some idx =>
      let before := trimEndUnits (body.take idx)
      match findPartFrom [newline] body idx with
      | none => before
      | some headerLineEnd =>
          let remaining := body.drop headerLineEnd
          match findPart sectionBreak remaining with
          | none => before
          | some nextHeaderOffset =>
              let nextSection := remaining.drop (nextHeaderOffset + 1)
              if before ≠ [] then before ++ newline :: newline :: nextSection else nextSection

/-- Where the line with the validation status begins. -/
def findValidation (body : CodeUnits) : Option Nat :=
  if codeUnits "## Validation:" <+: body then some 0
  else (findPart (newline :: codeUnits "## Validation:") body).map (· + 1)

/-- `_removeValidationSteps`. -/
def removeValidationSteps (body : CodeUnits) : CodeUnits :=
  match findValidation body with
  | none => body
  | some idx =>
      match findPartFrom [newline] body idx with
      | none => body
      | some headerLineEnd =>
          let headerLine := trimEndUnits (body.take headerLineEnd)
          let remaining := body.drop headerLineEnd
          match findPart sectionBreak remaining with
          | none => headerLine
          | some nextHeaderOffset =>
              headerLine ++ newline :: newline :: remaining.drop (nextHeaderOffset + 1)

-----------------------------------------------------------------------------------------
-- The limit
-----------------------------------------------------------------------------------------

def maxPrBodyBytes : Nat :=
  240000

def truncationFooter : CodeUnits :=
  newline :: newline :: (codeUnits "---" ++ newline :: codeUnits
    "> PR body truncated to fit within GitHub size limits. Some artifact content omitted.")

/-- One round of the last resort: a tenth is cut off, and the line that it cuts through. -/
def cutTenth (result : CodeUnits) : CodeUnits :=
  let kept := result.take (9 * result.length / 10)
  let nl := lastIndexOf kept newline kept.length
  if nl > 0 then kept.take nl.toNat else kept

/-- `while (Buffer.byteLength(result, 'utf-8') > maxBytes)`, for so many rounds at most. -/
def cutToFit (bound : Nat) (maxBytes : Int) (candidate : CodeUnits) : Option CodeUnits :=
  (whileLoop (fun result => decide ((byteLength result : Int) > maxBytes))
    (fun result => (.ok (.goOn, cutTenth result) : Except Empty _)) bound candidate).bind
    Except.toOption

/-- `_truncateBody`, with a bound on the rounds of its loop. -/
def truncateBody (bound : Nat) (body : CodeUnits) (limit : Nat) : Option CodeUnits :=
  let maxBytes : Int := limit - byteLength truncationFooter
  let withoutActions := removeSection body (codeUnits "## Autonomous Actions")
  if byteLength withoutActions ≤ maxBytes then some (withoutActions ++ truncationFooter)
  else
    let withoutReview := removeSection withoutActions (codeUnits "## Review Findings")
    if byteLength withoutReview ≤ maxBytes then some (withoutReview ++ truncationFooter)
    else
      let candidate := removeValidationSteps withoutReview
      if byteLength candidate ≤ maxBytes then some (candidate ++ truncationFooter)
      else (cutToFit bound maxBytes candidate).map (· ++ truncationFooter)

/-- What is read from the run for its pull request; each of the texts may be any text. -/
structure PrSummary where
  issueTitle : CodeUnits
  issueNumber : Nat
  prSummary : CodeUnits
  prTasks : CodeUnits
  prChanges : CodeUnits
  prValidation : CodeUnits
  prValidationSteps : CodeUnits
  prReview : CodeUnits
  prAutonomousActions : CodeUnits

/-- `text || '- None'`. -/
def orNone (text : CodeUnits) : CodeUnits :=
  if text = [] then codeUnits "- None" else text

/-- The parts of the body behind its head. -/
def PrSummary.sections (summary : PrSummary) : List CodeUnits :=
  let number := codeUnits summary.issueNumber.repr
  (if summary.prSummary ≠ [] then [summary.prSummary, []] else [])
    ++ [codeUnits "## Tasks", orNone summary.prTasks, []]
    ++ [codeUnits "## Changes", orNone summary.prChanges, []]
    ++ [codeUnits "## Validation: " ++ summary.prValidation]
    ++ (if summary.prValidationSteps ≠ [] then [summary.prValidationSteps] else [])
    ++ [[]]
    ++ [codeUnits "## Review Findings", summary.prReview, []]
    ++ (if summary.prAutonomousActions ≠ [] then [summary.prAutonomousActions, []] else [])
    ++ [codeUnits "## Artifacts",
      codeUnits "Run logs and artifacts: `ai/issues/" ++ number ++ codeUnits "/`"]

def PrSummary.parts (summary : PrSummary) : List CodeUnits :=
  [codeUnits "# " ++ summary.issueTitle, [],
    codeUnits "Closes #" ++ codeUnits summary.issueNumber.repr, []]
    ++ summary.sections

/-- The assembly at the end of `_assemblePrSummary`. -/
def assemblePrBody (bound : Nat) (summary : PrSummary) : Option CodeUnits :=
  let body := [newline].intercalate summary.parts
  if byteLength body > maxPrBodyBytes then truncateBody bound body maxPrBodyBytes else some body

section Limit

variable {result body : CodeUnits} {maxBytes : Int} {limit : Nat}

theorem cutTenth_length (result : CodeUnits)
    : (cutTenth result).length ≤ 9 * result.length / 10 := by
  unfold cutTenth
  dsimp only
  split
  · rw [List.length_take, List.length_take]
    omega
  · rw [List.length_take]
    omega

/-- The loop ends with what fits, where there are bytes to fit. -/
theorem cutToFit_fits {property : CodeUnits → Prop} (room : 0 ≤ maxBytes)
    (kept : ∀ result, property result → (byteLength result : Int) > maxBytes
      → property (cutTenth result))
    {candidate : CodeUnits} (holds : property candidate)
    : ∃ result least, (∀ bound ≥ least, cutToFit bound maxBytes candidate = some result)
      ∧ byteLength result ≤ maxBytes ∧ property result := by
  have goes {result : CodeUnits}
      (guarded : decide ((byteLength result : Int) > maxBytes) = true)
      : (byteLength result : Int) > maxBytes ∧ 0 < result.length := by
    have long := of_decide_eq_true guarded
    have most := byteLength_le result
    exact ⟨long, by omega⟩
  obtain ⟨result, ended, fits, stays⟩ := @whileLoop_ensures Empty CodeUnits
    (fun result => decide ((byteLength result : Int) > maxBytes))
    (fun result => .ok (.goOn, cutTenth result)) property
    (fun result => byteLength result ≤ maxBytes ∧ property result) List.length
    (fun state inside guarded => by
      have shorter := cutTenth_length state
      obtain ⟨long, positive⟩ := goes guarded
      exact ⟨.goOn, _, rfl, kept state inside long, by omega⟩)
    (fun state _ guarded => (goes guarded).2)
    (fun state inside guarded => ⟨Int.not_lt.mp (of_decide_eq_false guarded), inside⟩)
    candidate.length candidate holds (Nat.le_refl _)
  refine ⟨result, candidate.length, fun bound more => ?_, fits, stays⟩
  rw [cutToFit, whileLoop_mono ended more]
  rfl

/-- Where not even the footer fits, the loop never ends, by induction over the rounds. -/
theorem cutToFit_stuck (room : maxBytes < 0) (bound : Nat) (candidate : CodeUnits)
    : cutToFit bound maxBytes candidate = none := by
  have always (result : CodeUnits) : decide ((byteLength result : Int) > maxBytes) = true :=
    decide_eq_true (by omega)
  rw [cutToFit, Option.bind_eq_none_iff]
  intro ended same
  induction bound generalizing candidate with
  | zero =>
      rw [whileLoop, if_pos (always candidate)] at same
      cases same
  | succ bound ih =>
      rw [whileLoop, if_pos (always candidate)] at same
      exact ih _ same

theorem fits_with_footer (fits : (byteLength result : Int) ≤ limit - byteLength truncationFooter)
    : byteLength (result ++ truncationFooter) ≤ limit := by
  have joined := byteLength_append_le result truncationFooter
  omega

/-- A property that holds of the body and is kept by every cut holds of what comes out in front
of the footer, and that fits.
-/
theorem truncateBody_keeps {property : CodeUnits → Prop}
    (room : byteLength truncationFooter ≤ limit) (holds : property body)
    (actions : ∀ body, property body
      → property (removeSection body (codeUnits "## Autonomous Actions")))
    (review : ∀ body, property body
      → property (removeSection body (codeUnits "## Review Findings")))
    (steps : ∀ body, property body → property (removeValidationSteps body))
    (cut : ∀ result, property result
      → (byteLength result : Int) > limit - byteLength truncationFooter
      → property (cutTenth result))
    : ∃ result least,
        (∀ bound ≥ least, truncateBody bound body limit = some (result ++ truncationFooter))
        ∧ byteLength (result ++ truncationFooter) ≤ limit ∧ property result := by
  have first := actions body holds
  have second := review _ first
  have third := steps _ second
  unfold truncateBody
  dsimp only
  split
  next fits => exact ⟨_, 0, fun _ _ => rfl, fits_with_footer fits, first⟩
  split
  next fits => exact ⟨_, 0, fun _ _ => rfl, fits_with_footer fits, second⟩
  split
  next fits => exact ⟨_, 0, fun _ _ => rfl, fits_with_footer fits, third⟩
  · obtain ⟨result, least, ended, fits, kept⟩ := cutToFit_fits (by omega) cut third
    refine ⟨result, least, fun bound more => ?_, fits_with_footer fits, kept⟩
    rw [ended bound more]
    rfl

/-- Whatever the body is, it is cut to the limit where the footer fits it, and where it does not
fit, the cutting never ends.
-/
theorem truncateBody_ends (body : CodeUnits) (limit : Nat)
    : (byteLength truncationFooter ≤ limit →
        ∃ result least,
          (∀ bound ≥ least, truncateBody bound body limit = some (result ++ truncationFooter))
          ∧ byteLength (result ++ truncationFooter) ≤ limit)
      ∧ (limit < byteLength truncationFooter →
        ∀ bound, truncateBody bound body limit = none) := by
  constructor
  · intro room
    obtain ⟨result, least, ended, fits, -⟩ := @truncateBody_keeps body limit (fun _ => True) room
      trivial (fun _ _ => trivial) (fun _ _ => trivial) (fun _ _ => trivial) fun _ _ _ => trivial
    exact ⟨result, least, ended, fits⟩
  · intro room bound
    have never (text : CodeUnits)
        : ¬(byteLength text : Int) ≤ limit - byteLength truncationFooter := by
      omega
    unfold truncateBody
    dsimp only
    rw [if_neg (never _), if_neg (never _), if_neg (never _), cutToFit_stuck (by omega)]
    rfl

end Limit

-----------------------------------------------------------------------------------------
-- The head of the body
-----------------------------------------------------------------------------------------

/-- The lines at the start of a body that no cut may touch: none of their line breaks is followed
by a header.
-/
structure Opening (head : CodeUnits) : Prop where
  starts : ∃ rest, head = codeUnits "# " ++ rest
  breaks : ∀ front back, head = front ++ newline :: back → ∃ unit more, back = unit :: more
    ∧ unit ≠ 35
  ends : ∃ front last, head = front ++ [last] ∧ isSpaceUnit last = false

/-- A body begins with the whole lines of its head. -/
def KeepsHead (head body : CodeUnits) : Prop :=
  body = head ∨ head ++ [newline] <+: body

section Heads

variable {head body part rest : CodeUnits} {index : Nat}

theorem KeepsHead.append (keeps : KeepsHead head body) (rest : CodeUnits)
    : KeepsHead head (body ++ newline :: rest) := by
  rcases keeps with rfl | starts
  · exact .inr ⟨rest, by simp⟩
  · exact .inr (starts.trans (List.prefix_append _ _))

theorem Opening.ne_nil (opening : Opening head) (keeps : KeepsHead head body) : body ≠ [] := by
  obtain ⟨front, last, rfl, -⟩ := opening.ends
  rintro rfl
  rcases keeps with same | ⟨rest, same⟩
  · exact List.concat_ne_nil last front same.symm
  · simp at same

/-- A header that is found on a line of its own stands behind the head. -/
theorem Opening.behind (opening : Opening head) (keeps : KeepsHead head body)
    (found : newline :: 35 :: part <+: body.drop index)
    : ∃ rest, body = head ++ newline :: rest ∧ head.length ≤ index := by
  obtain ⟨tail, same⟩ : ∃ tail, body = head ++ tail := by
    rcases keeps with rfl | ⟨rest, rfl⟩
    · exact ⟨[], by simp⟩
    · exact ⟨newline :: rest, by simp⟩
  have below : head.length ≤ index := by
    by_contra inside
    have within : index < head.length := by omega
    obtain ⟨more, starts⟩ := found
    rw [same, List.drop_append_of_le_length (by omega), List.drop_eq_getElem_cons within] at starts
    simp only [List.cons_append, List.cons.injEq] at starts
    obtain ⟨here, next⟩ := starts
    obtain ⟨unit, back, split, other⟩ := opening.breaks (head.take index)
      (head.drop (index + 1)) (by rw [here, List.cons_getElem_drop_succ, List.take_append_drop])
    rw [split, List.cons_append, List.cons.injEq] at next
    exact other next.1.symm
  rcases keeps with same | ⟨rest, same⟩
  · rw [same, List.drop_of_length_le below] at found
    cases List.prefix_nil.mp found
  · exact ⟨rest, by rw [← same]; simp, below⟩

/-- What is in front of a header, without the white space at its end, keeps the head. -/
theorem Opening.keeps_before (opening : Opening head) (index : Nat) (below : head.length < index)
    : KeepsHead head (trimEndUnits ((head ++ newline :: rest).take index)) := by
  obtain ⟨front, last, same, solid⟩ := opening.ends
  obtain ⟨more, rfl⟩ : ∃ more, index = head.length + (more + 1) :=
    ⟨index - head.length - 1, by omega⟩
  rw [List.take_length_add_append, List.take_succ_cons, same, trimEndUnits_append _ solid]
  obtain ⟨tail, trimmed⟩ := trimEndUnits_prefix (newline :: rest.take more)
  cases ended : trimEndUnits (newline :: rest.take more) with
  | nil => exact .inl (List.append_nil _)
  | cons unit others =>
      rw [ended, List.cons_append, List.cons.injEq] at trimmed
      exact .inr ⟨others, by rw [trimmed.1]; simp⟩

/-- A header of the second level. -/
def IsHeader (header : CodeUnits) : Prop :=
  ∃ more, header = 35 :: 35 :: more

theorem isHeader_of_take (starts : part.take 2 = [35, 35]) : IsHeader part :=
  ⟨part.drop 2, by rw [← List.take_append_drop 2 part, starts]; rfl⟩

/-- No header of the second level stands at the start. -/
theorem Opening.not_header (opening : Opening head) (keeps : KeepsHead head body)
    (header : IsHeader part)
    : ¬part <+: body := by
  obtain ⟨more, rfl⟩ := header
  obtain ⟨front, rfl⟩ := opening.starts
  have units : codeUnits "# " = [35, 32] := by
    decide
  rw [units] at keeps
  rintro ⟨behind, rfl⟩
  rcases keeps with same | ⟨behind, same⟩
  · cases same
  · cases same

theorem Opening.findSection (opening : Opening head) (keeps : KeepsHead head body)
    (header : IsHeader part) (found : findSection body part = some index)
    : ∃ rest, body = head ++ newline :: rest ∧ head.length < index := by
  have absent := opening.not_header keeps header
  have elsewhere : ¬(part ++ [newline] <+: body ∨ body = part) := by
    rintro (starts | rfl)
    · exact absent ((List.prefix_append _ _).trans starts)
    · exact absent List.prefix_rfl
  obtain ⟨more, rfl⟩ := header
  rw [Application.findSection, if_neg elsewhere] at found
  split at found
  next there =>
    cases found
    obtain ⟨rest, same, below⟩ := opening.behind keeps (prefix_of_findPart there).1
    exact ⟨rest, same, Nat.lt_succ_of_le below⟩
  · split at found
    next there =>
      split at found
      · cases found
        obtain ⟨rest, same, below⟩ := opening.behind keeps (prefix_of_findPart there).1
        exact ⟨rest, same, Nat.lt_succ_of_le below⟩
      · cases found
    · cases found

theorem Opening.removeSection (opening : Opening head) (keeps : KeepsHead head body)
    (header : IsHeader part)
    : KeepsHead head (removeSection body part) := by
  rw [Application.removeSection]
  split
  · exact keeps
  next idx found =>
    obtain ⟨rest, rfl, below⟩ := opening.findSection keeps header found
    have before := @Opening.keeps_before _ rest opening idx below
    dsimp only
    split
    · exact before
    split
    · exact before
    split
    · exact before.append _
    next empty => exact absurd (not_not.mp empty) (opening.ne_nil before)

theorem Opening.findValidation (opening : Opening head) (keeps : KeepsHead head body)
    (found : findValidation body = some index)
    : ∃ rest, body = head ++ newline :: rest ∧ head.length < index := by
  have header : IsHeader (codeUnits "## Validation:") :=
    isHeader_of_take (by decide)
  rw [Application.findValidation, if_neg (opening.not_header keeps header)] at found
  obtain ⟨before, there, rfl⟩ := Option.map_eq_some_iff.mp found
  obtain ⟨more, units⟩ := header
  have starts := (prefix_of_findPart there).1
  rw [units] at starts
  obtain ⟨rest, same, below⟩ := opening.behind keeps starts
  exact ⟨rest, same, Nat.lt_succ_of_le below⟩

theorem Opening.removeValidationSteps (opening : Opening head) (keeps : KeepsHead head body)
    : KeepsHead head (removeValidationSteps body) := by
  rw [Application.removeValidationSteps]
  split
  · exact keeps
  next idx found =>
    obtain ⟨rest, rfl, below⟩ := opening.findValidation keeps found
    split
    · exact keeps
    next headerLineEnd ended =>
      have inside := le_of_findPartFrom ended
      have before := @Opening.keeps_before _ rest opening headerLineEnd (by omega)
      dsimp only
      split
      · exact before
      · exact before.append _

/-- A cut leaves the head, where a tenth less is still longer. -/
theorem KeepsHead.cutTenth (keeps : KeepsHead head body)
    (long : head.length + 1 ≤ 9 * body.length / 10)
    : KeepsHead head (cutTenth body) := by
  obtain ⟨rest, rfl⟩ : ∃ rest, body = head ++ newline :: rest := by
    rcases keeps with rfl | ⟨rest, rfl⟩
    · omega
    · exact ⟨rest, by simp⟩
  obtain ⟨count, tenth⟩ : ∃ count,
      9 * (head ++ newline :: rest).length / 10 = head.length + (count + 1) :=
    ⟨_, (Nat.add_sub_cancel' long).symm.trans (by rw [Nat.add_assoc, Nat.add_comm 1])⟩
  have kept : (head ++ newline :: rest).take (9 * (head ++ newline :: rest).length / 10)
      = head ++ newline :: rest.take count := by
    rw [tenth, List.take_length_add_append, List.take_succ_cons]
  simp only [Application.cutTenth, kept]
  generalize rest.take count = shorter
  obtain ⟨front, back, split, free⟩ :=
    @exists_last (newline :: shorter) newline List.mem_cons_self
  have position := @lastIndexOf_append (head ++ front) back newline free
  rw [List.append_assoc, ← split] at position
  rw [position]
  split
  · rw [Int.toNat_natCast, split, ← List.append_assoc, List.take_left]
    cases front with
    | nil => exact .inl (List.append_nil _)
    | cons unit more =>
        rw [List.cons_append, List.cons.injEq] at split
        exact .inr ⟨more, by rw [split.1]; simp⟩
  · exact .inr ⟨shorter, by simp⟩

end Heads

-----------------------------------------------------------------------------------------
-- The assembled body
-----------------------------------------------------------------------------------------

/-- The title line, and the line that closes the issue. -/
def PrSummary.head (summary : PrSummary) : CodeUnits :=
  codeUnits "# " ++ summary.issueTitle
    ++ newline :: newline :: (codeUnits "Closes #" ++ codeUnits summary.issueNumber.repr)

section Summaries

variable {summary : PrSummary} {number : Nat}

/-- A number is written with digits. -/
theorem codeUnits_repr (number : Nat)
    : codeUnits number.repr = number.repr.toList.map Char.toNat
      ∧ ∀ unit ∈ codeUnits number.repr, 48 ≤ unit ∧ unit ≤ 57 := by
  have digits {char : Char} (member : char ∈ number.repr.toList)
      : 48 ≤ char.toNat ∧ char.toNat ≤ 57 := by
    have digit := isDigit_of_mem_repr member
    simp only [Char.isDigit, Bool.and_eq_true, decide_eq_true_eq] at digit
    exact ⟨digit.1, digit.2⟩
  have single : codeUnits number.repr = number.repr.toList.map Char.toNat := by
    rw [codeUnits, List.map_eq_flatMap]
    refine List.flatMap_congr fun char member => if_pos ?_
    have small := (digits member).2
    omega
  refine ⟨single, fun unit member => ?_⟩
  rw [single] at member
  obtain ⟨char, held, rfl⟩ := List.mem_map.mp member
  exact digits held

theorem length_codeUnits_repr (below : number < 2 ^ 53) : (codeUnits number.repr).length ≤ 16 := by
  rw [(codeUnits_repr number).1, List.length_map, String.length_toList]
  exact Nat.repr_length number 16 (by omega) (by omega)

theorem cut_at_break {line rest front back : CodeUnits} (single : newline ∉ line)
    (split : line ++ newline :: rest = front ++ newline :: back)
    : line = front ∧ rest = back ∨ ∃ more, front = line ++ newline :: more
      ∧ rest = more ++ newline :: back := by
  rcases List.append_eq_append_iff.mp split with ⟨more, longer, behind⟩ | ⟨more, shorter, behind⟩
  · cases more with
    | nil => exact .inl ⟨by simpa using longer.symm, (List.cons.inj behind).2⟩
    | cons unit more =>
        obtain ⟨rfl, same⟩ := List.cons.inj behind
        exact .inr ⟨more, longer, same⟩
  · cases more with
    | nil => exact .inl ⟨by simpa using shorter, (List.cons.inj behind).2.symm⟩
    | cons unit more =>
        obtain ⟨rfl, -⟩ := List.cons.inj behind
        exact absurd (shorter ▸ List.mem_append_right _ List.mem_cons_self) single

/-- No line break in the head is followed by a header. -/
theorem PrSummary.opening (single : newline ∉ summary.issueTitle) : Opening summary.head := by
  have digits := (codeUnits_repr summary.issueNumber).2
  have title : newline ∉ codeUnits "# " ++ summary.issueTitle := by
    rw [List.mem_append, not_or]
    exact ⟨by decide, single⟩
  have closes : newline ∉ codeUnits "Closes #" ++ codeUnits summary.issueNumber.repr := by
    rw [List.mem_append, not_or]
    refine ⟨by decide, fun member => ?_⟩
    have digit := (digits newline member).1
    rw [newline] at digit
    omega
  constructor
  · exact ⟨_, by rw [head, List.append_assoc]⟩
  · intro front back split
    obtain ⟨-, behind⟩ | ⟨more, -, behind⟩ := cut_at_break title split
    · subst behind
      exact ⟨newline, _, rfl, by decide⟩
    · cases more with
      | nil =>
          refine ⟨67, (codeUnits "Closes #" ++ codeUnits summary.issueNumber.repr).tail, ?_,
            by decide⟩
          exact (List.cons.inj behind).2.symm
      | cons unit more =>
          have held := (List.cons.inj behind).2
          exact absurd (held ▸ List.mem_append_right _ List.mem_cons_self) closes
  · have nonempty : codeUnits summary.issueNumber.repr ≠ [] := by
      intro none
      have text : summary.issueNumber.repr = "" :=
        codeUnits_injective (none.trans (by rfl))
      exact Nat.repr_ne_empty text
    obtain ⟨front, last, same⟩ := (List.eq_nil_or_concat' _).resolve_left nonempty
    obtain ⟨lower, upper⟩ := digits last (same ▸ List.mem_append_right _ List.mem_cons_self)
    refine ⟨codeUnits "# " ++ summary.issueTitle
      ++ newline :: newline :: (codeUnits "Closes #" ++ front), last, ?_, ?_⟩
    · rw [head, same]
      simp
    · have solid : ∀ unit ∈ List.range' 48 10, isSpaceUnit unit = false := by
        decide
      exact solid last (List.mem_range'_1.mpr ⟨lower, by omega⟩)

theorem PrSummary.body_eq (summary : PrSummary)
    : ∃ rest, [newline].intercalate summary.parts = summary.head ++ newline :: rest := by
  have nonempty : summary.sections ≠ [] := by
    simp [PrSummary.sections]
  have parts : summary.parts = (codeUnits "# " ++ summary.issueTitle) :: []
      :: (codeUnits "Closes #" ++ codeUnits summary.issueNumber.repr) :: [] :: summary.sections :=
    rfl
  refine ⟨[newline].intercalate ([] :: summary.sections), ?_⟩
  rw [parts, List.intercalate_cons_of_ne_nil (List.cons_ne_nil _ _),
    List.intercalate_cons_of_ne_nil (List.cons_ne_nil _ _),
    List.intercalate_cons_of_ne_nil (List.cons_ne_nil _ _), PrSummary.head]
  simp

/-- The body is within the limit of its bytes, begins with the title line, and has the line that
closes the issue behind it, whatever is cut from the rest.
-/
theorem assemblePrBody_closes (summary : PrSummary) (single : newline ∉ summary.issueTitle)
    (short : summary.issueTitle.length ≤ 50000) (numbered : summary.issueNumber < 2 ^ 53)
    : ∃ result rest least, (∀ bound ≥ least, assemblePrBody bound summary = some result)
      ∧ byteLength result ≤ maxPrBodyBytes ∧ result = summary.head ++ newline :: rest := by
  have footer : truncationFooter.length ≤ 100 := by
    simp [truncationFooter, codeUnits]
  have room := byteLength_le truncationFooter
  obtain ⟨behind, body⟩ := summary.body_eq
  have opening := PrSummary.opening single
  have keeps : KeepsHead summary.head ([newline].intercalate summary.parts) :=
    .inr ⟨behind, by rw [body]; simp⟩
  have length : summary.head.length ≤ 50100 := by
    have number := length_codeUnits_repr numbered
    have first : (codeUnits "# ").length = 2 := by
      decide
    have second : (codeUnits "Closes #").length = 8 := by
      decide
    simp only [PrSummary.head, List.length_append, List.length_cons, first, second]
    omega
  unfold assemblePrBody
  dsimp only
  split
  · obtain ⟨result, least, ended, fits, kept⟩ := @truncateBody_keeps
      ([newline].intercalate summary.parts) maxPrBodyBytes (KeepsHead summary.head)
      (by rw [maxPrBodyBytes]; omega) keeps
      (fun body keeps => opening.removeSection keeps (isHeader_of_take (by decide)))
      (fun body keeps => opening.removeSection keeps (isHeader_of_take (by decide)))
      (fun body keeps => opening.removeValidationSteps keeps)
      (fun result keeps long => by
        have most := byteLength_le result
        rw [maxPrBodyBytes] at long
        exact keeps.cutTenth (by omega))
    obtain ⟨rest, same⟩ : ∃ rest, result ++ truncationFooter
        = summary.head ++ newline :: rest := by
      rcases kept with rfl | ⟨rest, rfl⟩
      · exact ⟨_, rfl⟩
      · exact ⟨rest ++ truncationFooter, by simp⟩
    exact ⟨_, rest, least, ended, fits, same⟩
  next fits => exact ⟨_, behind, 0, fun _ _ => rfl, Nat.le_of_not_lt fits, body⟩

theorem length_le_intercalate (separator : CodeUnits) {part : CodeUnits} {parts : List CodeUnits}
    (within : part ∈ parts)
    : part.length ≤ (separator.intercalate parts).length := by
  induction parts with
  | nil => exact absurd within List.not_mem_nil
  | cons first rest ih =>
      cases rest with
      | nil =>
          obtain rfl := List.mem_singleton.mp within
          simp
      | cons second others =>
          rw [List.intercalate_cons_cons, List.length_append, List.length_append]
          rcases List.mem_cons.mp within with rfl | later
          · omega
          · have joined := ih later
            omega

/-- A summary with more changes than the body can hold. -/
def docsSummary : PrSummary :=
  {
    issueTitle := codeUnits "Fix the docs"
    issueNumber := 12
    prSummary := []
    prTasks := codeUnits "- rewrite"
    prChanges := List.replicate 250000 '-'.toNat
    prValidation := codeUnits "PASSED"
    prValidationSteps := []
    prReview := codeUnits "No code review performed"
    prAutonomousActions := []
  }

theorem docsSummary_closes
    : byteLength ([newline].intercalate docsSummary.parts) > maxPrBodyBytes
      ∧ ∃ result rest least, (∀ bound ≥ least, assemblePrBody bound docsSummary = some result)
        ∧ byteLength result ≤ maxPrBodyBytes ∧ result = docsSummary.head ++ newline :: rest := by
  refine ⟨?_, assemblePrBody_closes docsSummary (by decide) (by decide) (by decide)⟩
  have length : docsSummary.prChanges.length = 250000 := List.length_replicate
  have within : docsSummary.prChanges ∈ docsSummary.parts := by
    have some : docsSummary.prChanges ≠ [] := by
      refine List.ne_nil_of_length_pos ?_
      rw [length]
      decide
    have listed : orNone docsSummary.prChanges = docsSummary.prChanges := if_neg some
    simp [PrSummary.parts, PrSummary.sections, listed]
  have many := length_le_intercalate [newline] within
  have bytes := length_le_byteLength ([newline].intercalate docsSummary.parts)
  rw [maxPrBodyBytes]
  omega

end Summaries

end AiSdlc.Application
