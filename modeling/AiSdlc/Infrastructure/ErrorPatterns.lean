import AiSdlc.Js.Json
import AiSdlc.Js.Lines

/-! The lines of a provider's output that are searched for error patterns: the first and the last
ones, found by scans from both ends of the text.
-/

namespace AiSdlc.Infrastructure

open AiSdlc.Js

/-- The code unit of `'\n'`. -/
def lineFeed : Nat := 0xA

/-- `text.endsWith('\n') ? text.slice(0, -1) : text`. -/
def withoutLastNewline (text : CodeUnits) : CodeUnits :=
  if text.getLast? = some lineFeed then text.dropLast else text

/-- `text.split('\n')`. -/
def splitLines (text : CodeUnits) : List CodeUnits :=
  text.splitOn lineFeed

/-- The loop that goes back over newlines: how many it has left to find, and where it stands. -/
def scanBack (cleanText : CodeUnits) : Nat → Int → Nat × Int
  | 0, idx => (0, idx)
  | remaining + 1, idx =>
      if 0 < idx then
        let nextIdx := lastIndexOf cleanText lineFeed (idx - 1)
        if nextIdx = -1 then (remaining + 1, -1)
        else scanBack cleanText remaining nextIdx
      else (remaining + 1, idx)

/-- Where the last lines start, less one. -/
def lastLinesIdx (cleanText : CodeUnits) (maxLines : Nat) : Int :=
  let (remaining, idx) := scanBack cleanText maxLines cleanText.length
  if 0 < remaining ∧ idx = 0 then -1 else idx

def getLastLines (text : CodeUnits) (maxLines : Option Int) : List CodeUnits :=
  let cleanText := withoutLastNewline text
  match maxLines with
  | some maxLines =>
      if maxLines ≤ 0 then []
      else
        let idx := lastLinesIdx cleanText maxLines.toNat
        splitLines (cleanText.drop (idx + 1).toNat)
  | none => splitLines cleanText

/-- The loop that goes on over newlines: where it stands, unless the text ends before. -/
def scanForth (cleanText : CodeUnits) : Nat → Int → Option Int
  | 0, firstIdx => some firstIdx
  | remaining + 1, firstIdx =>
      let nextIdx := indexOf cleanText lineFeed (firstIdx + 1)
      if nextIdx = -1 then none else scanForth cleanText remaining nextIdx

def getLinesToScan (text : CodeUnits) (maxLines : Option Int) : List CodeUnits :=
  let cleanText := withoutLastNewline text
  match maxLines with
  | none => splitLines cleanText
  | some maxLines =>
      if maxLines ≤ 0 then []
      else
        match scanForth cleanText maxLines.toNat (-1) with
        | none => splitLines cleanText
        | some firstIdx =>
            let lastStartIdx := lastLinesIdx cleanText maxLines.toNat + 1
            if lastStartIdx ≤ firstIdx then splitLines cleanText
            else
              splitLines (cleanText.take firstIdx.toNat)
                ++ splitLines (cleanText.drop lastStartIdx.toNat)

/-- The lines of a text, whose last newline ends the last line. -/
def linesOf (text : CodeUnits) : List CodeUnits :=
  splitLines (withoutLastNewline text)

section Scans

variable {cleanText : CodeUnits} {lines : List CodeUnits} {maxLines count : Nat}

theorem splitLines_intercalate (free : ∀ line ∈ lines, lineFeed ∉ line) (filled : lines ≠ [])
    : splitLines ([lineFeed].intercalate lines) = lines :=
  List.splitOn_intercalate lineFeed free filled

/-- The scan back passes one line at each step, by induction over the lines that are left. -/
theorem scanBack_cut (free : ∀ line ∈ lines, lineFeed ∉ line) (positive : 0 < count)
    (within : count ≤ lines.length)
    : (let found := scanBack ([lineFeed].intercalate lines) maxLines (cut lines count)
      if 0 < found.1 ∧ found.2 = 0 then -1 else found.2) = cut lines (count - maxLines) := by
  induction maxLines generalizing count with
  | zero => simp [scanBack]
  | succ remaining ih =>
      obtain ⟨before, rfl⟩ : ∃ before, count = before + 1 := ⟨count - 1, by omega⟩
      rw [scanBack]
      by_cases inside : 0 < cut lines (before + 1)
      · rw [if_pos inside, lastIndexOf_cut free (by omega) inside]
        dsimp only
        by_cases first : before = 0
        · subst first
          simp [cut_zero]
        · have apart : cut lines before ≠ -1 :=
            (cut_eq_neg_one (Nat.le_of_succ_le within)).not.mpr first
          have fewer : before + 1 - (remaining + 1) = before - remaining := by omega
          rw [if_neg apart, ih (Nat.pos_of_ne_zero first) (Nat.le_of_succ_le within), fewer]
      · rw [if_neg inside]
        have start : cut lines (before + 1) = 0 := by
          have least := @cut_lt _ lines before (before + 1) within (by omega)
          have lower := @neg_one_le_cut _ lines before
          omega
        have first : before = 0 := by
          have least := @cut_lt _ lines before (before + 1) within (by omega)
          have lower := @neg_one_le_cut _ lines before
          exact (cut_eq_neg_one (Nat.le_of_succ_le within)).mp (by omega)
        subst first
        simp [start, cut_zero]

theorem lastLinesIdx_eq (free : ∀ line ∈ lines, lineFeed ∉ line) (filled : lines ≠ [])
    : lastLinesIdx ([lineFeed].intercalate lines) maxLines
      = cut lines (lines.length - maxLines) := by
  have ends : (([lineFeed].intercalate lines).length : Int) = cut lines lines.length := by
    obtain ⟨front, last, rfl⟩ := List.eq_nil_or_concat' lines |>.resolve_left filled
    rw [List.length_append, List.length_singleton, cut_length_append,
      intercalate_append (List.cons_ne_nil _ _), List.length_append, length_flatMap_parts,
      List.intercalate_singleton]
    simp
  rw [lastLinesIdx, ends]
  exact scanBack_cut free (List.length_pos_iff.mpr filled) le_rfl

/-- The scan forth passes one line at each step, by induction over the lines that are left. -/
theorem scanForth_cut (free : ∀ line ∈ lines, lineFeed ∉ line) (within : count < lines.length)
    : scanForth ([lineFeed].intercalate lines) maxLines (cut lines count)
      = if count + maxLines < lines.length then some (cut lines (count + maxLines)) else none := by
  induction maxLines generalizing count with
  | zero => simp [scanForth, within]
  | succ remaining ih =>
      rw [scanForth, indexOf_cut free within]
      by_cases next : count + 1 < lines.length
      · have apart : cut lines (count + 1) ≠ -1 :=
          (cut_eq_neg_one next.le).not.mpr (Nat.succ_ne_zero count)
        have more : count + 1 + remaining = count + (remaining + 1) := by omega
        rw [if_pos next, if_neg apart, ih next, more]
      · rw [if_neg next, if_pos rfl, if_neg (by omega)]

end Scans

theorem linesOf_spec (text : CodeUnits)
    : linesOf text ≠ [] ∧ (∀ line ∈ linesOf text, lineFeed ∉ line)
      ∧ [lineFeed].intercalate (linesOf text) = withoutLastNewline text :=
  ⟨List.splitOn_ne_nil _ _, fun _ => free_of_mem_splitOn, List.intercalate_splitOn _⟩

/-- The lines at the positions that are scanned: the first and the last ones. -/
def scannedLines (lines : List CodeUnits) (maxLines : Nat) : List CodeUnits :=
  (lines.zipIdx.filter fun line =>
    decide (line.2 < maxLines ∨ lines.length ≤ line.2 + maxLines)).map Prod.fst

section Scanned

variable {lines : List CodeUnits} {maxLines : Nat}

theorem map_fst_zipIdx {α : Type} (items : List α) (start : Nat)
    : (items.zipIdx start).map Prod.fst = items := by
  simp

theorem scannedLines_of_meet (meet : lines.length ≤ 2 * maxLines)
    : scannedLines lines maxLines = lines := by
  rw [scannedLines, List.filter_eq_self.mpr, map_fst_zipIdx]
  intro line member
  have within := List.snd_lt_of_mem_zipIdx member
  exact decide_eq_true (by omega)

/-- Where lines are left between them, the first and the last ones are scanned. -/
theorem scannedLines_of_apart (apart : 2 * maxLines ≤ lines.length)
    : scannedLines lines maxLines
      = lines.take maxLines ++ lines.drop (lines.length - maxLines) := by
  have parts : lines = lines.take maxLines
      ++ ((lines.drop maxLines).take (lines.length - 2 * maxLines)
        ++ lines.drop (lines.length - maxLines)) := by
    have last : lines.drop (lines.length - maxLines)
        = (lines.drop maxLines).drop (lines.length - 2 * maxLines) := by
      rw [List.drop_drop]
      congr 1
      omega
    rw [last, List.take_append_drop, List.take_append_drop]
  have first : (lines.take maxLines).length = maxLines := by
    rw [List.length_take]
    omega
  have between : ((lines.drop maxLines).take (lines.length - 2 * maxLines)).length
      = lines.length - 2 * maxLines := by
    rw [List.length_take, List.length_drop]
    omega
  generalize lines.take maxLines = front at parts first ⊢
  generalize (lines.drop maxLines).take (lines.length - 2 * maxLines) = middle at parts between
  generalize lines.drop (lines.length - maxLines) = back at parts ⊢
  rw [scannedLines]
  generalize length : lines.length = total at between ⊢
  subst parts
  rw [List.zipIdx_append, List.zipIdx_append, List.filter_append, List.filter_append]
  rw [List.filter_eq_self.mpr, List.filter_eq_nil_iff.mpr, List.filter_eq_self.mpr,
    List.nil_append, List.map_append, map_fst_zipIdx, map_fst_zipIdx]
  · intro line member
    have beyond := List.le_snd_of_mem_zipIdx member
    exact decide_eq_true (.inr (by omega))
  · intro line member
    have beyond := List.le_snd_of_mem_zipIdx member
    have within := List.snd_lt_add_of_mem_zipIdx member
    simp only [decide_eq_true_eq]
    omega
  · intro line member
    have within := List.snd_lt_add_of_mem_zipIdx member
    exact decide_eq_true (.inl (by omega))

end Scanned

/-- The scans find the first and the last lines, each once, and the last ones alone. -/
theorem linesToScan_scanned (text : CodeUnits) (maxLines : Nat) (positive : 0 < maxLines)
    : getLinesToScan text (some maxLines) = scannedLines (linesOf text) maxLines
      ∧ getLastLines text (some maxLines)
        = (linesOf text).drop ((linesOf text).length - min maxLines (linesOf text).length) := by
  obtain ⟨filled, free, whole⟩ := linesOf_spec text
  have positiveLength : 0 < (linesOf text).length := List.length_pos_iff.mpr filled
  have last := @lastLinesIdx_eq _ maxLines free filled
  have forth := @scanForth_cut _ maxLines _ free positiveLength
  have whole' : withoutLastNewline text = [lineFeed].intercalate (linesOf text) := whole.symm
  rw [cut_zero, Nat.zero_add] at forth
  rw [getLinesToScan, getLastLines]
  simp only [if_neg (by omega : ¬ (maxLines : Int) ≤ 0), Int.toNat_natCast, whole']
  generalize linesOf text = lines at *
  have back : splitLines (([lineFeed].intercalate lines).drop
      (cut lines (lines.length - maxLines) + 1).toNat) = lines.drop (lines.length - maxLines) := by
    rw [drop_cut (by omega)]
    exact splitLines_intercalate (fun line member => free line (List.mem_of_mem_drop member))
      (List.drop_eq_nil_iff.not.mpr (by omega))
  constructor
  · rw [forth, last]
    by_cases more : maxLines < lines.length
    · rw [if_pos more]
      dsimp only
      by_cases apart : maxLines ≤ lines.length - maxLines
      · have ordered := @cut_le _ lines maxLines (lines.length - maxLines) (by omega) apart
        have front : splitLines (([lineFeed].intercalate lines).take
            (cut lines maxLines).toNat) = lines.take maxLines := by
          rw [take_cut positive more.le]
          refine splitLines_intercalate (fun line member => free line (List.mem_of_mem_take member))
            ?_
          exact List.ne_nil_of_length_pos (by rw [List.length_take]; omega)
        rw [if_neg (by omega), front, back, scannedLines_of_apart (by omega)]
      · have ordered := @cut_lt _ lines (lines.length - maxLines) maxLines more.le (by omega)
        rw [if_pos (by omega), splitLines_intercalate free filled, scannedLines_of_meet (by omega)]
    · rw [if_neg more]
      exact (splitLines_intercalate free filled).trans (scannedLines_of_meet (by omega)).symm
  · rw [last, back]
    congr 1
    omega

/-- The first and the last line of three. -/
theorem linesToScan_scanned_three
    : getLinesToScan [0xA, 0x61, 0xA, 0x62, 0xA] (some 1) = [[], [0x62]] := by
  have scanned := (linesToScan_scanned [0xA, 0x61, 0xA, 0x62, 0xA] 1 Nat.one_pos).1
  exact scanned.trans (by decide)

end AiSdlc.Infrastructure
