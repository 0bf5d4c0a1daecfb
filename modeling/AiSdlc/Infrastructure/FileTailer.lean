import AiSdlc.Js.Lines
import AiSdlc.Js.Utf8
import AiSdlc.Transition.System

/-! The tailer of a log file: it passes on the last lines that the file has when it starts, or the
whole file, and then what is appended.
-/

namespace AiSdlc.Infrastructure

open AiSdlc.Js
open AiSdlc.Transition

/-- Where a tailer starts. -/
structure FileTailerOptions where
  initialLines : Option Int := none
  fromStart : Bool := false

/-- The fields of a `FileTailer` that its calls change, with the arguments of `onData`. -/
structure FileTailer where
  offset : Nat := 0
  running : Bool := false
  data : List (List Char) := []

namespace FileTailer

/-- The newlines of a text, without one that ends it. -/
def effectiveNewlines (content : List Char) : Nat :=
  let newlineCount := content.count '\n'
  if content.getLast? = some '\n' then newlineCount - 1 else newlineCount

/-- The loop that reads the end of the file, in chunks of twice the length each. -/
def readBack (file : List Nat) (wanted chunkSize : Nat) (positive : 0 < chunkSize) : List Char :=
  let content := utf8Chars none (file.drop (file.length - chunkSize))
  if stops : wanted ≤ effectiveNewlines content ∨ file.length ≤ chunkSize then content
  else
    readBack file wanted (min file.length (chunkSize * 2)) (by omega)
termination_by file.length - chunkSize

/-- What is passed on of the content that is read back: its last lines. -/
def initialData (wanted : Nat) (content : List Char) : List (List Char) :=
  let lines := content.splitOn '\n'
  let lines := if content.getLast? = some '\n' then lines.dropLast else lines
  let lastLines := lines.drop (lines.length - wanted)
  let tailContent := ['\n'].intercalate lastLines
  if tailContent = [] then [] else [tailContent ++ ['\n']]

def readInitialLines (wanted : Nat) (file : List Nat) (tailer : FileTailer) : FileTailer :=
  if filled : file.length = 0 then { tailer with offset := 0 }
  else
    let content := readBack file wanted (min file.length 4096) (by omega)
    { tailer with data := tailer.data ++ initialData wanted content, offset := file.length }

/-- What `start` does in front of its tick. -/
def start (opts : FileTailerOptions) (file : Option (List Nat)) (tailer : FileTailer)
    : FileTailer :=
  let tailer := { tailer with running := true }
  match file with
  | none => { tailer with offset := 0 }
  | some file =>
      match opts.initialLines.filter (0 < ·) with
      | some initialLines => readInitialLines initialLines.toNat file tailer
      | none => { tailer with offset := if opts.fromStart then 0 else file.length }

def tick (file : Option (List Nat)) (tailer : FileTailer) : FileTailer :=
  match file with
  | none => tailer
  | some file =>
      let tailer := if file.length < tailer.offset then { tailer with offset := 0 } else tailer
      if file.length = tailer.offset then tailer
      else
        let read := file.drop tailer.offset
        {
          tailer with
          data := tailer.data ++ [utf8Chars none read]
          offset := tailer.offset + read.length
        }

end FileTailer

/-- The lines of a text, each with the newline that ends it. -/
def terminatedLines (text : List Char) : List (List Char) :=
  let parts := text.splitOn '\n'
  parts.dropLast.map (· ++ ['\n']) ++ parts.getLast?.toList.filter (· ≠ [])

/-- A text from the start of its last lines on. -/
def fromLastLines (text : List Char) (count : Nat) : List Char :=
  let lines := terminatedLines text
  (lines.drop (lines.length - count)).flatten

/-- How much of the text that a file has at the start is left out. -/
def leftOut (opts : FileTailerOptions) (text : List Char) : Nat :=
  match opts.initialLines.filter (0 < ·) with
  | some initialLines => text.length - (fromLastLines text initialLines.toNat).length
  | none => if opts.fromStart then 0 else text.length

/-- A tailer and its file, with how much of the text at the start was to be left out. -/
structure FileTailing where
  tailer : FileTailer
  file : Option (List Nat)
  leftOut : Nat

inductive FileTailingStep
  | append (bytes : List Nat)
  | start
  | tick

namespace FileTailing

/-- The bytes of the file. -/
def bytes (state : FileTailing) : List Nat :=
  state.file.getD []

/-- The text of the file as far as it is read. -/
def textRead (state : FileTailing) : List Char :=
  utf8Chars none (state.bytes.take state.tailer.offset)

/-- A tailer starts once, and ticks afterwards; others append to the file meanwhile. -/
def step (opts : FileTailerOptions) (state : FileTailing)
    : FileTailingStep → FileTailing → Prop
  | .append bytes, next => next = { state with file := some (state.bytes ++ bytes) }
  | .start, next =>
      state.tailer.running = false
      ∧ next = {
        tailer := state.tailer.start opts state.file
        file := state.file
        leftOut := Infrastructure.leftOut opts (utf8Chars none state.bytes)
      }
  | .tick, next =>
      state.tailer.running = true ∧ next = { state with tailer := state.tailer.tick state.file }

end FileTailing

def fileTailingSystem (opts : FileTailerOptions) : System FileTailing FileTailingStep :=
  {
    initial := fun state => state = { tailer := {}, file := none, leftOut := 0 }
    step := FileTailing.step opts
  }

section Lines

variable {text content front last : List Char} {parts : List (List Char)} {count wanted : Nat}

theorem terminatedLines_parts (free : ∀ part ∈ parts, '\n' ∉ part) (single : '\n' ∉ last)
    : terminatedLines (parts.flatMap (· ++ ['\n']) ++ last)
      = parts.map (· ++ ['\n']) ++ [last].filter (· ≠ []) := by
  rw [terminatedLines, splitOn_parts free single, List.dropLast_concat, List.getLast?_concat]
  rfl

theorem flatten_terminatedLines (text : List Char) : (terminatedLines text).flatten = text := by
  obtain ⟨parts, last, free, single, rfl, -⟩ := exists_parts '\n' text
  rw [terminatedLines_parts free single, List.flatten_append, ← List.flatMap_def]
  by_cases none : last = []
  · simp [none]
  · simp [none]

/-- What is left out stands in front of the last lines. -/
theorem drop_fromLastLines (text : List Char) (count : Nat)
    : text.drop (text.length - (fromLastLines text count).length) = fromLastLines text count := by
  refine (List.suffix_iff_eq_drop.mp ?_).symm
  conv =>
    rhs
    rw [← flatten_terminatedLines text, ← List.take_append_drop
      ((terminatedLines text).length - count) (terminatedLines text), List.flatten_append]
  exact List.suffix_append _ _

/-- Lines at the end of a text are its last lines, whatever stands in front of one more. -/
theorem lastLines_append (front : List Char) (free : ∀ part ∈ parts, '\n' ∉ part)
    (fewer : wanted < parts.length)
    : (let lines := ((front ++ parts.flatMap (· ++ ['\n'])).splitOn '\n').dropLast
      lines.drop (lines.length - wanted)) = parts.drop (parts.length - wanted) := by
  obtain ⟨others, begun, free', single, rfl, -⟩ := exists_parts '\n' front
  obtain ⟨part, rest, rfl⟩ :=
    List.exists_cons_of_ne_nil (List.ne_nil_of_length_pos (Nat.zero_lt_of_lt fewer))
  obtain ⟨first, later⟩ := List.forall_mem_cons.mp free
  have whole : others.flatMap (· ++ ['\n']) ++ begun ++ (part :: rest).flatMap (· ++ ['\n'])
      = (others ++ (begun ++ part) :: rest).flatMap (· ++ ['\n']) ++ [] := by
    simp
  have each : ∀ line ∈ others ++ (begun ++ part) :: rest, '\n' ∉ line := by
    refine List.forall_mem_append.mpr ⟨free', List.forall_mem_cons.mpr ⟨fun member => ?_, later⟩⟩
    exact (List.mem_append.mp member).elim single first
  rw [List.length_cons] at fewer
  rw [whole, splitOn_parts each List.not_mem_nil, List.dropLast_concat]
  dsimp only
  have before : (others ++ (begun ++ part) :: rest).length - wanted
      = (others ++ [begun ++ part]).length + (rest.length - wanted) := by
    simp only [List.length_append, List.length_cons, List.length_nil]
    omega
  have split : others ++ (begun ++ part) :: rest = (others ++ [begun ++ part]) ++ rest := by simp
  have after : (part :: rest).length - wanted = rest.length - wanted + 1 := by
    rw [List.length_cons]
    omega
  rw [before, split, List.drop_length_add_append, after, List.drop_succ_cons]

theorem exists_lines (ends : text.getLast? = some '\n')
    : ∃ parts : List (List Char), parts ≠ [] ∧ (∀ part ∈ parts, '\n' ∉ part)
        ∧ text = parts.flatMap (· ++ ['\n']) ∧ text.count '\n' = parts.length := by
  obtain ⟨parts, last, free, single, same, count⟩ := exists_parts '\n' text
  obtain rfl : last = [] := by
    by_contra more
    rw [same, List.getLast?_append, List.getLast?_eq_some_getLast more, Option.some_or,
      Option.some.injEq] at ends
    exact single (ends ▸ List.getLast_mem more)
  rw [List.append_nil] at same
  refine ⟨parts, ?_, free, same, count⟩
  intro none
  rw [same, none] at ends
  cases ends

theorem intercalate_concat (filled : parts ≠ [])
    : ['\n'].intercalate parts ++ ['\n'] = parts.flatMap (· ++ ['\n']) := by
  obtain ⟨front, last, rfl⟩ := (List.eq_nil_or_concat' parts).resolve_left filled
  rw [intercalate_append (List.cons_ne_nil _ _), List.intercalate_singleton, List.flatMap_append,
    List.append_assoc]
  simp

end Lines

namespace FileTailer

section Reading

variable {file : List Nat} {text : List Char} {wanted chunkSize : Nat}

/-- What is read back is decoded from some place on: from the start, unless there are lines
enough, by induction along the loop.
-/
theorem readBack_spec (positive : 0 < chunkSize)
    : ∃ count, readBack file wanted chunkSize positive = utf8Chars none (file.drop count)
        ∧ (wanted ≤ effectiveNewlines (utf8Chars none (file.drop count)) ∨ count = 0) := by
  induction chunkSize, positive using readBack.induct file wanted with
  | case1 chunkSize positive content stops =>
      refine ⟨file.length - chunkSize, ?_, stops.imp_right (by omega)⟩
      rw [readBack, dif_pos stops]
  | case2 chunkSize positive content goesOn ih =>
      obtain ⟨count, read, enough⟩ := ih
      refine ⟨count, ?_, enough⟩
      rw [readBack, dif_neg goesOn, read]

/-- A chunk that is as long as the file has it whole. -/
theorem readBack_whole (positive : 0 < chunkSize) (covers : file.length ≤ chunkSize)
    : readBack file wanted chunkSize positive = utf8Chars none file := by
  rw [readBack, dif_pos (.inr covers), Nat.sub_eq_zero_of_le covers, List.drop_zero]

/-- The lines that are read back are the last lines of a text that ends with a newline. -/
theorem readBack_lines (bytes : file = text.flatMap utf8Bytes) (ends : text.getLast? = some '\n')
    (atLeastOne : 0 < wanted) (positive : 0 < chunkSize)
    : (readBack file wanted chunkSize positive).getLast? = some '\n'
      ∧ (let lines := ((readBack file wanted chunkSize positive).splitOn '\n').dropLast
        lines.drop (lines.length - wanted))
        = (let lines := (text.splitOn '\n').dropLast
          lines.drop (lines.length - wanted)) := by
  obtain ⟨count, read, enough⟩ := @readBack_spec file wanted chunkSize positive
  rw [read]
  rcases enough with enough | rfl
  · obtain ⟨replaced, back, ⟨front, rfl⟩, decoded⟩ := utf8Chars_drop text count
    rw [bytes, decoded] at enough ⊢
    have absent : (List.replicate replaced replacementCharacter).count '\n' = 0 := by
      rw [List.count_replicate]
      exact if_neg (by decide)
    have filled : back ≠ [] := by
      rintro rfl
      have fewer : effectiveNewlines (List.replicate replaced replacementCharacter ++ []) = 0 := by
        rw [List.append_nil, effectiveNewlines]
        simp only [absent, ite_self, Nat.zero_sub]
      omega
    have last : back.getLast? = some '\n' := by
      rw [List.getLast?_append, List.getLast?_eq_some_getLast filled, Option.some_or] at ends
      rw [List.getLast?_eq_some_getLast filled, ends]
    obtain ⟨parts, -, free, rfl, newlines⟩ := exists_lines last
    have ends' : (List.replicate replaced replacementCharacter
        ++ parts.flatMap (· ++ ['\n'])).getLast? = some '\n' := by
      rw [List.getLast?_append, last, Option.some_or]
    rw [effectiveNewlines] at enough
    simp only [if_pos ends', List.count_append, absent, newlines] at enough
    refine ⟨ends', ?_⟩
    rw [lastLines_append _ free (by omega), lastLines_append _ free (by omega)]
  · rw [List.drop_zero, bytes, utf8Chars_flatMap]
    exact ⟨ends, rfl⟩

/-- Whether the last lines of a text are passed on as they are. -/
def KeepsLines (text : List Char) (wanted : Nat) : Prop :=
  text = [] ∨ text.getLast? = some '\n' ∧ fromLastLines text wanted ≠ ['\n']

/-- The initial lines are the last lines of the text. -/
theorem readInitialLines_spec (tailer : FileTailer) (bytes : file = text.flatMap utf8Bytes)
    (atLeastOne : 0 < wanted) (keeps : KeepsLines text wanted)
    : (readInitialLines wanted file tailer).offset = file.length
      ∧ (readInitialLines wanted file tailer).running = tailer.running
      ∧ (readInitialLines wanted file tailer).data.flatten
        = tailer.data.flatten ++ fromLastLines text wanted := by
  rcases keeps with rfl | ⟨ends, visible⟩
  · rw [List.flatMap_nil] at bytes
    subst bytes
    refine ⟨rfl, rfl, ?_⟩
    simp [readInitialLines, fromLastLines, terminatedLines]
  · have filled : file.length ≠ 0 := by
      rw [bytes]
      intro none
      rw [flatMap_utf8Bytes_eq_nil.mp (List.length_eq_zero_iff.mp none)] at ends
      cases ends
    obtain ⟨ended, lines⟩ := @readBack_lines file text wanted (min file.length 4096) bytes ends
      atLeastOne (by omega)
    obtain ⟨parts, some_, free, rfl, -⟩ := exists_lines ends
    rw [readInitialLines, dif_neg filled]
    dsimp only [initialData] at lines ⊢
    rw [if_pos ended, lines]
    have split : ((parts.flatMap (· ++ ['\n'])).splitOn '\n').dropLast = parts := by
      have parted := splitOn_parts free (List.not_mem_nil (a := '\n'))
      rw [List.append_nil] at parted
      rw [parted, List.dropLast_concat]
    have listed : fromLastLines (parts.flatMap (· ++ ['\n'])) wanted
        = (parts.drop (parts.length - wanted)).flatMap (· ++ ['\n']) := by
      have terminated := terminatedLines_parts free (List.not_mem_nil (a := '\n'))
      rw [List.append_nil] at terminated
      rw [fromLastLines, terminated]
      simp [List.flatMap_def, List.map_drop]
    have more : parts.drop (parts.length - wanted) ≠ [] := by
      have length := List.length_pos_iff.mpr some_
      exact List.drop_eq_nil_iff.not.mpr (by omega)
    rw [split, listed]
    rw [listed] at visible
    refine ⟨rfl, rfl, ?_⟩
    rw [← intercalate_concat more] at visible ⊢
    rw [if_neg fun blank => visible (by rw [blank]; rfl)]
    simp

end Reading

end FileTailer

namespace FileTailing

variable {opts : FileTailerOptions} {state : FileTailing} {text now : List Char}

/-- The file holds the bytes of a text. -/
def Holds (state : FileTailing) (text : List Char) : Prop :=
  state.bytes = text.flatMap utf8Bytes

/-- What was passed on is a text that the file starts with, without what was to be left out. -/
structure HasRead (state : FileTailing) (text : List Char) : Prop where
  offset : state.tailer.offset = (text.flatMap utf8Bytes).length
  starts : text.flatMap utf8Bytes <+: state.bytes
  leftOut : state.leftOut ≤ text.length
  data : state.tailer.data.flatten = text.drop state.leftOut

theorem HasRead.textRead (read : HasRead state text) : state.textRead = text := by
  obtain ⟨rest, same⟩ := read.starts
  rw [FileTailing.textRead, ← same, read.offset, List.take_left, utf8Chars_flatMap]

/-- What is read at the end of a text is passed on. -/
theorem HasRead.tick (read : HasRead state text) (holds : Holds state now)
    : HasRead { state with tailer := state.tailer.tick state.file } now := by
  have bytes : state.bytes = now.flatMap utf8Bytes := holds
  obtain ⟨more, rfl⟩ := prefix_of_utf8Bytes (bytes ▸ read.starts)
  cases found : state.file with
  | none =>
      have empty : text ++ more = [] := by
        rw [FileTailing.bytes, found] at bytes
        exact flatMap_utf8Bytes_eq_nil.mp bytes.symm
      obtain ⟨rfl, rfl⟩ := List.append_eq_nil_iff.mp empty
      exact ⟨read.offset, List.nil_prefix, read.leftOut, read.data⟩
  | some file =>
      have same : file = (text ++ more).flatMap utf8Bytes := by
        rwa [FileTailing.bytes, found] at bytes
      have length : file.length = state.tailer.offset + (more.flatMap utf8Bytes).length := by
        rw [same, List.flatMap_append, List.length_append, read.offset]
      have chunk : file.drop state.tailer.offset = more.flatMap utf8Bytes := by
        rw [same, List.flatMap_append, read.offset, List.drop_left]
      have starts : (text ++ more).flatMap utf8Bytes <+: file := same ▸ List.prefix_rfl
      have grown : ¬ file.length < state.tailer.offset := by omega
      rw [FileTailer.tick]
      simp only [if_neg grown]
      split
      next ended =>
        obtain rfl : more = [] :=
          flatMap_utf8Bytes_eq_nil.mp (List.length_eq_zero_iff.mp (by omega))
        rw [List.append_nil] at starts ⊢
        exact ⟨read.offset, starts, read.leftOut, read.data⟩
      next longer =>
        rw [chunk, utf8Chars_flatMap]
        refine ⟨?_, starts, read.leftOut.trans (by simp), ?_⟩
        · change state.tailer.offset + _ = _
          rw [read.offset, List.flatMap_append, List.length_append]
        · change (state.tailer.data ++ [more]).flatten = (text ++ more).drop state.leftOut
          rw [List.flatten_concat, read.data, List.drop_append_of_le_length read.leftOut]

/-- The steps of a run where each read ends between characters, and where the tailer starts with
lines that end with newlines, unless there are none, or one empty line alone.
-/
def ReadsWhole (opts : FileTailerOptions) (_ : List FileTailingStep) (state : FileTailing)
    : FileTailingStep → Prop
  | .append _ => True
  | .start =>
      match opts.initialLines.filter (0 < ·) with
      | some wanted => ∃ text, Holds state text ∧ FileTailer.KeepsLines text wanted.toNat
      | none => opts.fromStart = true ∨ ∃ text, Holds state text
  | .tick => ∃ text, Holds state text

/-- With initial lines, the tailer starts behind the last lines. -/
theorem hasRead_initialLines {wanted : Int}
    (lines : opts.initialLines.filter (0 < ·) = some wanted) (holds : Holds state text)
    (keeps : FileTailer.KeepsLines text wanted.toNat) (empty : state.tailer.data = [])
    : HasRead {
        tailer := state.tailer.start opts state.file
        file := state.file
        leftOut := Infrastructure.leftOut opts (utf8Chars none state.bytes)
      } text := by
  have bytes : state.bytes = text.flatMap utf8Bytes := holds
  have positive : 0 < wanted := by
    simpa using (Option.filter_eq_some_iff.mp lines).2
  have skipped : Infrastructure.leftOut opts (utf8Chars none state.bytes)
      = text.length - (fromLastLines text wanted.toNat).length := by
    rw [Infrastructure.leftOut, lines, bytes, utf8Chars_flatMap]
  have started : (state.tailer.start opts state.file).offset = state.bytes.length
      ∧ (state.tailer.start opts state.file).data.flatten = fromLastLines text wanted.toNat := by
    rw [FileTailing.bytes] at bytes ⊢
    cases found : state.file with
    | none =>
        rw [found] at bytes
        obtain rfl := flatMap_utf8Bytes_eq_nil.mp bytes.symm
        simp [FileTailer.start, empty, fromLastLines, terminatedLines]
    | some file =>
        rw [found] at bytes
        obtain ⟨offset, -, data⟩ := FileTailer.readInitialLines_spec
          { state.tailer with running := true } bytes (by omega : 0 < wanted.toNat) keeps
        have flattened : state.tailer.data.flatten = [] := by rw [empty]; rfl
        simp only [flattened, List.nil_append] at data
        have start : state.tailer.start opts (some file)
            = FileTailer.readInitialLines wanted.toNat file
              { state.tailer with running := true } := by
          simp only [FileTailer.start, lines]
        rw [start]
        exact ⟨offset, data⟩
  refine ⟨started.1.trans (congrArg List.length bytes), bytes ▸ List.prefix_rfl, ?_, ?_⟩
  · exact skipped.trans_le (Nat.sub_le _ _)
  · change (state.tailer.start opts state.file).data.flatten
      = text.drop (Infrastructure.leftOut _ _)
    rw [started.2, skipped, drop_fromLastLines]

/-- At the start, what is left out of the text is skipped. -/
theorem hasRead_start {labels : List FileTailingStep} (meets : ReadsWhole opts labels state .start)
    (empty : state.tailer.data = [])
    : ∃ text, HasRead {
        tailer := state.tailer.start opts state.file
        file := state.file
        leftOut := Infrastructure.leftOut opts (utf8Chars none state.bytes)
      } text := by
  unfold ReadsWhole at meets
  cases lines : opts.initialLines.filter (0 < ·) with
  | some wanted =>
      rw [lines] at meets
      obtain ⟨text, holds, keeps⟩ := meets
      exact ⟨text, hasRead_initialLines lines holds keeps empty⟩
  | none =>
      rw [lines] at meets
      by_cases whole : opts.fromStart = true
      · refine ⟨[], ?_, List.nil_prefix, ?_, ?_⟩
        · cases found : state.file <;> simp [FileTailer.start, lines, whole]
        · simp [Infrastructure.leftOut, lines, whole]
        · cases found : state.file <;> simp [FileTailer.start, lines, whole, empty]
      · obtain ⟨text, holds⟩ := meets.resolve_left whole
        have bytes : state.bytes = text.flatMap utf8Bytes := holds
        refine ⟨text, ?_, bytes ▸ List.prefix_rfl, ?_, ?_⟩
        · rw [← bytes]
          cases found : state.file <;>
            simp [FileTailer.start, lines, whole, FileTailing.bytes, found]
        · simp [Infrastructure.leftOut, lines, whole, bytes, utf8Chars_flatMap]
        · cases found : state.file <;>
            simp [FileTailer.start, Infrastructure.leftOut, lines, whole, empty, bytes,
              utf8Chars_flatMap]

/-- Before the start nothing is passed on, and afterwards the text that is read. -/
def Reading (state : FileTailing) : Prop :=
  (state.tailer.running = false → state.tailer.data = [])
  ∧ (state.tailer.running = true → ∃ text, HasRead state text)

theorem start_running (tailer : FileTailer) (file : Option (List Nat))
    : (tailer.start opts file).running = true := by
  unfold FileTailer.start
  cases file with
  | none => rfl
  | some file =>
      cases opts.initialLines.filter (0 < ·) with
      | none => rfl
      | some wanted =>
          dsimp only
          unfold FileTailer.readInitialLines
          split <;> rfl

theorem tick_running (tailer : FileTailer) (file : Option (List Nat))
    : (tailer.tick file).running = tailer.running := by
  unfold FileTailer.tick
  cases file with
  | none => rfl
  | some file =>
      dsimp only
      split_ifs <;> rfl

/-- In runs where each read ends between characters, what is passed on is the text that is read,
without what was to be left out, by the run invariant rule.
-/
theorem data_of_run {labels : List FileTailingStep}
    (run : (fileTailingSystem opts).RunWhere (ReadsWhole opts) labels state)
    (running : state.tailer.running = true)
    : state.tailer.data.flatten = state.textRead.drop state.leftOut := by
  have invariant := run.invariant (fun _ state => Reading state) ?initially ?kept
  case initially =>
    rintro state rfl
    exact ⟨fun _ => rfl, fun started => by cases started⟩
  case kept =>
    intro labels state step next holds meets taken
    obtain ⟨quiet, reading⟩ := holds
    cases step with
    | append bytes =>
        cases taken
        refine ⟨quiet, fun started => ?_⟩
        obtain ⟨text, read⟩ := reading started
        exact ⟨text, read.offset, read.starts.trans (List.prefix_append _ _), read.leftOut,
          read.data⟩
    | start =>
        obtain ⟨idle, rfl⟩ := taken
        have running := @start_running opts state.tailer state.file
        exact ⟨fun still => absurd (running.symm.trans still) (by decide),
          fun _ => hasRead_start meets (quiet idle)⟩
    | tick =>
        obtain ⟨started, rfl⟩ := taken
        obtain ⟨text, read⟩ := reading started
        obtain ⟨now, whole⟩ := meets
        have running := (tick_running state.tailer state.file).trans started
        exact ⟨fun still => absurd (running.symm.trans still) (by decide),
          fun _ => ⟨now, read.tick whole⟩⟩
  obtain ⟨text, read⟩ := invariant.2 running
  rw [read.textRead, read.data]

theorem started_run {condition : List FileTailingStep → FileTailing → FileTailingStep → Prop}
    (bytes : List Nat) (meets : ∀ labels state step, state.bytes ∈ [[], bytes]
      → condition labels state step)
    : (fileTailingSystem opts).RunWhere condition [.start, .append bytes]
        {
          tailer := FileTailer.start opts (some bytes) {}
          file := some bytes
          leftOut := Infrastructure.leftOut opts (utf8Chars none bytes)
        } := by
  have created : (fileTailingSystem opts).RunWhere condition [.append bytes]
      { tailer := {}, file := some bytes, leftOut := 0 } :=
    .next (.start rfl) (meets _ _ _ (List.mem_cons_self)) rfl
  exact .next created (meets _ _ _ (by simp [FileTailing.bytes])) ⟨rfl, rfl⟩

/-- The last of two lines is passed on. -/
theorem last_line_passed_on
    : (FileTailer.start { initialLines := some 1 } (some [0x61, 0xA, 0x62, 0xA]) {}).data.flatten
      = ['b', '\n'] := by
  refine (data_of_run (started_run [0x61, 0xA, 0x62, 0xA] ?_) rfl).trans (by decide)
  intro labels state step file
  have holds : ∃ text, Holds state text ∧ FileTailer.KeepsLines text 1 := by
    rcases List.mem_cons.mp file with none | whole
    · exact ⟨[], none, .inl rfl⟩
    · refine ⟨['a', '\n', 'b', '\n'], (List.mem_singleton.mp whole).trans (by decide), ?_⟩
      exact .inr (by decide)
  cases step with
  | append => trivial
  | start => exact holds
  | tick => exact holds.imp fun _ => And.left

/-- A line that is not complete at the start gets a newline. -/
theorem incomplete_line_terminated
    : ¬ ∀ (opts : FileTailerOptions) (labels : List FileTailingStep) (state : FileTailing),
        opts.fromStart = true ∨ (∃ wanted, opts.initialLines = some wanted ∧ 0 < wanted)
        → (fileTailingSystem opts).Run labels state → state.tailer.running = true
        → state.tailer.data.flatten = state.textRead.drop state.leftOut := by
  intro always
  have run := @started_run { initialLines := some 1 } (fun _ _ _ => True) [0x61]
    fun _ _ _ _ => trivial
  have passed := always { initialLines := some 1 } _ _ (.inr ⟨1, rfl, by decide⟩) run.run rfl
  have inserted : (FileTailer.start { initialLines := some 1 } (some [0x61]) {}).data
      = [['a', '\n']] := by
    have content : FileTailer.readBack [0x61] 1 1 Nat.one_pos = ['a'] :=
      (FileTailer.readBack_whole Nat.one_pos le_rfl).trans (by decide)
    change [] ++ FileTailer.initialData 1 (FileTailer.readBack [0x61] 1 1 Nat.one_pos) = _
    rw [content]
    decide
  rw [inserted] at passed
  revert passed
  decide

end FileTailing

end AiSdlc.Infrastructure
