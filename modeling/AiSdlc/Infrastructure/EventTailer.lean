import AiSdlc.Js.JsonParse
import AiSdlc.Js.Lines
import AiSdlc.Js.Text
import AiSdlc.Js.Utf8
import AiSdlc.Transition.System
import Mathlib.Data.List.DropRight

/-! The tailer of a run's events: it polls a growing file, decodes what was appended, and passes
the events of the complete lines on.
-/

namespace AiSdlc.Infrastructure

open AiSdlc.Js
open AiSdlc.Transition

/-- A file as `stat` and `read` see it. -/
structure TailedFile where
  bytes : List Nat
  mtimeMs : Nat

/-- The fields of an `EventTailer` that its ticks change, with the calls of its callbacks. -/
structure EventTailer (Event : Type) where
  offset : Nat := 0
  lastMtimeMs : Nat := 0
  buffer : List Char := []
  delivered : List Event := []
  parseErrors : List (List Char) := []

namespace EventTailer

/-- `JSON.parse` with the schema of the events, and whether `onEvent` throws at an event, given
the events that it was called with before.
-/
structure Callbacks (Event : Type) where
  parse : List Char → Option Event
  throws : List Event → Event → Bool

variable {Event : Type} (callbacks : Callbacks Event)

/-- What is done with one line; `onEvent` may throw. -/
def handleLine (line : List Char) (tailer : EventTailer Event) : EventTailer Event × Bool :=
  if line.all isWhitespace then (tailer, false)
  else
    match callbacks.parse line with
    | none => ({ tailer with parseErrors := tailer.parseErrors ++ [line] }, false)
    | some event =>
        ({ tailer with delivered := tailer.delivered ++ [event] },
          callbacks.throws tailer.delivered event)

/-- The loop of `flushLines` over the newlines of the buffer. -/
def flushFrom : Nat → EventTailer Event → EventTailer Event × Bool
  | 0, tailer => (tailer, false)
  | newlines + 1, tailer =>
      let line := tailer.buffer.takeWhile (· ≠ '\n')
      let rest := (tailer.buffer.dropWhile (· ≠ '\n')).drop 1
      let (handled, threw) := handleLine callbacks line { tailer with buffer := rest }
      if threw then (handled, true) else flushFrom newlines handled

def flushLines (tailer : EventTailer Event) : EventTailer Event × Bool :=
  flushFrom callbacks (tailer.buffer.count '\n') tailer

/-- A file that shrank, or changed without growing, is read from its start. -/
def rewind (file : TailedFile) (tailer : EventTailer Event) : EventTailer Event :=
  if file.bytes.length < tailer.offset then { tailer with offset := 0, buffer := [] }
  else if 0 < tailer.lastMtimeMs ∧ tailer.lastMtimeMs < file.mtimeMs ∧ 0 < file.bytes.length
      ∧ file.bytes.length ≤ tailer.offset then
    { tailer with offset := 0, buffer := [] }
  else tailer

/-- A tick reads what was appended. Where a callback throws, the offset stays. -/
def tick (tailer : EventTailer Event) : Option TailedFile → EventTailer Event
  | none => tailer
  | some file =>
      let tailer := { rewind file tailer with lastMtimeMs := file.mtimeMs }
      if file.bytes.length = tailer.offset then tailer
      else
        let read := file.bytes.drop tailer.offset
        let (flushed, threw) :=
          flushLines callbacks { tailer with buffer := tailer.buffer ++ utf8Chars none read }
        if threw then { flushed with parseErrors := flushed.parseErrors ++ [[]] }
        else { flushed with offset := tailer.offset + read.length }

/-- `line.trim()` as characters. -/
def trimChars (line : List Char) : List Char :=
  (line.dropWhile isWhitespace).rdropWhile isWhitespace

/-- The last tick, and what is left of the buffer. -/
def drainAndStop (tailer : EventTailer Event) (file : Option TailedFile) : EventTailer Event :=
  let ticked := tick callbacks tailer file
  let line := trimChars ticked.buffer
  if line = [] then ticked else (handleLine callbacks line { ticked with buffer := [] }).1

end EventTailer

/-- A tailer and its file, which others append to. -/
structure Tailing (Event : Type) where
  tailer : EventTailer Event
  file : Option TailedFile

inductive TailingStep
  | append (bytes : List Nat) (mtimeMs : Nat)
  | tick

namespace Tailing

variable {Event : Type}

/-- An append makes a file, or makes it longer, and does not turn its time back. -/
def step (callbacks : EventTailer.Callbacks Event) (state : Tailing Event)
    : TailingStep → Tailing Event → Prop
  | .append bytes mtimeMs, next =>
      (bytes = [] → state.file = none) ∧ (∀ file, state.file = some file → file.mtimeMs ≤ mtimeMs)
      ∧ next = {
        state with
        file := some { bytes := (state.file.map (·.bytes)).getD [] ++ bytes, mtimeMs }
      }
  | .tick, next => next = { state with tailer := state.tailer.tick callbacks state.file }

end Tailing

def tailingSystem {Event : Type} (callbacks : EventTailer.Callbacks Event)
    : System (Tailing Event) TailingStep :=
  {
    initial := fun state => state = { tailer := {}, file := none }
    step := Tailing.step callbacks
  }

/-- A line of the file that holds an event. -/
structure EventLine {Event : Type} (parse : List Char → Option Event) where
  chars : List Char
  event : Event
  parses : parse chars = some event
  single : '\n' ∉ chars
  visible : ∃ char ∈ chars, isWhitespace char = false

namespace EventTailer

variable {Event : Type} {callbacks : Callbacks Event} {tailer : EventTailer Event}
  {line last text : List Char} {parts : List (List Char)}

/-- The event of a line, if it has one. -/
def eventOf (parse : List Char → Option Event) (line : List Char) : Option Event :=
  if line.all isWhitespace then none else parse line

/-- The events of the complete lines of a text. -/
def eventsOf (parse : List Char → Option Event) (text : List Char) : List Event :=
  (text.splitOn '\n').dropLast.filterMap (eventOf parse)

/-- No call of `onEvent` throws where it gets some events, each once and in their order. -/
def Callbacks.Accepts (callbacks : Callbacks Event) (events : List Event) : Prop :=
  ∀ earlier event, earlier ++ [event] <+: events → callbacks.throws earlier event = false

theorem eventsOf_parts (free : ∀ part ∈ parts, '\n' ∉ part) (single : '\n' ∉ last)
    : eventsOf callbacks.parse (parts.flatMap (· ++ ['\n']) ++ last)
      = parts.filterMap (eventOf callbacks.parse) := by
  rw [eventsOf, splitOn_parts free single, List.dropLast_concat]

theorem handleLine_accepted (line : List Char) (tailer : EventTailer Event) {later : List Event}
    (accepts : callbacks.Accepts
      (tailer.delivered ++ (eventOf callbacks.parse line).toList ++ later))
    : (handleLine callbacks line tailer).2 = false
      ∧ (handleLine callbacks line tailer).1.buffer = tailer.buffer
      ∧ (handleLine callbacks line tailer).1.offset = tailer.offset
      ∧ (handleLine callbacks line tailer).1.lastMtimeMs = tailer.lastMtimeMs
      ∧ (handleLine callbacks line tailer).1.delivered
        = tailer.delivered ++ (eventOf callbacks.parse line).toList := by
  unfold handleLine
  unfold eventOf at accepts ⊢
  split
  · simp
  next visible =>
    rw [if_neg visible] at accepts
    cases parsed : callbacks.parse line with
    | none => simp
    | some event =>
        have quiet : callbacks.throws tailer.delivered event = false := by
          rw [parsed] at accepts
          exact accepts tailer.delivered event (List.prefix_append _ _)
        simp [quiet]

/-- Every line of the buffer is handled, and what follows the last newline is left, by induction
over the lines.
-/
theorem flushFrom_accepted (free : ∀ part ∈ parts, '\n' ∉ part)
    (accepts : callbacks.Accepts
      (tailer.delivered ++ parts.filterMap (eventOf callbacks.parse)))
    (same : tailer.buffer = parts.flatMap (· ++ ['\n']) ++ last)
    : (flushFrom callbacks parts.length tailer).2 = false
      ∧ (flushFrom callbacks parts.length tailer).1.buffer = last
      ∧ (flushFrom callbacks parts.length tailer).1.offset = tailer.offset
      ∧ (flushFrom callbacks parts.length tailer).1.lastMtimeMs = tailer.lastMtimeMs
      ∧ (flushFrom callbacks parts.length tailer).1.delivered
        = tailer.delivered ++ parts.filterMap (eventOf callbacks.parse) := by
  induction parts generalizing tailer with
  | nil => simpa [flushFrom] using same
  | cons line parts ih =>
      obtain ⟨first, others⟩ := List.forall_mem_cons.mp free
      have solid : ∀ char ∈ line, decide (char ≠ '\n') = true := fun char member =>
        decide_eq_true fun same => first (same ▸ member)
      have shape : tailer.buffer = line ++ '\n' :: (parts.flatMap (· ++ ['\n']) ++ last) := by
        simpa using same
      have taken : tailer.buffer.takeWhile (· ≠ '\n') = line := by
        rw [shape, List.takeWhile_append_of_pos solid, List.takeWhile_cons_of_neg (by simp),
          List.append_nil]
      have dropped : (tailer.buffer.dropWhile (· ≠ '\n')).drop 1
          = parts.flatMap (· ++ ['\n']) ++ last := by
        rw [shape, List.dropWhile_append_of_pos solid, List.dropWhile_cons_of_neg (by simp)]
        rfl
      have events : (line :: parts).filterMap (eventOf callbacks.parse)
          = (eventOf callbacks.parse line).toList
            ++ parts.filterMap (eventOf callbacks.parse) := by
        cases found : eventOf callbacks.parse line <;> simp [found]
      rw [events, ← List.append_assoc] at accepts ⊢
      rw [List.length_cons, flushFrom]
      simp only [taken, dropped]
      have handled := handleLine_accepted line
        { tailer with buffer := parts.flatMap (· ++ ['\n']) ++ last } accepts
      generalize handleLine callbacks line
        { tailer with buffer := parts.flatMap (· ++ ['\n']) ++ last } = outcome at handled
      obtain ⟨after, threw⟩ := outcome
      obtain ⟨rfl, buffer, offset, mtime, delivered⟩ := handled
      rw [← delivered] at accepts ⊢
      obtain ⟨quiet, left, stays, time, all⟩ := ih others accepts buffer
      exact ⟨quiet, left, stays.trans offset, time.trans mtime, all⟩

/-- What a tailer has read of a text: the lines that it handled, and its buffer. -/
structure HasRead (parse : List Char → Option Event) (tailer : EventTailer Event)
    (text : List Char)
    : Prop where
  offset : tailer.offset = (text.flatMap utf8Bytes).length
  lines : ∃ parts : List (List Char), (∀ part ∈ parts, '\n' ∉ part) ∧ '\n' ∉ tailer.buffer
    ∧ text = parts.flatMap (· ++ ['\n']) ++ tailer.buffer
    ∧ tailer.delivered = parts.filterMap (eventOf parse)

/-- The time of a file that did not grow did not change either. -/
def Timely (tailer : EventTailer Event) (file : Option TailedFile) : Prop :=
  0 < tailer.lastMtimeMs → ∃ known, file = some known ∧ tailer.lastMtimeMs ≤ known.mtimeMs
    ∧ (known.bytes.length = tailer.offset → known.mtimeMs = tailer.lastMtimeMs)

/-- What a file holds is the bytes of a text. -/
def Whole (file : Option TailedFile) (text : List Char) : Prop :=
  ((file.map (·.bytes)).getD []) = text.flatMap utf8Bytes

section Ticks

variable {file : Option TailedFile} {now : List Char}

/-- A file that only grew is not read again from its start. -/
theorem rewind_grown {known : TailedFile} (grown : tailer.offset ≤ known.bytes.length)
    (timely : Timely tailer (some known))
    : rewind known tailer = tailer := by
  rw [rewind, if_neg (by omega)]
  refine if_neg ?_
  rintro ⟨started, later, -, short⟩
  obtain ⟨found, same, -, kept⟩ := timely started
  cases same
  have unchanged := kept (by omega)
  omega

/-- A tick that finds a whole text has read it. -/
theorem tick_read (read : HasRead callbacks.parse tailer text)
    (starts : text.flatMap utf8Bytes <+: now.flatMap utf8Bytes) (timely : Timely tailer file)
    (whole : Whole file now) (accepts : callbacks.Accepts (eventsOf callbacks.parse now))
    : HasRead callbacks.parse (tick callbacks tailer file) now
      ∧ Timely (tick callbacks tailer file) file := by
  obtain ⟨more, rfl⟩ := prefix_of_utf8Bytes starts
  cases file with
  | none =>
      have empty : text ++ more = [] := flatMap_utf8Bytes_eq_nil.mp whole.symm
      obtain ⟨rfl, rfl⟩ := List.append_eq_nil_iff.mp empty
      exact ⟨read, timely⟩
  | some known =>
      have bytes : known.bytes = (text ++ more).flatMap utf8Bytes := whole
      have length : known.bytes.length = tailer.offset + (more.flatMap utf8Bytes).length := by
        rw [bytes, List.flatMap_append, List.length_append, read.offset]
      obtain ⟨parts, free, single, shape, delivered⟩ := read.lines
      rw [tick]
      simp only [rewind_grown (by omega) timely]
      split
      next ended =>
        obtain rfl : more = [] :=
          flatMap_utf8Bytes_eq_nil.mp (List.length_eq_zero_iff.mp (by omega))
        rw [List.append_nil]
        exact ⟨⟨read.offset, parts, free, single, shape, delivered⟩,
          fun _ => ⟨known, rfl, le_rfl, fun _ => rfl⟩⟩
      next grown =>
        have chunk : known.bytes.drop tailer.offset = more.flatMap utf8Bytes := by
          rw [bytes, List.flatMap_append, read.offset, List.drop_left]
        obtain ⟨added, last, free', single', split, count⟩ :=
          exists_parts '\n' (tailer.buffer ++ more)
        have all : ∀ part ∈ parts ++ added, '\n' ∉ part := fun part member =>
          (List.mem_append.mp member).elim (free part) (free' part)
        have lines : text ++ more = (parts ++ added).flatMap (· ++ ['\n']) ++ last := by
          rw [List.flatMap_append, List.append_assoc, ← split, ← List.append_assoc, ← shape]
        rw [lines, eventsOf_parts all single', List.filterMap_append, ← delivered] at accepts
        rw [chunk, utf8Chars_flatMap, flushLines]
        simp only [count]
        have flushed := @flushFrom_accepted _ callbacks
          { tailer with lastMtimeMs := known.mtimeMs, buffer := tailer.buffer ++ more } last added
          free' accepts split
        generalize flushFrom callbacks added.length {
          tailer with lastMtimeMs := known.mtimeMs, buffer := tailer.buffer ++ more } = outcome
          at flushed
        obtain ⟨after, threw⟩ := outcome
        obtain ⟨rfl, buffer, offset, mtime, delivered'⟩ := flushed
        refine ⟨⟨?_, parts ++ added, all, ?_, ?_, ?_⟩, ?_⟩
        · change tailer.offset + _ = _
          rw [read.offset, List.flatMap_append, List.length_append]
        · exact buffer ▸ single'
        · change _ = _ ++ after.buffer
          rw [buffer, lines]
        · change after.delivered = _
          rw [delivered', List.filterMap_append, ← delivered]
        · intro started
          exact ⟨known, rfl, mtime.le, fun _ => mtime.symm⟩

end Ticks

/-- The steps of a run where each tick finds whole characters, whose events `onEvent` accepts. -/
def ReadsWhole (callbacks : Callbacks Event) (_ : List TailingStep) (state : Tailing Event)
    : TailingStep → Prop
  | .append _ _ => True
  | .tick => ∃ text, Whole state.file text ∧ callbacks.Accepts (eventsOf callbacks.parse text)

/-- What the tailer has read is a text, with which the file starts, by the run invariant rule. -/
theorem read_of_run {labels : List TailingStep} {state : Tailing Event}
    (run : (tailingSystem callbacks).RunWhere (ReadsWhole callbacks) labels state)
    : ∃ text, HasRead callbacks.parse state.tailer text ∧ Timely state.tailer state.file
      ∧ text.flatMap utf8Bytes <+: (state.file.map (·.bytes)).getD [] := by
  refine run.invariant (fun _ state => ∃ text, HasRead callbacks.parse state.tailer text
    ∧ Timely state.tailer state.file
    ∧ text.flatMap utf8Bytes <+: (state.file.map (·.bytes)).getD []) ?_ ?_
  · rintro state rfl
    exact ⟨[], ⟨rfl, [], by simp, by simp, rfl, rfl⟩, fun started => absurd started (lt_irrefl 0),
      List.nil_prefix⟩
  · intro _ state step next holds meets taken
    obtain ⟨text, read, timely, starts⟩ := holds
    cases step with
    | append bytes mtimeMs =>
        obtain ⟨created, forward, rfl⟩ := taken
        refine ⟨text, read, fun started => ?_, starts.trans (List.prefix_append _ _)⟩
        obtain ⟨known, found, earlier, kept⟩ := timely started
        have nonempty : bytes ≠ [] := fun empty => by simp [found] at created; exact created empty
        have grown : known.bytes.length < known.bytes.length + bytes.length :=
          Nat.lt_add_of_pos_right (List.length_pos_iff.mpr nonempty)
        have before := starts.length_le
        rw [found, Option.map_some, Option.getD_some, ← read.offset] at before
        refine ⟨_, rfl, earlier.trans (forward known found), fun same => ?_⟩
        rw [found] at same
        simp only [Option.map_some, Option.getD_some, List.length_append] at same
        omega
    | tick =>
        obtain ⟨now, whole, accepts⟩ := meets
        cases taken
        obtain ⟨read', timely'⟩ := tick_read read (whole ▸ starts) timely whole accepts
        exact ⟨now, read', timely', whole ▸ List.prefix_rfl⟩

/-- The text of some lines. -/
def textOf {parse : List Char → Option Event} (lines : List (EventLine parse)) : List Char :=
  lines.flatMap fun line => line.chars ++ ['\n']

theorem eventsOf_textOf (lines : List (EventLine callbacks.parse))
    : textOf lines = (lines.map (·.chars)).flatMap (· ++ ['\n']) ++ []
      ∧ (∀ part ∈ lines.map (·.chars), '\n' ∉ part)
      ∧ (lines.map (·.chars)).filterMap (eventOf callbacks.parse) = lines.map (·.event)
      ∧ eventsOf callbacks.parse (textOf lines) = lines.map (·.event) := by
  have listed : textOf lines = (lines.map (·.chars)).flatMap (· ++ ['\n']) ++ [] := by
    simp [textOf, List.flatMap_map]
  have each : ∀ part ∈ lines.map (·.chars), '\n' ∉ part := by
    intro part member
    obtain ⟨line, -, rfl⟩ := List.mem_map.mp member
    exact line.single
  have event (line : EventLine callbacks.parse)
      : eventOf callbacks.parse line.chars = some line.event := by
    obtain ⟨char, member, visible⟩ := line.visible
    have shown : line.chars.all isWhitespace = false :=
      List.all_eq_false.mpr ⟨char, member, by simp [visible]⟩
    simp [eventOf, shown, line.parses]
  have events : (lines.map (·.chars)).filterMap (eventOf callbacks.parse)
      = lines.map (·.event) := by
    rw [List.filterMap_map, ← List.filterMap_eq_map]
    exact List.filterMap_congr fun line _ => event line
  exact ⟨listed, each, events, by rw [listed, eventsOf_parts each (by simp), events]⟩

/-- Where no call throws and each tick finds whole characters, every event is delivered once,
in the order of the file.
-/
theorem events_delivered_once {labels : List TailingStep} {state : Tailing Event}
    (run : (tailingSystem callbacks).RunWhere (ReadsWhole callbacks) labels state)
    (lines : List (EventLine callbacks.parse)) (complete : Whole state.file (textOf lines))
    (accepts : callbacks.Accepts (lines.map (·.event)))
    : (drainAndStop callbacks state.tailer state.file).delivered = lines.map (·.event) := by
  obtain ⟨text, read, timely, starts⟩ := read_of_run run
  obtain ⟨listed, each, events, all⟩ := eventsOf_textOf lines
  obtain ⟨read', -⟩ := tick_read read (complete ▸ starts) timely complete (all.symm ▸ accepts)
  obtain ⟨parts, free, single, shape, delivered⟩ := read'.lines
  obtain ⟨rfl, empty⟩ := parts_inj free single each (by simp) (shape.symm.trans listed)
  have nothing : trimChars (tick callbacks state.tailer state.file).buffer = [] := by
    rw [empty]
    rfl
  rw [drainAndStop]
  simp only [nothing, if_true, delivered, events]

/-- What the schema asks of every event. -/
structure OrchestratorEvent where
  runId : CodeUnits
  level : CodeUnits
  type : CodeUnits
  message : CodeUnits
  timestamp : CodeUnits
  deriving DecidableEq

/-- The text of a member. -/
def textMember (members : List (CodeUnits × Json Unit)) (name : String) : Option CodeUnits :=
  match members.lookup (codeUnits name) with
  | some (.string units) => some units
  | _ => none

/-- `JSON.parse` with the schema, for lines with a timestamp that is one. -/
def parseEvent (line : List Char) : Option OrchestratorEvent :=
  match Json.readValue (fun _ => ()) (2 * line.length + 1) line with
  | some (.object members, rest) => do
      let runId ← textMember members "runId"
      let level ← textMember members "level"
      let type ← textMember members "type"
      let message ← textMember members "message"
      let timestamp ← textMember members "timestamp"
      if Json.skipSpace rest = [] ∧ runId ≠ [] ∧ type ≠ []
          ∧ level ∈ ["info", "warn", "error"].map codeUnits then
        some { runId, level, type, message, timestamp }
      else none
  | _ => none

/-- Callbacks that throw at no event. -/
def quietCallbacks : Callbacks OrchestratorEvent :=
  {
    parse := parseEvent
    throws := fun _ _ => false
  }

/-- The part of an event's line before a letter with an accent, and the part behind it. -/
def lineHead : List Char :=
  "\x7b\"runId\":\"run\",\"level\":\"info\",\"type\":\"step\",\"message\":\"caf".toList

def lineRest : List Char :=
  "\",\"timestamp\":\"2026-05-16T12:00:00.000Z\"\x7d".toList

def accentedEvent : OrchestratorEvent :=
  {
    runId := codeUnits "run"
    level := codeUnits "info"
    type := codeUnits "step"
    message := codeUnits "caf\u00e9"
    timestamp := codeUnits "2026-05-16T12:00:00.000Z"
  }

def accentedLine : EventLine quietCallbacks.parse :=
  {
    chars := lineHead ++ '\u00e9' :: lineRest
    event := accentedEvent
    parses := by decide +kernel
    single := by decide +kernel
    visible := ⟨'\u00e9', by simp, by decide⟩
  }

/-- The state after an append to a file, and a tick. -/
def appendedOnce (bytes : List Nat) : Tailing OrchestratorEvent :=
  let file : TailedFile := { bytes, mtimeMs := 1 }
  { tailer := tick quietCallbacks {} (some file), file := some file }

theorem appendedTwice_run
    {condition : List TailingStep → Tailing OrchestratorEvent → TailingStep → Prop}
    (first second : List Nat) (nonempty : first ≠ []) (more : second ≠ [])
    (meets : ∀ labels state step,
      (step = .tick → state.file = some { bytes := first, mtimeMs := 1 })
      → condition labels state step)
    : (tailingSystem quietCallbacks).RunWhere condition [.append second 2, .tick, .append first 1]
        { appendedOnce first with file := some { bytes := first ++ second, mtimeMs := 2 } } := by
  have created : (tailingSystem quietCallbacks).RunWhere condition [.append first 1]
      { tailer := {}, file := some { bytes := first, mtimeMs := 1 } } := by
    refine .next (.start rfl) (meets _ _ _ (by simp)) ?_
    exact ⟨fun empty => absurd empty nonempty, by simp, rfl⟩
  have ticked : (tailingSystem quietCallbacks).RunWhere condition [.tick, .append first 1]
      (appendedOnce first) :=
    .next created (meets _ _ _ fun _ => rfl) rfl
  refine .next ticked ?_ ?_
  · exact meets _ _ _ (by simp)
  · refine ⟨fun empty => absurd empty more, ?_, rfl⟩
    intro file same
    cases same
    exact Nat.le_succ 1

/-- The bytes of the line from the letter with the accent on, which is two bytes long. -/
def restBytes : List Nat :=
  lineRest.flatMap utf8Bytes ++ [0xA]

/-- A line that is read in two parts. -/
theorem accented_delivered_once
    : (drainAndStop quietCallbacks (appendedOnce (lineHead.flatMap utf8Bytes)).tailer
        (some {
          bytes := lineHead.flatMap utf8Bytes ++ 0xC3 :: 0xA9 :: restBytes
          mtimeMs := 2
        })).delivered
      = [accentedEvent] := by
  have run := @appendedTwice_run (ReadsWhole quietCallbacks) (lineHead.flatMap utf8Bytes)
    (0xC3 :: 0xA9 :: restBytes) (by decide +kernel) (by simp) ?_
  · exact events_delivered_once run [accentedLine] (by unfold Whole; decide +kernel)
      fun _ _ _ => rfl
  intro labels state step meets
  cases step with
  | append => trivial
  | tick =>
      refine ⟨lineHead, ?_, fun _ _ _ => rfl⟩
      rw [Whole, meets rfl]
      decide +kernel

/-- A character whose bytes come in two reads is lost. -/
theorem event_split_within_character
    : ¬ ∀ (callbacks : Callbacks OrchestratorEvent) (labels : List TailingStep)
        (state : Tailing OrchestratorEvent) (lines : List (EventLine callbacks.parse)),
        (tailingSystem callbacks).Run labels state → Whole state.file (textOf lines)
        → (drainAndStop callbacks state.tailer state.file).delivered
          = lines.map (·.event) := by
  intro always
  have delivered := always quietCallbacks _ _ [accentedLine]
    (appendedTwice_run (lineHead.flatMap utf8Bytes ++ [0xC3]) (0xA9 :: restBytes)
      (by simp) (by simp) fun _ _ _ _ => trivial).run
    (by unfold Whole; decide +kernel)
  revert delivered
  decide +kernel

end EventTailer

end AiSdlc.Infrastructure
