import AiSdlc.Transition.System
import Mathlib.Data.List.Nodup

/-! Round robin over places on a ring. A scan begins after the place that was admitted last and
looks at one place after the other; it may pass a place, admit it, or end anywhere.
-/

namespace AiSdlc.Transition

-----------------------------------------------------------------------------------------
-- Places on a ring
-----------------------------------------------------------------------------------------

/-- How far a place lies ahead of another one, going around. -/
def ahead (size origin place : Nat) : Nat :=
  if origin ≤ place then place - origin else place + size - origin

section Ahead

variable {size origin place other : Nat}

@[simp]
theorem ahead_self : ahead size origin origin = 0 := by
  simp [ahead]

theorem ahead_lt (inside : place < size) (origins : origin < size)
    : ahead size origin place < size := by
  unfold ahead
  split <;> omega

theorem ahead_inj (inside : place < size) (others : other < size) (origins : origin < size)
    (same : ahead size origin place = ahead size origin other)
    : place = other := by
  unfold ahead at same
  split at same <;> split at same <;> omega

theorem ahead_next (inside : place < size) (origins : origin < size)
    (further : ahead size origin place + 1 < size)
    : ahead size origin ((place + 1) % size) = ahead size origin place + 1 := by
  rcases Nat.lt_or_ge (place + 1) size with below | end_
  · rw [Nat.mod_eq_of_lt below]
    unfold ahead at further ⊢
    split at further <;> split <;> omega
  · obtain rfl : size = place + 1 := by omega
    rw [Nat.mod_self]
    unfold ahead at further ⊢
    split at further <;> split <;> omega

end Ahead

-----------------------------------------------------------------------------------------
-- Scans
-----------------------------------------------------------------------------------------

/-- The place that was admitted last, and the place that a scan looks at. -/
structure RoundRobin where
  last : Option Nat
  looking : Option Nat

inductive ScanAct
  | begin
  | pass (place : Nat)
  | accept (place : Nat)
  | leave
  | idle
  deriving DecidableEq, Repr

/-- A scan goes on with the next place, or it ends. -/
def GoesOn (size place : Nat) (looking : Option Nat) : Prop :=
  looking = none ∨ looking = some ((place + 1) % size)

inductive RoundRobin.Step (size : Nat) : RoundRobin → ScanAct → RoundRobin → Prop
  | begin {last looking : Option Nat} {start : Nat} (inside : start < size)
      (after : ∀ place, last = some place → start = (place + 1) % size)
      : Step size ⟨last, looking⟩ .begin ⟨last, some start⟩
  | pass {last looking : Option Nat} {place : Nat} (next : GoesOn size place looking)
      : Step size ⟨last, some place⟩ (.pass place) ⟨last, looking⟩
  | accept {last looking : Option Nat} {place : Nat} (next : GoesOn size place looking)
      : Step size ⟨last, some place⟩ (.accept place) ⟨some place, looking⟩
  | leave {last looking : Option Nat} : Step size ⟨last, looking⟩ .leave ⟨last, none⟩
  | idle {state : RoundRobin} : Step size state .idle state

/-- The places of the state lie on the ring. -/
structure RoundRobin.Inside (size : Nat) (state : RoundRobin) : Prop where
  last : ∀ place, state.last = some place → place < size
  looking : ∀ place, state.looking = some place → place < size

def roundRobin (size : Nat) : System RoundRobin ScanAct :=
  {
    initial := (·.Inside size)
    step := RoundRobin.Step size
  }

def ScanAct.admitted? : ScanAct → Option Nat
  | accept place => some place
  | begin | pass _ | leave | idle => none

/-- The places admitted along a path, the first one first. -/
def admittedPlaces (acts : List ScanAct) : List Nat :=
  (acts.filterMap ScanAct.admitted?).reverse

/-- What was admitted since the lap began lies in order ahead of the first of it, and the scan
has not come past the target.
-/
structure RoundRobin.Lap (size target first : Nat) (admitted : List Nat) (state : RoundRobin)
    : Prop where
  inside : first < size
  last
    : ∃ place, state.last = some place
        ∧ (∀ earlier ∈ admitted, ahead size first earlier ≤ ahead size first place)
        ∧ ahead size first place < ahead size first target
  looking
    : ∀ place, state.looking = some place →
        (∀ earlier ∈ admitted, ahead size first earlier < ahead size first place)
        ∧ ahead size first place ≤ ahead size first target

section Lap

variable {size target first : Nat} {admitted : List Nat} {state next : RoundRobin}
  {act : ScanAct} {acts : List ScanAct}

theorem GoesOn.inside {place : Nat} {looking : Option Nat} (goesOn : GoesOn size place looking)
    (inside : place < size) {next : Nat} (looks : looking = some next)
    : next < size := by
  rcases goesOn with rfl | rfl
  · contradiction
  · cases looks
    exact Nat.mod_lt _ (Nat.zero_lt_of_lt inside)

/-- A step stays on the ring, by cases on it. -/
theorem RoundRobin.Inside.of_step (inside : state.Inside size)
    (taken : RoundRobin.Step size state act next)
    : next.Inside size := by
  obtain ⟨last, looking⟩ := inside
  cases taken with
  | begin start => exact ⟨last, fun place same => Option.some.inj same ▸ start⟩
  | pass goesOn => exact ⟨last, fun _ same => goesOn.inside (looking _ rfl) same⟩
  | accept goesOn =>
      refine ⟨fun place same => ?_, fun _ same => goesOn.inside (looking _ rfl) same⟩
      exact Option.some.inj same ▸ looking _ rfl
  | leave => exact ⟨last, nofun⟩
  | idle => exact ⟨last, looking⟩

theorem ahead_goesOn {place after : Nat} {looking : Option Nat} (inside : place < size)
    (targets : target < size) (firsts : first < size)
    (before : ahead size first place < ahead size first target)
    (goesOn : GoesOn size place looking) (looks : looking = some after)
    : ahead size first place < ahead size first after
      ∧ ahead size first after ≤ ahead size first target := by
  rcases goesOn with rfl | rfl
  · contradiction
  · cases looks
    have bound := ahead_lt targets firsts
    rw [ahead_next inside firsts (by omega)]
    omega

theorem ahead_lt_of_ne {place : Nat} (inside : place < size) (targets : target < size)
    (firsts : first < size) (upTo : ahead size first place ≤ ahead size first target)
    (differs : place ≠ target)
    : ahead size first place < ahead size first target := by
  refine Nat.lt_of_le_of_ne upTo fun same => ?_
  exact differs (ahead_inj inside targets firsts same)

theorem RoundRobin.Lap.of_step (lap : state.Lap size target first admitted)
    (inside : state.Inside size) (targets : target < size)
    (taken : RoundRobin.Step size state act next) (kept : act ≠ .pass target)
    (quiet : act.admitted? = none)
    : next.Lap size target first admitted := by
  obtain ⟨firsts, ⟨latest, lastIs, upTo, before⟩, looking⟩ := lap
  cases taken with
  | begin start after =>
      refine ⟨firsts, ⟨latest, lastIs, upTo, before⟩, fun place looks => ?_⟩
      obtain rfl := Option.some.inj looks
      have goesOn : GoesOn size latest _ := .inr (congrArg some (after latest lastIs))
      obtain ⟨further, bound⟩ :=
        ahead_goesOn (inside.last latest lastIs) targets firsts before goesOn rfl
      exact ⟨fun earlier member => Nat.lt_of_le_of_lt (upTo earlier member) further, bound⟩
  | @pass last after place goesOn =>
      obtain ⟨beyond, reach⟩ := looking place rfl
      have places := inside.looking place rfl
      have differs : place ≠ target := fun same => kept (same ▸ rfl)
      have below := ahead_lt_of_ne places targets firsts reach differs
      refine ⟨firsts, ⟨latest, lastIs, upTo, before⟩, fun next looks => ?_⟩
      obtain ⟨further, bound⟩ := ahead_goesOn places targets firsts below goesOn looks
      exact ⟨fun earlier member => Nat.lt_trans (beyond earlier member) further, bound⟩
  | accept => contradiction
  | leave => exact ⟨firsts, ⟨latest, lastIs, upTo, before⟩, nofun⟩
  | idle => exact ⟨firsts, ⟨latest, lastIs, upTo, before⟩, looking⟩

theorem RoundRobin.Lap.of_accept {place : Nat} {looking : Option Nat}
    (firsts : first < size) (places : place < size) (targets : target < size)
    (beyond : ∀ earlier ∈ admitted, ahead size first earlier < ahead size first place)
    (before : ahead size first place < ahead size first target)
    (goesOn : GoesOn size place looking)
    : (RoundRobin.mk (some place) looking).Lap size target first (admitted ++ [place]) := by
  have upTo : ∀ earlier ∈ admitted ++ [place],
      ahead size first earlier ≤ ahead size first place := by
    intro earlier member
    rcases List.mem_append.mp member with old | new
    · exact Nat.le_of_lt (beyond earlier old)
    · exact Nat.le_of_eq (congrArg _ (List.mem_singleton.mp new))
  refine ⟨firsts, ⟨place, rfl, upTo, before⟩, fun next looks => ?_⟩
  obtain ⟨further, bound⟩ := ahead_goesOn places targets firsts before goesOn looks
  exact ⟨fun earlier member => Nat.lt_of_le_of_lt (upTo earlier member) further, bound⟩

theorem admittedPlaces_cons (act : ScanAct) (acts : List ScanAct)
    : admittedPlaces (act :: acts) = admittedPlaces acts ++ act.admitted?.toList := by
  unfold admittedPlaces
  cases admits : act.admitted? with
  | none => simp [List.filterMap_cons_none admits]
  | some place => simp [List.filterMap_cons_some admits]

/-- Along a path that has not passed the target: until the target is admitted, no place is
admitted twice, and the lap goes on.
-/
structure RoundRobin.Fair (size target : Nat) (acts : List ScanAct) (state : RoundRobin)
    : Prop where
  inside : state.Inside size
  places : ∀ place ∈ admittedPlaces acts, place < size
  once : ∀ before, before <+: admittedPlaces acts → target ∉ before → before.Nodup
  lap
    : target ∉ admittedPlaces acts → ∀ first rest, admittedPlaces acts = first :: rest →
        state.Lap size target first (admittedPlaces acts)

/-- A step that does not pass the target keeps this, by cases on whether it admits a place. -/
theorem RoundRobin.Fair.of_step (fair : state.Fair size target acts) (targets : target < size)
    (taken : RoundRobin.Step size state act next) (kept : act ≠ .pass target)
    : next.Fair size target (act :: acts) := by
  obtain ⟨inside, places, once, lap⟩ := fair
  have insideNext := inside.of_step taken
  cases admits : act.admitted? with
  | none =>
      have same : admittedPlaces (act :: acts) = admittedPlaces acts := by
        simp [admittedPlaces_cons, admits]
      rw [← same] at places once lap
      refine ⟨insideNext, places, once, fun absent first rest split => ?_⟩
      exact (lap absent first rest split).of_step inside targets taken kept admits
  | some place =>
      cases taken with
      | begin | pass | leave | idle => contradiction
      | @accept last looking place goesOn =>
          obtain rfl := Option.some.inj admits
          have extended : admittedPlaces (.accept place :: acts) = admittedPlaces acts ++ [place] :=
            admittedPlaces_cons _ _
          have placeInside := inside.looking place rfl
          have beyond (absent : target ∉ admittedPlaces acts) (first : Nat) (rest : List Nat)
              (split : admittedPlaces acts = first :: rest) :=
            (lap absent first rest split).looking place rfl
          refine ⟨insideNext, ?_, ?_, ?_⟩
          · intro other member
            rw [extended] at member
            rcases List.mem_append.mp member with old | new
            · exact places other old
            · exact List.mem_singleton.mp new ▸ placeInside
          · intro before starts absent
            rw [extended] at starts
            rcases List.prefix_concat_iff.mp starts with rfl | earlier
            · have absentBefore := fun member => absent (List.mem_append_left _ member)
              have fresh : place ∉ admittedPlaces acts := by
                intro member
                obtain ⟨first, rest, split⟩ :=
                  List.exists_cons_of_ne_nil (List.ne_nil_of_mem member)
                exact Nat.lt_irrefl _ ((beyond absentBefore first rest split).1 place member)
              refine List.nodup_append.mpr ⟨once _ (List.prefix_refl _) absentBefore,
                List.nodup_singleton _, fun other member last single same => fresh ?_⟩
              rwa [← List.mem_singleton.mp single, ← same]
            · exact once before earlier absent
          · intro absent first rest split
            rw [extended] at absent split ⊢
            have absentBefore := fun member => absent (List.mem_append_left _ member)
            have differs : place ≠ target := fun same => absent (by simp [same])
            cases admitted : admittedPlaces acts with
            | nil =>
                rw [admitted] at split
                obtain rfl : place = first := (List.cons.inj split).1
                have before := ahead_lt_of_ne placeInside targets placeInside
                  (by simp) differs
                exact .of_accept placeInside placeInside targets nofun before goesOn
            | cons head tail =>
                rw [admitted] at split
                obtain rfl : head = first := (List.cons.inj split).1
                obtain ⟨further, reach⟩ := beyond absentBefore head tail admitted
                have firsts := places head (by simp [admitted])
                have before := ahead_lt_of_ne placeInside targets firsts reach differs
                rw [admitted] at further
                exact .of_accept firsts placeInside targets further before goesOn

/-- Along a path of scans that never pass the target, no place is admitted twice before the
target is admitted, by induction over the path.
-/
theorem RoundRobin.fair_of_path {start : RoundRobin} (inside : start.Inside size)
    (targets : target < size)
    (path : ((roundRobin size).restrict fun _ act => act ≠ .pass target).Path start acts state)
    : state.Fair size target acts := by
  induction path with
  | stay =>
      refine ⟨inside, nofun, fun before starts _ => ?_, nofun⟩
      rw [List.prefix_nil.mp starts]
      exact List.nodup_nil
  | next _ taken ih => exact ih.of_step targets taken.2 taken.1

end Lap

end AiSdlc.Transition
