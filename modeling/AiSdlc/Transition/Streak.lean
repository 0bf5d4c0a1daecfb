import Mathlib.Data.List.Infix

/-! How long a history has ended with the same verdict. The length is kept by a counter that is
raised while the verdict repeats, started again with another one, and dropped without one.
-/

namespace AiSdlc.Transition

variable {α β : Type*} {verdict : α → Option β} {history events fewer : List α} {last : α}
  {value : β} {length : Nat}

/-- All events have one and the same verdict. -/
def SameVerdict (verdict : α → Option β) (events : List α) : Prop :=
  ∃ value, ∀ event ∈ events, verdict event = some value

/-- The longest end of the history that repeats one verdict has this length. -/
structure Streak (verdict : α → Option β) (history : List α) (length : Nat) : Prop where
  reached : ∃ suffix, suffix <:+ history ∧ SameVerdict verdict suffix ∧ suffix.length = length
  longest : ∀ suffix, suffix <:+ history → SameVerdict verdict suffix → suffix.length ≤ length

/-- The verdict that a history ends with. -/
def lastVerdict (verdict : α → Option β) (history : List α) : Option β :=
  history.getLast?.bind verdict

@[simp]
theorem lastVerdict_concat : lastVerdict verdict (history ++ [last]) = verdict last := by
  simp [lastVerdict]

theorem SameVerdict.subset (same : SameVerdict verdict events) (within : fewer ⊆ events)
    : SameVerdict verdict fewer := by
  obtain ⟨value, all⟩ := same
  exact ⟨value, fun event member => all event (within member)⟩

theorem SameVerdict.of_suffix_concat (same : SameVerdict verdict events)
    (suffix : events <:+ history ++ [last])
    : events = []
      ∨ ∃ front value, front <:+ history ∧ events = front ++ [last]
        ∧ verdict last = some value ∧ ∀ event ∈ front, verdict event = some value := by
  rcases List.suffix_concat_iff.mp suffix with rfl | ⟨front, rfl, within⟩
  · exact .inl rfl
  · obtain ⟨value, all⟩ := same
    refine .inr ⟨front, value, within, rfl, all last (by simp), ?_⟩
    intro event member
    exact all event (List.mem_append_left _ member)

theorem Streak.again (streak : Streak verdict history length) (given : verdict last = some value)
    (before : lastVerdict verdict history = some value)
    : Streak verdict (history ++ [last]) (length + 1) := by
  obtain ⟨suffix, within, ⟨repeated, all⟩, rfl⟩ := streak.reached
  have before : ∀ event ∈ suffix, verdict event = some value := by
    intro event member
    rcases List.eq_nil_or_concat' suffix with rfl | ⟨front, final, rfl⟩
    · contradiction
    · obtain ⟨earlier, rfl⟩ := within
      have ended : verdict final = some value := by
        simpa [← List.append_assoc, lastVerdict] using before
      rw [all event member, ← ended]
      exact (all final (by simp)).symm
  constructor
  · refine ⟨suffix ++ [last], ?_, ⟨value, ?_⟩, by simp⟩
    · exact List.suffix_concat_iff.mpr (.inr ⟨suffix, rfl, within⟩)
    · intro event member
      rcases List.mem_append.mp member with earlier | latest
      · exact before event earlier
      · rw [List.mem_singleton.mp latest, given]
  · intro other ends same
    rcases same.of_suffix_concat ends with rfl | ⟨front, value, within, rfl, -, all⟩
    · exact Nat.zero_le _
    · rw [List.length_append, List.length_singleton]
      exact Nat.succ_le_succ (streak.longest front within ⟨value, all⟩)

theorem Streak.pos (streak : Streak verdict history length)
    (ended : lastVerdict verdict history = some value)
    : 0 < length := by
  rcases List.eq_nil_or_concat' history with rfl | ⟨front, final, rfl⟩
  · contradiction
  · rw [lastVerdict_concat] at ended
    refine streak.longest [final] (List.suffix_append _ _) ⟨value, ?_⟩
    intro event member
    rw [List.mem_singleton.mp member, ended]

end AiSdlc.Transition
