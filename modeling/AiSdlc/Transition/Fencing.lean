import Mathlib.Data.List.Nodup
import AiSdlc.Transition.System

/-! Fencing tokens. Each key has at most one holder, who got it under a token; the history of
a run tells which token stands, and with fresh tokens one that was superseded never stands
again.
-/

namespace AiSdlc.Transition

variable {State Label Key Token : Type*}

/-- What a step does to the holder of a key. -/
inductive Change (Token : Type*)
  | keep
  | issue (token : Token)
  | revoke

def Change.apply (change : Change Token) (holder : Option Token) : Option Token :=
  match change with
  | keep => holder
  | issue token => some token
  | revoke => none

/-- The token that a step issues. -/
def Change.issued? : Change Token → Option Token
  | keep => none
  | issue token => some token
  | revoke => none

variable (change : Label → Key → Change Token)

/-- What the latest step that changed a key left as its holder, the latest step first. -/
def lastChange : List Label → Key → Option (Option Token)
  | [], _ => none
  | label :: earlier, key =>
      match change label key with
      | .keep => lastChange earlier key
      | .issue token => some (some token)
      | .revoke => some none

/-- The token of a key that was issued last and was not revoked since. -/
def standing (labels : List Label) (key : Key) : Option Token :=
  (lastChange change labels key).join

/-- The tokens that were issued for a key, the latest one first. -/
def issued (labels : List Label) (key : Key) : List Token :=
  labels.filterMap fun label => (change label key).issued?

variable {change}

theorem standing_cons (label : Label) (earlier : List Label) (key : Key)
    : standing change (label :: earlier) key
      = (change label key).apply (standing change earlier key) := by
  cases effect : change label key with
  | keep => simp [standing, lastChange, effect, Change.apply]
  | issue token => simp [standing, lastChange, effect, Change.apply]
  | revoke => simp [standing, lastChange, effect, Change.apply]

/-- Every step changes the holders as its label tells. -/
def System.Follows (system : System State Label) (holder : State → Key → Option Token)
    (change : Label → Key → Change Token)
    : Prop :=
  ∀ state label next, system.step state label next →
    ∀ key, holder next key = (change label key).apply (holder state key)

/-- In a run that starts without holders, the holder of a key has its standing token, by the
run invariant rule.
-/
theorem System.Run.holder_eq_standing {system : System State Label}
    {holder : State → Key → Option Token} (follows : system.Follows holder change)
    (initially : ∀ state, system.initial state → ∀ key, holder state key = none)
    {labels : List Label} {state : State} (run : system.Run labels state) (key : Key)
    : holder state key = standing change labels key := by
  refine run.invariant (fun labels state => holder state key = standing change labels key)
    (fun state initial => initially state initial key) ?_
  intro labels state label next ih taken
  rw [follows state label next taken key, standing_cons, ih]

/-- Wherever a run starts, a key that was changed has the holder that its latest change left
it, by induction over the run.
-/
theorem System.Run.holder_of_lastChange {system : System State Label}
    {holder : State → Key → Option Token} (follows : system.Follows holder change)
    {labels : List Label} {state : State} (run : system.Run labels state) {key : Key}
    {held : Option Token} (changed : lastChange change labels key = some held)
    : holder state key = held := by
  induction run with
  | start => simp [lastChange] at changed
  | @next labels state next label _ taken ih =>
      rw [follows state label next taken key]
      cases effect : change label key with
      | keep =>
          simp only [lastChange, effect] at changed
          exact ih changed
      | issue token =>
          simp only [lastChange, effect] at changed
          exact Option.some.inj changed
      | revoke =>
          simp only [lastChange, effect] at changed
          exact Option.some.inj changed

/-- A token that the latest change left was issued, by induction over the history. -/
theorem mem_issued_of_lastChange {labels : List Label} {key : Key} {token : Token}
    (stands : lastChange change labels key = some (some token))
    : token ∈ issued change labels key := by
  induction labels with
  | nil => simp [lastChange] at stands
  | cons label earlier ih =>
      cases effect : change label key with
      | keep =>
          simp only [lastChange, effect] at stands
          simpa [issued, effect, Change.issued?] using ih stands
      | issue other =>
          simp only [lastChange, effect, Option.some.injEq] at stands
          simp [issued, effect, Change.issued?, stands]
      | revoke => simp [lastChange, effect] at stands

/-- Once a key has changed, what was before that no longer matters, by induction over the
later part of the history.
-/
theorem lastChange_append_of_changed {later earlier : List Label} {key : Key}
    (changed : ∃ label ∈ later, change label key ≠ .keep)
    : ∃ held, lastChange change later key = some held
        ∧ lastChange change (later ++ earlier) key = some held := by
  induction later with
  | nil => simp at changed
  | cons label later ih =>
      cases effect : change label key with
      | keep =>
          obtain ⟨other, member, moved⟩ := changed
          have inLater : other ∈ later := by
            rcases List.mem_cons.mp member with rfl | inLater
            · exact absurd effect moved
            · exact inLater
          simpa [lastChange, effect] using ih ⟨other, inLater, moved⟩
      | issue token => simp [lastChange, effect]
      | revoke => simp [lastChange, effect]

/-- With fresh tokens, a token is not what the latest change left after a later step changed
its key: what was left then was issued later.
-/
theorem lastChange_ne_of_superseded {later earlier : List Label} {label : Label} {key : Key}
    {token : Token} (issues : change label key = .issue token)
    (fresh : (issued change (later ++ label :: earlier) key).Nodup)
    (superseded : ∃ other ∈ later, change other key ≠ .keep)
    : ∃ held, lastChange change (later ++ label :: earlier) key = some held
        ∧ held ≠ some token := by
  obtain ⟨held, left, still⟩ := lastChange_append_of_changed superseded
  refine ⟨held, still, ?_⟩
  rintro rfl
  have again : token ∈ issued change later key := mem_issued_of_lastChange left
  have first : token ∈ issued change (label :: earlier) key := by
    simp [issued, issues, Change.issued?]
  unfold issued at fresh
  rw [List.filterMap_append] at fresh
  exact (List.nodup_append.mp fresh).2.2 token again token first rfl

theorem System.Run.holder_ne_of_superseded {system : System State Label}
    {holder : State → Key → Option Token} (follows : system.Follows holder change)
    {later earlier : List Label} {label : Label} {state : State} {key : Key} {token : Token}
    (run : system.Run (later ++ label :: earlier) state)
    (issues : change label key = .issue token)
    (fresh : (issued change (later ++ label :: earlier) key).Nodup)
    (superseded : ∃ other ∈ later, change other key ≠ .keep)
    : holder state key ≠ some token := by
  obtain ⟨held, left, other⟩ := lastChange_ne_of_superseded issues fresh superseded
  rw [run.holder_of_lastChange follows left]
  exact other

end AiSdlc.Transition
