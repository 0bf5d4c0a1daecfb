import Mathlib.Order.Notation

/-! Labelled transition systems and the properties of their runs.
A run remembers the labels of its steps, so that a property may speak about its history.
-/

namespace AiSdlc.Transition

variable {State Label : Type*}

/-- A labelled transition system: where a run may start, and which steps it may take. -/
structure System (State Label : Type*) where
  initial : State → Prop
  step : State → Label → State → Prop

/-- A run from an initial state, with the labels of its steps, the latest one first. -/
inductive System.Run (system : System State Label) : List Label → State → Prop
  | start {state : State} (initial : system.initial state) : Run system [] state
  | next {labels : List Label} {state next : State} {label : Label}
      (earlier : Run system labels state) (taken : system.step state label next)
      : Run system (label :: labels) next

/-- The steps of a system that meet a condition on the state before them. -/
def System.restrict (system : System State Label) (condition : State → Label → Prop)
    : System State Label :=
  {
    initial := system.initial
    step := fun state label next => condition state label ∧ system.step state label next
  }

/-- A property of histories and states that holds initially and is kept by every step holds
along every run, by induction over the run.
-/
theorem System.Run.invariant {system : System State Label}
    (property : List Label → State → Prop)
    (initially : ∀ state, system.initial state → property [] state)
    (kept : ∀ labels state label next,
      property labels state → system.step state label next → property (label :: labels) next)
    {labels : List Label} {state : State} (run : system.Run labels state)
    : property labels state := by
  induction run with
  | start initial => exact initially _ initial
  | next _ taken ih => exact kept _ _ _ _ ih taken

/-- A run of the restricted system is a run of the whole one, by the run invariant rule. -/
theorem System.Run.of_restrict {system : System State Label}
    {condition : State → Label → Prop} {labels : List Label} {state : State}
    (run : (system.restrict condition).Run labels state)
    : system.Run labels state := by
  induction run with
  | start initial => exact .start initial
  | next _ taken ih => exact .next ih taken.2

/-- A run whose labels meet the condition in every state is a run of the restricted system, by
induction over the run.
-/
theorem System.Run.restrict {system : System State Label} {condition : State → Label → Prop}
    {labels : List Label} {state : State} (run : system.Run labels state)
    (meets : ∀ label ∈ labels, ∀ state, condition state label)
    : (system.restrict condition).Run labels state := by
  induction run with
  | start initial => exact .start initial
  | next _ taken ih =>
      have earlier := ih fun label member => meets label (List.mem_cons_of_mem _ member)
      exact .next earlier ⟨meets _ List.mem_cons_self _, taken⟩

/-- The runs whose steps meet a condition on the steps and the state before them. -/
inductive System.RunWhere (system : System State Label)
    (condition : List Label → State → Label → Prop)
    : List Label → State → Prop
  | start {state : State} (initial : system.initial state) : RunWhere system condition [] state
  | next {labels : List Label} {state next : State} {label : Label}
      (earlier : RunWhere system condition labels state) (meets : condition labels state label)
      (taken : system.step state label next)
      : RunWhere system condition (label :: labels) next

/-- Such a run is a run, by induction over it. -/
theorem System.RunWhere.run {system : System State Label}
    {condition : List Label → State → Label → Prop} {labels : List Label} {state : State}
    (run : system.RunWhere condition labels state)
    : system.Run labels state := by
  induction run with
  | start initial => exact .start initial
  | next _ _ taken ih => exact .next ih taken

/-- A property that holds initially, and is kept by every step that meets the condition, holds
along every such run, by induction over it.
-/
theorem System.RunWhere.invariant {system : System State Label}
    {condition : List Label → State → Label → Prop} (property : List Label → State → Prop)
    (initially : ∀ state, system.initial state → property [] state)
    (kept : ∀ labels state label next,
      property labels state → condition labels state label → system.step state label next
      → property (label :: labels) next)
    {labels : List Label} {state : State} (run : system.RunWhere condition labels state)
    : property labels state := by
  induction run with
  | start initial => exact initially _ initial
  | next _ meets taken ih => exact kept _ _ _ _ ih meets taken

/-- A run whose labels meet the condition everywhere is such a run, by induction over it. -/
theorem System.Run.runWhere {system : System State Label}
    {condition : List Label → State → Label → Prop} {labels : List Label} {state : State}
    (run : system.Run labels state)
    (meets : ∀ label ∈ labels, ∀ earlier state, condition earlier state label)
    : system.RunWhere condition labels state := by
  induction run with
  | start initial => exact .start initial
  | next _ taken ih =>
      have earlier := ih fun label member => meets label (List.mem_cons_of_mem _ member)
      exact .next earlier (meets _ List.mem_cons_self _ _) taken

/-- A path that leads on from a state, with the labels of its steps, the latest one first. -/
inductive System.Path (system : System State Label) (start : State)
    : List Label → State → Prop
  | stay : Path system start [] start
  | next {labels : List Label} {state next : State} {label : Label}
      (earlier : Path system start labels state) (taken : system.step state label next)
      : Path system start (label :: labels) next

/-- A property of states that every step keeps holds at the end of a path that starts with
it, by induction over the path.
-/
theorem System.Path.invariant {system : System State Label} (property : State → Prop)
    (kept : ∀ state label next, property state → system.step state label next → property next)
    {start : State} {labels : List Label} {state : State}
    (path : system.Path start labels state) (holds : property start)
    : property state := by
  induction path with
  | stay => exact holds
  | next _ taken ih => exact kept _ _ _ ih taken

/-- A path of the restricted system is a path of the whole one, by induction over the path. -/
theorem System.Path.of_restrict {system : System State Label}
    {condition : State → Label → Prop} {start : State} {labels : List Label} {state : State}
    (path : (system.restrict condition).Path start labels state)
    : system.Path start labels state := by
  induction path with
  | stay => exact .stay
  | next _ taken ih => exact .next ih taken.2

/-- A run goes on along any path from where it ends, by induction over the path. -/
theorem System.Run.append {system : System State Label} {labels more : List Label}
    {state next : State} (run : system.Run labels state) (path : system.Path state more next)
    : system.Run (more ++ labels) next := by
  induction path with
  | stay => exact run
  | next _ taken ih => exact .next ih taken

/-- The system whose steps are calls that each have one result, made in any order. -/
def System.ofCalls {Call : Type*} (initial : State → Prop)
    (perform : Call → State → Label × State)
    : System State Label :=
  {
    initial
    step := fun state label next => ∃ call, (label, next) = perform call state
  }

/-- Calls made one after the other, the latest one first, with their labels. -/
def performAll {Call : Type*} (perform : Call → State → Label × State) (state : State)
    : List Call → List Label × State
  | [] => ([], state)
  | call :: earlier =>
      let (labels, reached) := performAll perform state earlier
      let (label, next) := perform call reached
      (label :: labels, next)

/-- Calls made one after the other are a run, by induction over them. -/
theorem System.run_performAll {Call : Type*} {initial : State → Prop}
    {perform : Call → State → Label × State} {state : State} (starts : initial state)
    (calls : List Call)
    : (System.ofCalls initial perform).Run (performAll perform state calls).1
        (performAll perform state calls).2 := by
  induction calls with
  | nil => exact .start starts
  | cons call earlier ih => exact .next ih ⟨call, rfl⟩

/-- Calls made one after the other lead on from any state, by induction over them. -/
theorem System.path_performAll {Call : Type*} (initial : State → Prop)
    (perform : Call → State → Label × State) (state : State) (calls : List Call)
    : (System.ofCalls initial perform).Path state (performAll perform state calls).1
        (performAll perform state calls).2 := by
  induction calls with
  | nil => exact .stay
  | cons call earlier ih => exact .next ih ⟨call, rfl⟩

/-- The system whose steps are taken by a function, where it has a result. -/
def System.ofSteps (initial : State → Prop) (take : State → Label → Option State)
    : System State Label :=
  {
    initial
    step := fun state label next => take state label = some next
  }

/-- Steps taken one after the other, the latest one first, where all of them can be taken. -/
def takeAll (take : State → Label → Option State) (state : State)
    : List Label → Option State
  | [] => some state
  | label :: earlier => do
      let reached ← takeAll take state earlier
      take reached label

/-- Steps taken one after the other are a run, by induction over them. -/
theorem System.run_takeAll {initial : State → Prop} {take : State → Label → Option State}
    {state reached : State} (starts : initial state) {labels : List Label}
    (taken : takeAll take state labels = some reached)
    : (System.ofSteps initial take).Run labels reached := by
  induction labels generalizing reached with
  | nil =>
      cases taken
      exact .start starts
  | cons label earlier ih =>
      obtain ⟨middle, before, last⟩ := Option.bind_eq_some_iff.mp taken
      exact .next (ih before) last

/-- The system whose steps are checked: they throw, or give the next state. -/
def System.ofChecked {ε : Type*} (initial : State → Prop) (apply : State → Label → Except ε State)
    : System State Label :=
  {
    initial
    step := fun state label next => apply state label = .ok next
  }

/-- Checked steps taken one after the other, the latest one first, while each of them meets the
condition and succeeds.
-/
def applyAll {ε : Type*} (apply : State → Label → Except ε State)
    (condition : State → Label → Prop) [∀ state label, Decidable (condition state label)]
    (state : State)
    : List Label → Option State
  | [] => some state
  | label :: earlier => do
      let reached ← applyAll apply condition state earlier
      if condition reached label then (apply reached label).toOption else none

/-- Checked steps taken one after the other are a run, by induction over them. -/
theorem System.run_applyAll {ε : Type*} {initial : State → Prop}
    {apply : State → Label → Except ε State} {condition : State → Label → Prop}
    [∀ state label, Decidable (condition state label)] {state reached : State}
    (starts : initial state) {labels : List Label}
    (taken : applyAll apply condition state labels = some reached)
    : ((System.ofChecked initial apply).restrict condition).Run labels reached := by
  induction labels generalizing reached with
  | nil =>
      cases taken
      exact .start starts
  | cons label earlier ih =>
      obtain ⟨middle, before, last⟩ := Option.bind_eq_some_iff.mp taken
      by_cases meets : condition middle label
      · rw [if_pos meets] at last
        refine .next (ih before) ⟨meets, ?_⟩
        change apply middle label = .ok reached
        cases applied : apply middle label with
        | error message =>
            rw [applied] at last
            exact nomatch last
        | ok next =>
            rw [applied] at last
            rw [Option.some.inj last]
      · rw [if_neg meets] at last
        exact nomatch last

end AiSdlc.Transition
