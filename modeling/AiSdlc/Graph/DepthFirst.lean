import AiSdlc.Graph.Cycles
import AiSdlc.Graph.Reachable

/-! Depth-first search for a cycle: a node is entered once, stays on the stack while what it leads
to is visited, and a node on the stack that is led to again closes a cycle.
-/

namespace AiSdlc.Graph

variable {α : Type*} [DecidableEq α]

/-- The nodes that were entered, and those of them that were not left yet. -/
structure Visits (α : Type*) where
  visited : List α
  recStack : List α

def Visits.enter (visits : Visits α) (node : α) : Visits α where
  visited := node :: visits.visited
  recStack := node :: visits.recStack

def Visits.leave (visits : Visits α) (node : α) : Visits α :=
  { visits with recStack := visits.recStack.erase node }

/-- Visits the neighbors of a node: nothing is left when a cycle is found. -/
def visitNeighbors (visit : α → Visits α → Option (Visits α))
    : List α → Visits α → Option (Visits α)
  | [], visits => some visits
  | neighbor :: rest, visits =>
      (if neighbor ∈ visits.visited then some visits else visit neighbor visits).bind fun visits =>
        if neighbor ∈ visits.recStack then none else visitNeighbors visit rest visits

/-- Visits a node, and what it leads to: nothing is left when a cycle is found. -/
def visit (next : α → List α) : Nat → α → Visits α → Option (Visits α)
  | 0, _, visits => some visits
  | fuel + 1, node, visits =>
      if node ∈ visits.visited then some (visits.leave node)
      else
        (visitNeighbors (visit next fuel) (next node) (visits.enter node)).map (·.leave node)

/-- Visits all nodes. -/
def visitAll (visit : α → Visits α → Option (Visits α)) : List α → Visits α → Option (Visits α)
  | [], visits => some visits
  | node :: rest, visits => (visit node visits).bind (visitAll visit rest)

/-- The search from each node finds a cycle. -/
def findsCycle (next : α → List α) (nodes : List α) : Bool :=
  (visitAll (visit next nodes.length) nodes ⟨[], []⟩).isNone

-----------------------------------------------------------------------------------------
-- Finished nodes
-----------------------------------------------------------------------------------------

/-- Nodes that were left, the latest one first: each leads to earlier ones only. -/
def Finished (next : α → List α) : List α → Prop
  | [] => True
  | node :: earlier =>
      node ∉ earlier ∧ (∀ other ∈ next node, other ∈ earlier) ∧ Finished next earlier

section Finished

variable {next : α → List α} {finished : List α}

omit [DecidableEq α] in
theorem Finished.closed (ordered : Finished next finished) {node other : α}
    (member : node ∈ finished) (leads : other ∈ next node)
    : other ∈ finished := by
  induction finished with
  | nil => contradiction
  | cons last earlier ih =>
      obtain ⟨-, closed, before⟩ := ordered
      rcases List.mem_cons.mp member with rfl | within
      · exact List.mem_cons_of_mem _ (closed other leads)
      · exact List.mem_cons_of_mem _ (ih before within)

/-- What a finished node leads to was finished before it, by induction over the nodes. -/
theorem Finished.idxOf_lt (ordered : Finished next finished) {node other : α}
    (member : node ∈ finished) (leads : other ∈ next node)
    : finished.idxOf node < finished.idxOf other := by
  induction finished with
  | nil => contradiction
  | cons last earlier ih =>
      obtain ⟨fresh, closed, before⟩ := ordered
      by_cases first : last = node
      · subst first
        have apart : last ≠ other := fun same => fresh (same ▸ closed other leads)
        rw [List.idxOf_cons_self, List.idxOf_cons_ne _ apart]
        exact Nat.succ_pos _
      · have within : node ∈ earlier := (List.mem_cons.mp member).resolve_left (Ne.symm first)
        have apart : last ≠ other := by
          rintro rfl
          exact fresh (before.closed within leads)
        rw [List.idxOf_cons_ne _ first, List.idxOf_cons_ne _ apart]
        exact Nat.succ_lt_succ (ih before within)

theorem Finished.not_cyclic (ordered : Finished next finished)
    (all : ∀ node, next node ≠ [] → node ∈ finished)
    : ¬ Cyclic (Leads next) := by
  refine @not_cyclic_of_rank _ _ (fun node => finished.length - finished.idxOf node) ?_
  intro node other leads
  have member : node ∈ finished := all node (List.ne_nil_of_mem leads)
  have before := ordered.idxOf_lt member leads
  have last := List.idxOf_lt_length_of_mem (ordered.closed member leads)
  omega

end Finished

-----------------------------------------------------------------------------------------
-- The search
-----------------------------------------------------------------------------------------

/-- The nodes of the stack lead to each other, the latest one first. -/
def Path (next : α → List α) (stack : List α) : Prop :=
  stack.IsChain fun later earlier => later ∈ next earlier

omit [DecidableEq α] in
theorem Path.rest {next : α → List α} {top : α} {below : List α}
    (path : Path next (top :: below))
    : Path next below := by
  cases below with
  | nil => exact .nil
  | cons second below => exact (List.isChain_cons_cons.mp path).2

omit [DecidableEq α] in
/-- Every node of the stack leads to the latest one, by induction over the stack. -/
theorem Path.reaches {next : α → List α} {top : α} {below : List α}
    (path : Path next (top :: below))
    : ∀ node ∈ top :: below, Relation.ReflTransGen (Leads next) node top := by
  induction below generalizing top with
  | nil =>
      intro node member
      rw [List.mem_singleton.mp member]
  | cons second below ih =>
      obtain ⟨leads, rest⟩ := List.isChain_cons_cons.mp path
      intro node member
      rcases List.mem_cons.mp member with rfl | within
      · exact .refl
      · exact (ih rest node within).tail leads

/-- How the search stands when some nodes are finished. -/
structure Searching (next : α → List α) (nodes finished : List α) (visits : Visits α) : Prop where
  visited_iff : ∀ node, node ∈ visits.visited ↔ node ∈ visits.recStack ∨ node ∈ finished
  apart : ∀ node ∈ finished, node ∉ visits.recStack
  ordered : Finished next finished
  path : Path next visits.recStack
  within : visits.visited ⊆ nodes
  distinct : visits.visited.Nodup

/-- What a part of the search comes to: a cycle, or more finished nodes and the same stack. -/
def Searches (next : α → List α) (nodes finished : List α) (before : Visits α)
    (targets : List α)
    : Option (Visits α) → Prop
  | none => Cyclic (Leads next)
  | some after => ∃ more, Searching next nodes (more ++ finished) after
      ∧ after.recStack = before.recStack
      ∧ before.visited.length ≤ after.visited.length
      ∧ ∀ node ∈ targets, node ∈ more ++ finished

section Search

variable {next : α → List α} {nodes finished : List α} {visits : Visits α} {fuel : Nat}
  {node : α}

omit [DecidableEq α] in
theorem Searching.enter (searching : Searching next nodes finished visits)
    (fresh : node ∉ visits.visited) (inside : node ∈ nodes)
    (path : Path next (node :: visits.recStack))
    : Searching next nodes finished (visits.enter node) := by
  constructor
  · intro other
    simp only [Visits.enter, List.mem_cons, searching.visited_iff, or_assoc]
  · intro other member entered
    rcases List.mem_cons.mp entered with rfl | before
    · exact fresh ((searching.visited_iff other).mpr (.inr member))
    · exact searching.apart other member before
  · exact searching.ordered
  · exact path
  · exact List.cons_subset.mpr ⟨inside, searching.within⟩
  · exact List.nodup_cons.mpr ⟨fresh, searching.distinct⟩

/-- A node whose neighbors are finished is left. -/
theorem Searching.leave {stack : List α} (searching : Searching next nodes finished visits)
    (top : visits.recStack = node :: stack) (once : node ∉ stack)
    (closed : ∀ other ∈ next node, other ∈ finished)
    : Searching next nodes (node :: finished) (visits.leave node) := by
  have left : (visits.leave node).recStack = stack := by
    simp [Visits.leave, top]
  have open_ : node ∉ finished := fun member =>
    searching.apart node member (top ▸ List.mem_cons_self)
  constructor
  · intro other
    rw [left]
    have entered := searching.visited_iff other
    rw [top] at entered
    refine entered.trans ?_
    simp only [List.mem_cons]
    tauto
  · intro other member
    rw [left]
    rcases List.mem_cons.mp member with rfl | before
    · exact once
    · intro within
      exact searching.apart other before (top ▸ List.mem_cons_of_mem _ within)
  · exact ⟨open_, closed, searching.ordered⟩
  · rw [left]
    have path := searching.path
    rw [top] at path
    exact path.rest
  · exact searching.within
  · exact searching.distinct

/-- How a visit of a node in some part of the search has to turn out. -/
def VisitsWell (next : α → List α) (nodes : List α) (fuel : Nat)
    (visitNode : α → Visits α → Option (Visits α))
    : Prop :=
  ∀ (finished : List α) (visits : Visits α) (node : α),
    Searching next nodes finished visits → node ∉ visits.visited → node ∈ nodes →
    Path next (node :: visits.recStack) →
    nodes.length ≤ fuel + visits.visited.length →
    Searches next nodes finished visits [node] (visitNode node visits)

omit [DecidableEq α] in
theorem Searching.settled (searching : Searching next nodes finished visits)
    (done : node ∈ finished)
    : Searches next nodes finished visits [node] (some visits) := by
  refine ⟨[], searching, rfl, Nat.le_refl _, ?_⟩
  intro other member
  rw [List.mem_singleton.mp member]
  exact done

omit [DecidableEq α] in
/-- One part of the search goes on where another one ended. -/
theorem Searches.bind {targets others : List α} {result : Option (Visits α)}
    {rest : Visits α → Option (Visits α)}
    (first : Searches next nodes finished visits targets result)
    (second : ∀ more middle, Searching next nodes (more ++ finished) middle →
      middle.recStack = visits.recStack →
      visits.visited.length ≤ middle.visited.length →
      (∀ node ∈ targets, node ∈ more ++ finished) →
      Searches next nodes (more ++ finished) middle others (rest middle))
    : Searches next nodes finished visits (targets ++ others) (result.bind rest) := by
  cases result with
  | none => exact first
  | some middle =>
      obtain ⟨more, searching, same, longer, found⟩ := first
      have after := second more middle searching same longer found
      change Searches next nodes finished visits _ (rest middle)
      cases ended : rest middle with
      | none =>
          rw [ended] at after
          exact after
      | some last =>
          rw [ended] at after
          obtain ⟨evenMore, ends, unchanged, evenLonger, all⟩ := after
          rw [← List.append_assoc] at ends
          refine ⟨evenMore ++ more, ends, unchanged.trans same, longer.trans evenLonger, ?_⟩
          rw [List.append_assoc]
          refine List.forall_mem_append.mpr ⟨fun node member => ?_, all⟩
          exact List.mem_append_right _ (found node member)

/-- The neighbors of the latest node of the stack are finished, or a cycle is found, by induction
over the neighbors.
-/
theorem searches_visitNeighbors {visitNode : α → Visits α → Option (Visits α)}
    (visitsWell : VisitsWell next nodes fuel visitNode) {stack neighbors : List α}
    (searching : Searching next nodes finished visits) (top : visits.recStack = node :: stack)
    (leads : ∀ neighbor ∈ neighbors, neighbor ∈ next node) (inside : neighbors ⊆ nodes)
    (enough : nodes.length ≤ fuel + visits.visited.length)
    : Searches next nodes finished visits neighbors
        (visitNeighbors visitNode neighbors visits) := by
  induction neighbors generalizing finished visits with
  | nil => exact ⟨[], searching, rfl, Nat.le_refl _, fun _ member => nomatch member⟩
  | cons neighbor rest ih =>
      obtain ⟨direct, later⟩ := List.forall_mem_cons.mp leads
      obtain ⟨within, insideRest⟩ := List.cons_subset.mp inside
      unfold visitNeighbors
      by_cases again : neighbor ∈ visits.recStack
      · -- The neighbor is on the stack, so that it leads back to the latest node.
        have entered : neighbor ∈ visits.visited :=
          (searching.visited_iff neighbor).mpr (.inl again)
        rw [if_pos entered, Option.bind_some, if_pos again]
        have path := searching.path
        rw [top] at path again
        exact ⟨neighbor, .tail' (path.reaches neighbor again) direct⟩
      · have first : Searches next nodes finished visits [neighbor]
            (if neighbor ∈ visits.visited then some visits else visitNode neighbor visits) := by
          by_cases entered : neighbor ∈ visits.visited
          · rw [if_pos entered]
            exact searching.settled
              (((searching.visited_iff neighbor).mp entered).resolve_left again)
          · rw [if_neg entered]
            refine visitsWell finished visits neighbor searching entered within ?_ enough
            rw [top]
            exact List.isChain_cons_cons.mpr ⟨direct, top ▸ searching.path⟩
        refine first.bind fun more middle goesOn same longer found => ?_
        have left : neighbor ∉ middle.recStack :=
          goesOn.apart neighbor (found neighbor List.mem_cons_self)
        rw [if_neg left]
        exact ih goesOn (same.trans top) later insideRest (by omega)

/-- A node that was not entered is finished, or a cycle is found, by induction over the depth. -/
theorem searches_visit (closed : ∀ node ∈ nodes, next node ⊆ nodes)
    : VisitsWell next nodes fuel (visit next fuel) := by
  induction fuel with
  | zero =>
      intro finished visits node searching fresh inside path enough
      have most := (List.subperm_of_subset
        (List.nodup_cons.mpr ⟨fresh, searching.distinct⟩)
        (List.cons_subset.mpr ⟨inside, searching.within⟩)).length_le
      simp only [List.length_cons] at most
      omega
  | succ fuel ih =>
      intro finished visits node searching fresh inside path enough
      have entered := searching.enter fresh inside path
      have deeper : nodes.length ≤ fuel + (visits.enter node).visited.length := by
        simp only [Visits.enter, List.length_cons]
        omega
      have neighbors := searches_visitNeighbors ih entered rfl (fun _ member => member)
        (closed node inside) deeper
      rw [visit, if_neg fresh]
      cases result : visitNeighbors (visit next fuel) (next node) (visits.enter node) with
      | none =>
          rw [result] at neighbors
          exact neighbors
      | some after =>
          rw [result] at neighbors
          obtain ⟨more, goesOn, same, longer, all⟩ := neighbors
          have once : node ∉ visits.recStack :=
            fun open_ => fresh ((searching.visited_iff node).mpr (.inl open_))
          refine ⟨node :: more, goesOn.leave same once all, ?_, ?_, ?_⟩
          · simp [Visits.leave, same, Visits.enter]
          · simp only [Visits.enter, List.length_cons] at longer
            simp only [Visits.leave]
            omega
          · intro other member
            rw [List.mem_singleton.mp member]
            exact List.mem_cons_self

theorem searches_first (closed : ∀ node ∈ nodes, next node ⊆ nodes)
    (searching : Searching next nodes finished visits) (empty : visits.recStack = [])
    (inside : node ∈ nodes)
    : Searches next nodes finished visits [node] (visit next nodes.length node visits) := by
  by_cases entered : node ∈ visits.visited
  · obtain ⟨size, depth⟩ := Nat.exists_eq_succ_of_ne_zero (List.length_pos_of_mem inside).ne'
    have left : visits.leave node = visits := by
      cases visits with | mk visited recStack =>
        cases empty
        rfl
    rw [depth, visit, if_pos entered, left]
    refine searching.settled (((searching.visited_iff node).mp entered).resolve_left ?_)
    rw [empty]
    exact List.not_mem_nil
  · refine searches_visit closed finished visits node searching entered inside ?_
      (Nat.le_add_right _ _)
    rw [empty]
    exact .singleton node

/-- With an empty stack, all nodes are finished, or a cycle is found, by induction over them. -/
theorem searches_visitAll (closed : ∀ node ∈ nodes, next node ⊆ nodes) {targets : List α}
    (searching : Searching next nodes finished visits) (empty : visits.recStack = [])
    (inside : targets ⊆ nodes)
    : Searches next nodes finished visits targets
        (visitAll (visit next nodes.length) targets visits) := by
  induction targets generalizing finished visits with
  | nil => exact ⟨[], searching, rfl, Nat.le_refl _, fun _ member => nomatch member⟩
  | cons node rest ih =>
      obtain ⟨within, insideRest⟩ := List.cons_subset.mp inside
      refine (searches_first closed searching empty within).bind ?_
      intro more middle goesOn same _ _
      exact ih goesOn (same.trans empty) insideRest

/-- The search finds a cycle exactly when there is one. -/
theorem findsCycle_iff (closed : ∀ node ∈ nodes, next node ⊆ nodes)
    (outside : ∀ node, next node ≠ [] → node ∈ nodes)
    : findsCycle next nodes = true ↔ Cyclic (Leads next) := by
  have start : Searching next nodes [] (⟨[], []⟩ : Visits α) :=
    ⟨by simp, by simp, trivial, .nil, List.nil_subset _, List.nodup_nil⟩
  have all := searches_visitAll closed start rfl (List.Subset.refl nodes)
  unfold findsCycle
  cases result : visitAll (visit next nodes.length) nodes ⟨[], []⟩ with
  | none =>
      rw [result] at all
      exact iff_of_true rfl all
  | some after =>
      rw [result] at all
      obtain ⟨more, ends, -, -, finished⟩ := all
      refine iff_of_false Bool.false_ne_true (ends.ordered.not_cyclic fun node leads => ?_)
      exact finished node (outside node leads)

end Search

end AiSdlc.Graph
