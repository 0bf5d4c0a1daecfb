import Mathlib.Data.List.Nodup
import Mathlib.Data.List.Perm.Subperm
import Mathlib.Logic.Relation

/-! Breadth-first search: from a node, everything that is reachable is seen exactly once. -/

namespace AiSdlc.Graph

variable {α : Type*} [DecidableEq α]

/-- The nodes that are not seen yet, each of them once. -/
def unseen (seen : List α) : List α → List α
  | [] => []
  | node :: rest =>
      if node ∈ seen then unseen seen rest else node :: unseen (seen ++ [node]) rest

/-- A queue of nodes to go on from, and the nodes seen so far. -/
def search (next : α → List α) : Nat → List α → List α → List α
  | 0, _, seen => seen
  | _ + 1, [], seen => seen
  | fuel + 1, current :: queue, seen =>
      let found := unseen seen (next current)
      search next fuel (queue ++ found) (seen ++ found)

/-- A node leads to another one. -/
def Leads (next : α → List α) (first second : α) : Prop :=
  second ∈ next first

theorem mem_unseen {seen nodes : List α} {node : α}
    : node ∈ unseen seen nodes ↔ node ∈ nodes ∧ node ∉ seen := by
  induction nodes generalizing seen with
  | nil => simp [unseen]
  | cons first rest ih =>
      unfold unseen
      split
      · rename_i old
        rw [ih, List.mem_cons]
        constructor
        · rintro ⟨member, new⟩
          exact ⟨.inr member, new⟩
        · rintro ⟨rfl | member, new⟩
          · exact absurd old new
          · exact ⟨member, new⟩
      · rename_i fresh
        simp only [List.mem_cons, ih, List.mem_append, List.not_mem_nil, or_false, not_or]
        constructor
        · rintro (rfl | ⟨member, new, -⟩)
          · exact ⟨.inl rfl, fresh⟩
          · exact ⟨.inr member, new⟩
        · rintro ⟨rfl | member, new⟩
          · exact .inl rfl
          · by_cases same : node = first
            · exact .inl same
            · exact .inr ⟨member, new, same⟩

/-- What is seen stays without repetition, by induction over the new nodes. -/
theorem nodup_append_unseen {seen nodes : List α} (distinct : seen.Nodup)
    : (seen ++ unseen seen nodes).Nodup := by
  induction nodes generalizing seen with
  | nil => simpa [unseen] using distinct
  | cons first rest ih =>
      unfold unseen
      split
      · exact ih distinct
      · rename_i fresh
        have longer : (seen ++ [first]).Nodup :=
          List.nodup_append_comm.mp (List.nodup_cons.mpr ⟨fresh, distinct⟩)
        simpa using ih longer

section Search

variable {next : α → List α} {fuel : Nat} {queue seen nodes : List α}

theorem nodup_search (distinct : seen.Nodup) : (search next fuel queue seen).Nodup := by
  induction fuel generalizing queue seen with
  | zero => exact distinct
  | succ fuel ih =>
      cases queue with
      | nil => exact distinct
      | cons current queue => exact ih (nodup_append_unseen distinct)

/-- Everything that is seen is reachable, by induction over the steps. -/
theorem reachable_of_mem_search {start : α}
    (queued : ∀ node ∈ queue, Relation.ReflTransGen (Leads next) start node)
    (reached : ∀ node ∈ seen, Relation.ReflTransGen (Leads next) start node)
    : ∀ node ∈ search next fuel queue seen, Relation.ReflTransGen (Leads next) start node := by
  induction fuel generalizing queue seen with
  | zero => exact reached
  | succ fuel ih =>
      cases queue with
      | nil => exact reached
      | cons current queue =>
          have found : ∀ node ∈ unseen seen (next current),
              Relation.ReflTransGen (Leads next) start node :=
            fun node member =>
              (queued current List.mem_cons_self).tail (mem_unseen.mp member).1
          refine ih ?_ ?_
          · intro node member
            rcases List.mem_append.mp member with old | new
            · exact queued node (List.mem_cons_of_mem _ old)
            · exact found node new
          · intro node member
            rcases List.mem_append.mp member with old | new
            · exact reached node old
            · exact found node new

theorem mem_search_of_mem {node : α} (member : node ∈ seen)
    : node ∈ search next fuel queue seen := by
  induction fuel generalizing queue seen with
  | zero => exact member
  | succ fuel ih =>
      cases queue with
      | nil => exact member
      | cons current queue => exact ih (List.mem_append_left _ member)

/-- A node that was seen waits in the queue, or all that it leads to was seen. -/
def Progresses (next : α → List α) (queue seen : List α) : Prop :=
  ∀ node ∈ seen, node ∈ queue ∨ ∀ other ∈ next node, other ∈ seen

theorem Progresses.step {current : α} (progresses : Progresses next (current :: queue) seen)
    : Progresses next (queue ++ unseen seen (next current))
        (seen ++ unseen seen (next current)) := by
  intro node member
  rcases List.mem_append.mp member with old | new
  · rcases progresses node old with waiting | done
    · rcases List.mem_cons.mp waiting with rfl | later
      · refine .inr fun other leads => ?_
        by_cases before : other ∈ seen
        · exact List.mem_append_left _ before
        · exact List.mem_append_right _ (mem_unseen.mpr ⟨leads, before⟩)
      · exact .inl (List.mem_append_left _ later)
    · exact .inr fun other leads => List.mem_append_left _ (done other leads)
  · exact .inl (List.mem_append_right _ new)

/-- With a step for every node, the search ends where nothing leads out of what was seen: each
step takes a node from the queue, and a node is queued once.
-/
theorem closed_search (closed : ∀ node ∈ nodes, ∀ other ∈ next node, other ∈ nodes)
    (progresses : Progresses next queue seen) (waiting : queue ⊆ seen) (within : seen ⊆ nodes)
    (distinct : seen.Nodup) (enough : nodes.length + queue.length ≤ fuel + seen.length)
    : ∀ node ∈ search next fuel queue seen, ∀ other ∈ next node,
        other ∈ search next fuel queue seen := by
  have ended (empty : queue = []) : ∀ node ∈ seen, ∀ other ∈ next node, other ∈ seen := by
    intro node member
    rcases progresses node member with still | done
    · rw [empty] at still
      contradiction
    · exact done
  induction fuel generalizing queue seen with
  | zero =>
      have most : seen.length ≤ nodes.length := (List.subperm_of_subset distinct within).length_le
      exact ended (List.eq_nil_of_length_eq_zero (by omega))
  | succ fuel ih =>
      cases queue with
      | nil => exact ended rfl
      | cons current queue =>
          have inside : current ∈ nodes := within (waiting List.mem_cons_self)
          refine ih progresses.step ?_ ?_ (nodup_append_unseen distinct) ?_ ?_
          · intro node member
            rcases List.mem_append.mp member with old | new
            · exact List.mem_append_left _ (waiting (List.mem_cons_of_mem _ old))
            · exact List.mem_append_right _ new
          · intro node member
            rcases List.mem_append.mp member with old | new
            · exact within old
            · exact closed current inside node (mem_unseen.mp new).1
          · simp only [List.length_append, List.length_cons] at enough ⊢
            omega
          · intro empty node member
            rcases progresses.step node member with still | done
            · rw [empty] at still
              contradiction
            · exact done

/-- The search sees exactly what is reachable. -/
theorem mem_search {start node : α}
    (closed : ∀ node ∈ nodes, ∀ other ∈ next node, other ∈ nodes) (inside : start ∈ nodes)
    (enough : nodes.length ≤ fuel)
    : node ∈ search next fuel [start] [start]
      ↔ Relation.ReflTransGen (Leads next) start node := by
  constructor
  · refine reachable_of_mem_search ?_ ?_ node
    · simp [Relation.ReflTransGen.refl]
    · simp [Relation.ReflTransGen.refl]
  · intro reachable
    have grows : ∀ node ∈ search next fuel [start] [start], ∀ other ∈ next node,
        other ∈ search next fuel [start] [start] :=
      closed_search closed (fun node member => .inl member) (fun _ member => member)
        (by simpa using inside) (List.nodup_singleton start) (by simpa using enough)
    induction reachable with
    | refl => exact mem_search_of_mem List.mem_cons_self
    | tail _ leads ih => exact grows _ ih _ leads

end Search

end AiSdlc.Graph
