import Mathlib.Data.List.Sort
import Mathlib.Logic.Function.Basic
import Mathlib.Data.List.Perm.Subperm

/-! Kahn's algorithm: nodes whose dependencies are all listed are listed in turn. It lists every
node exactly when the dependencies have no cycle, in an order that the arrangement of the ready
nodes decides.
-/

namespace AiSdlc.Graph

variable {α : Type*} [DecidableEq α]

/-- A listed node releases its dependents: each has one dependency less to wait for, and one that
waits for none is ready. The nodes that are not members do not count.
-/
def release (arrange : List α → List α) (member : α → Bool)
    : List α → (α → Int) → List α → (α → Int) × List α
  | [], degrees, ready => (degrees, ready)
  | node :: rest, degrees, ready =>
      if member node then
        let degree := degrees node - 1
        release arrange member rest (Function.update degrees node degree)
          (if degree = 0 then arrange (ready ++ [node]) else ready)
      else release arrange member rest degrees ready

/-- Lists the ready nodes, one after the other. -/
def kahn (arrange : List α → List α) (member : α → Bool) (dependents : α → List α)
    : Nat → (α → Int) → List α → List α
  | 0, _, _ => []
  | _ + 1, _, [] => []
  | fuel + 1, degrees, current :: ready =>
      let (degrees, ready) := release arrange member (dependents current) degrees ready
      current :: kahn arrange member dependents fuel degrees ready

/-- Members whose dependencies among the members are listed before them. -/
def Ordered (deps : α → List α) (member : α → Bool) : List α → List α → Prop
  | _, [] => True
  | done, node :: rest =>
      member node = true ∧ node ∉ done ∧ (∀ dep ∈ deps node, member dep = true → dep ∈ done)
      ∧ Ordered deps member (node :: done) rest

/-- The dependencies of a node that it still waits for. -/
def waiting (deps : α → List α) (member : α → Bool) (done : List α) (node : α) : List α :=
  (deps node).filter fun dep => member dep && dep ∉ done

/-- The dependencies among the members descend. -/
def Ranked (deps : α → List α) (member : α → Bool) : Prop :=
  ∃ rank : α → Nat, ∀ node, member node = true →
    ∀ dep ∈ deps node, member dep = true → rank dep < rank node

section Release

variable {arrange : List α → List α} {member : α → Bool} {dependents : List α}
  {degrees : α → Int} {ready : List α}

theorem release_degrees (distinct : dependents.Nodup) (node : α)
    : (release arrange member dependents degrees ready).1 node
      = if node ∈ dependents ∧ member node = true then degrees node - 1 else degrees node := by
  induction dependents generalizing degrees ready with
  | nil => simp [release]
  | cons first rest ih =>
      obtain ⟨apart, distinct⟩ := List.nodup_cons.mp distinct
      unfold release
      split
      · rename_i counts
        rw [ih distinct]
        by_cases same : node = first
        · subst same
          simp [apart, counts]
        · simp [same]
      · rename_i ignored
        rw [ih distinct]
        by_cases same : node = first
        · subst same
          simp [apart, ignored]
        · simp [same]

/-- The members that waited for one node only become ready. -/
theorem release_ready (arranges : ∀ nodes, (arrange nodes).Perm nodes)
    (distinct : dependents.Nodup)
    : (release arrange member dependents degrees ready).2.Perm
        (ready ++ dependents.filter fun node => member node && degrees node = 1) := by
  induction dependents generalizing degrees ready with
  | nil => simp [release]
  | cons first rest ih =>
      obtain ⟨apart, distinct⟩ := List.nodup_cons.mp distinct
      have later (nodes : List α) : (rest.filter fun node =>
          member node && Function.update degrees first (degrees first - 1) node = 1)
          = rest.filter fun node => member node && degrees node = 1 := by
        refine List.filter_congr fun node within => ?_
        have other : node ≠ first := fun same => apart (same ▸ within)
        rw [Function.update_of_ne other]
      unfold release
      split
      · rename_i counts
        refine (ih distinct).trans ?_
        rw [later rest, List.filter_cons]
        by_cases last : degrees first = 1
        · simp only [last, counts, Int.sub_self, if_true, decide_true, Bool.and_self]
          refine ((arranges _).append_right _).trans ?_
          simp
        · have more : degrees first - 1 ≠ 0 := by omega
          simp [last, more]
      · rename_i ignored
        refine (ih distinct).trans ?_
        simp [ignored]

end Release

/-- Each node is a dependent of its dependencies. -/
structure Dependencies (deps dependents : α → List α) (member : α → Bool) : Prop where
  deps_nodup : ∀ node, (deps node).Nodup
  dependents_nodup : ∀ node, (dependents node).Nodup
  mem_dependents
    : ∀ node other, member other = true → (other ∈ dependents node ↔ node ∈ deps other)

/-- How the loop stands when some nodes are listed. -/
structure Stands (deps : α → List α) (member : α → Bool) (done : List α) (degrees : α → Int)
    (ready : List α)
    : Prop where
  counts : ∀ node, member node = true → degrees node = (waiting deps member done node).length
  ready_iff : ∀ node, node ∈ ready ↔ member node = true ∧ node ∉ done
    ∧ waiting deps member done node = []
  distinct : ready.Nodup
  settled : ∀ node ∈ done, waiting deps member done node = []

section Kahn

variable {arrange : List α → List α} {member : α → Bool} {deps dependents : α → List α}
  {degrees : α → Int} {ready done : List α} {fuel : Nat}

theorem waiting_cons {current node : α}
    : waiting deps member (current :: done) node
      = (waiting deps member done node).filter (· ≠ current) := by
  unfold waiting
  rw [List.filter_filter]
  refine List.filter_congr fun dep _ => ?_
  by_cases same : dep = current <;> simp [same]

theorem waiting_cons_of_not_mem {current node : α} (independent : current ∉ deps node)
    : waiting deps member (current :: done) node = waiting deps member done node := by
  rw [waiting_cons]
  refine List.filter_eq_self.mpr fun dep within => ?_
  have other : dep ≠ current := by
    rintro rfl
    exact independent (List.mem_filter.mp within).1
  simpa using other

theorem length_waiting_cons {current node : α} (distinct : (deps node).Nodup)
    (depends : current ∈ deps node) (counts : member current = true) (fresh : current ∉ done)
    : (waiting deps member (current :: done) node).length + 1
      = (waiting deps member done node).length := by
  have present : current ∈ waiting deps member done node := by
    simp [waiting, depends, counts, fresh]
  have apart : (waiting deps member done node).Nodup := distinct.filter _
  have erased : (waiting deps member done node).erase current
      = waiting deps member (current :: done) node := by
    rw [waiting_cons, apart.erase_eq_filter]
    exact List.filter_congr fun dep _ => by by_cases same : dep = current <;> simp [same]
  rw [← erased]
  exact List.length_erase_add_one present

/-- The loop stands again after each node that it lists. -/
theorem Stands.step (dependencies : Dependencies deps dependents member)
    (arranges : ∀ nodes, (arrange nodes).Perm nodes) {current : α}
    (stands : Stands deps member done degrees (current :: ready))
    : Stands deps member (current :: done)
        (release arrange member (dependents current) degrees ready).1
        (release arrange member (dependents current) degrees ready).2 := by
  obtain ⟨apart, distinct⟩ := List.nodup_cons.mp stands.distinct
  obtain ⟨counted, fresh, free⟩ := (stands.ready_iff current).mp List.mem_cons_self
  have released : (release arrange member (dependents current) degrees ready).2.Perm
      (ready ++ (dependents current).filter fun node => member node && degrees node = 1) :=
    release_ready arranges (dependencies.dependents_nodup current)
  have one {node : α} (counts : member node = true) (depends : current ∈ deps node)
      : degrees node = 1 ↔ waiting deps member (current :: done) node = [] := by
    rw [stands.counts node counts, ← length_waiting_cons (dependencies.deps_nodup node) depends
      counted fresh, ← List.length_eq_zero_iff]
    omega
  constructor
  · intro node counts
    have dependent := dependencies.mem_dependents current node counts
    rw [release_degrees (dependencies.dependents_nodup current), stands.counts node counts]
    by_cases depends : current ∈ deps node
    · rw [if_pos ⟨dependent.mpr depends, counts⟩,
        ← length_waiting_cons (dependencies.deps_nodup node) depends counted fresh]
      omega
    · rw [if_neg (fun both => depends (dependent.mp both.1)), waiting_cons_of_not_mem depends]
  · intro node
    rw [released.mem_iff, List.mem_append, List.mem_filter, List.mem_cons, not_or]
    constructor
    · rintro (old | ⟨dependent, new⟩)
      · obtain ⟨counts, notDone, empty⟩ := (stands.ready_iff node).mp (List.mem_cons_of_mem _ old)
        refine ⟨counts, ⟨fun same => apart (same ▸ old), notDone⟩, ?_⟩
        rw [waiting_cons, empty]
        rfl
      · simp only [Bool.and_eq_true, decide_eq_true_eq] at new
        have depends := (dependencies.mem_dependents current node new.1).mp dependent
        have last := stands.counts node new.1
        rw [new.2] at last
        refine ⟨new.1, ⟨?_, fun listed => ?_⟩, (one new.1 depends).mp new.2⟩
        · rintro rfl
          simp [free] at last
        · simp [stands.settled node listed] at last
    · rintro ⟨counts, ⟨other, notDone⟩, empty⟩
      by_cases depends : current ∈ deps node
      · refine .inr ⟨(dependencies.mem_dependents current node counts).mpr depends, ?_⟩
        simp [counts, (one counts depends).mpr empty]
      · rw [waiting_cons_of_not_mem depends] at empty
        have was := (stands.ready_iff node).mpr ⟨counts, notDone, empty⟩
        exact .inl ((List.mem_cons.mp was).resolve_left other)
  · refine released.nodup_iff.mpr (List.nodup_append.mpr ⟨distinct,
      (dependencies.dependents_nodup current).filter _, ?_⟩)
    rintro node old _ new rfl
    obtain ⟨counts, -, empty⟩ := (stands.ready_iff node).mp (List.mem_cons_of_mem _ old)
    have none := stands.counts node counts
    have last := (List.mem_filter.mp new).2
    simp only [Bool.and_eq_true, decide_eq_true_eq] at last
    simp [last.2, empty] at none
  · intro node listed
    rw [waiting_cons]
    rcases List.mem_cons.mp listed with rfl | before
    · rw [free]
      rfl
    · rw [stands.settled node before]
      rfl

/-- Before any node is listed, all dependencies among the members count. -/
theorem Stands.start
    (counts : ∀ node, member node = true → degrees node = ((deps node).filter member).length)
    (within : ∀ node ∈ ready, member node = true) (distinct : ready.Nodup)
    (free : ∀ node, member node = true → (node ∈ ready ↔ degrees node = 0))
    : Stands deps member [] degrees ready := by
  have all (node : α) : waiting deps member [] node = (deps node).filter member := by
    simp [waiting]
  refine ⟨fun node member => by rw [all]; exact counts node member, fun node => ?_, distinct,
    by simp⟩
  rw [all, ← List.length_eq_zero_iff]
  constructor
  · intro first
    have none := (free node (within node first)).mp first
    rw [counts node (within node first)] at none
    exact ⟨within node first, List.not_mem_nil, by omega⟩
  · rintro ⟨counted, -, none⟩
    rw [free node counted, counts node counted, none]
    rfl

theorem waiting_eq_nil {node : α}
    : waiting deps member done node = []
      ↔ ∀ dep ∈ deps node, member dep = true → dep ∈ done := by
  simp [waiting, List.filter_eq_nil_iff]

/-- What is listed is ordered, by induction over the steps. -/
theorem ordered_kahn (dependencies : Dependencies deps dependents member)
    (arranges : ∀ nodes, (arrange nodes).Perm nodes)
    (stands : Stands deps member done degrees ready)
    : Ordered deps member done (kahn arrange member dependents fuel degrees ready) := by
  induction fuel generalizing degrees ready done with
  | zero => trivial
  | succ fuel ih =>
      cases ready with
      | nil => trivial
      | cons current ready =>
          obtain ⟨counts, fresh, free⟩ := (stands.ready_iff current).mp List.mem_cons_self
          exact ⟨counts, fresh, waiting_eq_nil.mp free, ih (stands.step dependencies arranges)⟩

/-- Without cycles every member is listed: of those that are not, one of the least rank would be
ready.
-/
theorem mem_kahn (dependencies : Dependencies deps dependents member)
    (arranges : ∀ nodes, (arrange nodes).Perm nodes) (ranked : Ranked deps member)
    {nodes : List α} (listed : ∀ node, member node = true → node ∈ nodes)
    (stands : Stands deps member done degrees ready) (distinct : done.Nodup)
    (counted : ∀ node ∈ done, member node = true) (enough : nodes.length ≤ fuel + done.length)
    {node : α} (counts : member node = true)
    : node ∈ done ∨ node ∈ kahn arrange member dependents fuel degrees ready := by
  induction fuel generalizing degrees ready done with
  | zero =>
      have within : done ⊆ nodes := fun other before => listed other (counted other before)
      have all := (List.subperm_of_subset distinct within).perm_of_length_le (by omega)
      exact .inl (all.mem_iff.mpr (listed node counts))
  | succ fuel ih =>
      cases ready with
      | nil =>
          obtain ⟨rank, descends⟩ := ranked
          left
          clear ih
          induction least : rank node using Nat.strong_induction_on generalizing node with
          | _ bound below =>
              by_contra open_
              have free : waiting deps member done node = [] := by
                refine waiting_eq_nil.mpr fun dep depends within => ?_
                exact below (rank dep) (least ▸ descends node counts dep depends within) within rfl
              exact absurd ((stands.ready_iff node).mpr ⟨counts, open_, free⟩) List.not_mem_nil
      | cons current ready =>
          obtain ⟨present, fresh, -⟩ := (stands.ready_iff current).mp List.mem_cons_self
          have later := ih (stands.step dependencies arranges)
            (List.nodup_cons.mpr ⟨fresh, distinct⟩)
            (by simpa [present] using counted)
            (by simp only [List.length_cons]; omega)
          rcases later with listedNow | after
          · rcases List.mem_cons.mp listedNow with rfl | before
            · exact .inr List.mem_cons_self
            · exact .inl before
          · exact .inr (List.mem_cons_of_mem _ after)

end Kahn

theorem kahn_member_congr {arrange : List α → List α} {member other : α → Bool}
    {dependents : α → List α}
    (same : ∀ node, ∀ dependent ∈ dependents node, member dependent = other dependent)
    {fuel : Nat} {degrees : α → Int} {ready : List α}
    : kahn arrange member dependents fuel degrees ready
      = kahn arrange other dependents fuel degrees ready := by
  have released (nodes : List α) (alike : ∀ node ∈ nodes, member node = other node)
      (degrees : α → Int) (ready : List α)
      : release arrange member nodes degrees ready
        = release arrange other nodes degrees ready := by
    induction nodes generalizing degrees ready with
    | nil => rfl
    | cons first rest ih =>
        have later := ih fun node within => alike node (List.mem_cons_of_mem _ within)
        simp only [release, alike first List.mem_cons_self, later]
  induction fuel generalizing degrees ready with
  | zero => rfl
  | succ fuel ih =>
      cases ready with
      | nil => rfl
      | cons current ready =>
          simp only [kahn]
          rw [released _ (same current), ih]

omit [DecidableEq α] in
theorem Ranked.mono {deps : α → List α} {member other : α → Bool} (ranked : Ranked deps other)
    (fewer : ∀ node, member node = true → other node = true)
    : Ranked deps member := by
  obtain ⟨rank, descends⟩ := ranked
  exact ⟨rank, fun node counts dep depends within =>
    descends node (fewer node counts) dep depends (fewer dep within)⟩

section Order

variable {deps : α → List α} {member : α → Bool} {done nodes : List α}

omit [DecidableEq α] in
theorem Ordered.fresh (ordered : Ordered deps member done nodes)
    : ∀ node ∈ nodes, member node = true ∧ node ∉ done := by
  induction nodes generalizing done with
  | nil => simp
  | cons first rest ih =>
      obtain ⟨counts, new, -, later⟩ := ordered
      intro node within
      rcases List.mem_cons.mp within with rfl | after
      · exact ⟨counts, new⟩
      · obtain ⟨other, apart⟩ := ih later node after
        exact ⟨other, fun before => apart (List.mem_cons_of_mem _ before)⟩

omit [DecidableEq α] in
theorem Ordered.nodup (ordered : Ordered deps member done nodes) : nodes.Nodup := by
  induction nodes generalizing done with
  | nil => exact List.nodup_nil
  | cons first rest ih =>
      obtain ⟨-, -, -, later⟩ := ordered
      refine List.nodup_cons.mpr ⟨fun again => ?_, ih later⟩
      exact (later.fresh first again).2 List.mem_cons_self

/-- The place in an order that lists every member is a rank. -/
theorem Ordered.idxOf_lt (ordered : Ordered deps member done nodes) {node dep : α}
    (within : node ∈ nodes) (depends : dep ∈ deps node) (counts : member dep = true)
    (open_ : dep ∉ done)
    : nodes.idxOf dep < nodes.idxOf node := by
  induction nodes generalizing done with
  | nil => contradiction
  | cons first rest ih =>
      obtain ⟨-, -, before, later⟩ := ordered
      have other : first ≠ node := by
        rintro rfl
        exact open_ (before dep depends counts)
      have after : node ∈ rest := (List.mem_cons.mp within).resolve_left (Ne.symm other)
      rw [List.idxOf_cons_ne _ other]
      by_cases same : first = dep
      · rw [same, List.idxOf_cons_self]
        exact Nat.succ_pos _
      · rw [List.idxOf_cons_ne _ same]
        refine Nat.succ_lt_succ (ih later after ?_)
        simp [open_, Ne.symm same]

theorem Ordered.ranked (ordered : Ordered deps member [] nodes)
    (complete : ∀ node, member node = true → node ∈ nodes)
    : Ranked deps member :=
  ⟨nodes.idxOf, fun node counts _ depends within =>
    ordered.idxOf_lt (complete node counts) depends within List.not_mem_nil⟩

end Order

section Arranged

variable {order : α → α → Prop} {arrange : List α → List α} {member : α → Bool}

omit [DecidableEq α] in
theorem eq_of_arranged (separates : ∀ first second, member first = true →
      member second = true → order first second → order second first → first = second)
    {nodes others : List α} (sorted : nodes.Pairwise order) (alike : others.Pairwise order)
    (counts : ∀ node ∈ nodes, member node = true) (same : nodes.Perm others)
    : nodes = others := by
  refine same.eq_of_pairwise ?_ sorted alike
  intro first second here there forth back
  exact separates first second (counts first here) (counts second (same.mem_iff.mpr there))
    forth back

theorem sorted_release (sorts : ∀ nodes, (arrange nodes).Pairwise order)
    {dependents : List α} {degrees : α → Int} {ready : List α} (sorted : ready.Pairwise order)
    : (release arrange member dependents degrees ready).2.Pairwise order := by
  induction dependents generalizing degrees ready with
  | nil => exact sorted
  | cons first rest ih =>
      unfold release
      split
      · refine ih ?_
        split
        · exact sorts _
        · exact sorted
      · exact ih sorted

theorem member_of_mem_release (arranges : ∀ nodes, (arrange nodes).Perm nodes)
    {dependents : List α} {degrees : α → Int} {ready : List α} (distinct : dependents.Nodup)
    (counts : ∀ node ∈ ready, member node = true)
    : ∀ node ∈ (release arrange member dependents degrees ready).2, member node = true := by
  intro node within
  rcases List.mem_append.mp ((release_ready arranges distinct).mem_iff.mp within) with old | new
  · exact counts node old
  · have last := (List.mem_filter.mp new).2
    simp only [Bool.and_eq_true] at last
    exact last.1

/-- Sorted by an order that tells the members apart, the nodes are listed in one way, however
the dependents are listed.
-/
theorem kahn_congr (arranges : ∀ nodes, (arrange nodes).Perm nodes)
    (sorts : ∀ nodes, (arrange nodes).Pairwise order)
    (separates : ∀ first second, member first = true → member second = true →
      order first second → order second first → first = second)
    {dependents others : α → List α} (distinct : ∀ node, (dependents node).Nodup)
    (same : ∀ node, (dependents node).Perm (others node)) {fuel : Nat} {degrees : α → Int}
    {ready : List α} (sorted : ready.Pairwise order)
    (counts : ∀ node ∈ ready, member node = true)
    : kahn arrange member dependents fuel degrees ready
      = kahn arrange member others fuel degrees ready := by
  induction fuel generalizing degrees ready with
  | zero => rfl
  | succ fuel ih =>
      cases ready with
      | nil => rfl
      | cons current ready =>
          have apart : (others current).Nodup := (same current).nodup_iff.mp (distinct current)
          have rest : ready.Pairwise order := (List.pairwise_cons.mp sorted).2
          have within : ∀ node ∈ ready, member node = true :=
            fun node later => counts node (List.mem_cons_of_mem _ later)
          have degreesAlike : (release arrange member (dependents current) degrees ready).1
              = (release arrange member (others current) degrees ready).1 := by
            funext node
            rw [release_degrees (distinct current), release_degrees apart]
            simp only [(same current).mem_iff]
          have readyAlike : (release arrange member (dependents current) degrees ready).2
              = (release arrange member (others current) degrees ready).2 := by
            refine eq_of_arranged separates (sorted_release sorts rest)
              (sorted_release sorts rest)
              (member_of_mem_release arranges (distinct current) within) ?_
            refine (release_ready arranges (distinct current)).trans ?_
            refine .trans ?_ (release_ready arranges apart).symm
            exact ((same current).filter _).append_left _
          simp only [kahn]
          rw [← degreesAlike, ← readyAlike]
          congr 1
          exact ih (sorted_release sorts rest)
            (member_of_mem_release arranges (distinct current) within)

end Arranged

end AiSdlc.Graph
