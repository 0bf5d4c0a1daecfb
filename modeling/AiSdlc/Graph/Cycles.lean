import Mathlib.Data.List.Dedup
import Mathlib.Data.Finset.Card
import Mathlib.Logic.Relation
import AiSdlc.Graph.Kahn

/-! Cycles: a relation has one where a node leads back to itself. Among finitely many nodes there
is none exactly when the nodes can be ranked so that every edge descends.
-/

namespace AiSdlc.Graph

variable {α : Type*}

/-- Some node leads back to itself. -/
def Cyclic (leads : α → α → Prop) : Prop :=
  ∃ node, Relation.TransGen leads node node

/-- The edges from a member to a member. -/
def Depends (deps : α → List α) (member : α → Bool) (node dep : α) : Prop :=
  member node = true ∧ dep ∈ deps node ∧ member dep = true

theorem Cyclic.congr {leads others : α → α → Prop}
    (same : ∀ node other, leads node other ↔ others node other)
    : Cyclic leads ↔ Cyclic others := by
  have equal : leads = others := by
    funext node other
    exact propext (same node other)
  rw [equal]

/-- Where edges descend, so do paths, by induction over the path. -/
theorem rank_lt_of_transGen {leads : α → α → Prop} {rank : α → Nat}
    (descends : ∀ node other, leads node other → rank other < rank node) {node other : α}
    (path : Relation.TransGen leads node other)
    : rank other < rank node := by
  induction path with
  | single edge => exact descends _ _ edge
  | tail _ edge ih => exact (descends _ _ edge).trans ih

/-- A rank leaves no cycle. -/
theorem not_cyclic_of_rank {leads : α → α → Prop} {rank : α → Nat}
    (descends : ∀ node other, leads node other → rank other < rank node)
    : ¬ Cyclic leads := by
  intro cyclic
  obtain ⟨node, path⟩ := cyclic
  exact Nat.lt_irrefl _ (rank_lt_of_transGen descends path)

open Classical in
/-- The number of listed nodes that a node leads to. -/
noncomputable def reach (leads : α → α → Prop) (nodes : List α) (node : α) : Nat :=
  {other ∈ nodes.toFinset | Relation.TransGen leads node other}.card

/-- Without cycles, an edge leads to a node that leads to fewer ones: the node at its end is no
longer among them.
-/
theorem reach_lt {leads : α → α → Prop} {nodes : List α} (acyclic : ¬ Cyclic leads)
    {node other : α} (edge : leads node other) (listed : other ∈ nodes)
    : reach leads nodes other < reach leads nodes node := by
  classical
  refine Finset.card_lt_card ⟨?_, ?_⟩
  · intro far member
    obtain ⟨within, path⟩ := Finset.mem_filter.mp member
    exact Finset.mem_filter.mpr ⟨within, .head edge path⟩
  · intro all
    have direct := all (Finset.mem_filter.mpr ⟨List.mem_toFinset.mpr listed, .single edge⟩)
    exact acyclic ⟨other, (Finset.mem_filter.mp direct).2⟩

/-- The dependencies among finitely many members descend exactly when they have no cycle. -/
theorem ranked_iff_not_cyclic {deps : α → List α} {member : α → Bool} {nodes : List α}
    (listed : ∀ node, member node = true → node ∈ nodes)
    : Ranked deps member ↔ ¬ Cyclic (Depends deps member) := by
  constructor
  · intro ranked
    obtain ⟨rank, descends⟩ := ranked
    refine @not_cyclic_of_rank _ _ rank fun node other edge => ?_
    obtain ⟨counts, depends, within⟩ := edge
    exact descends node counts other depends within
  · intro acyclic
    refine ⟨reach (Depends deps member) nodes, ?_⟩
    intro node counts dep depends within
    exact reach_lt acyclic ⟨counts, depends, within⟩ (listed dep within)

end AiSdlc.Graph
