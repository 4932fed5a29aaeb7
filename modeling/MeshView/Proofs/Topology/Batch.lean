/-
# Reports that are absorbed together

The reports of a neighbour list are applied one after another, and their differences are published
as one.  Joining them keeps the order within each of the six lists and loses the order between the
lists.  A neighbour list reports nodes and links only, and takes nothing away.  So a key that is
added late was absent from the start, cannot be a key that was changed before, and the joined
differences still lead from the view before to the view after (`Accrual`).
-/

import MeshView.Neighbors
import MeshView.Proofs.Topology.Run

namespace MeshView

/-- The report takes nothing away. -/
def Report.Grows : Report → Prop
  | .node _ _ => True
  | .link _ _ _ => True
  | .nodeGone _ => False
  | .linkGone _ _ => False

theorem Report.Grows.node_or_link {r : Report} (hr : r.Grows) :
    (∃ id cost, r = .node id cost) ∨ ∃ a b c, r = .link a b c := by
  cases r with
  | node id cost => exact .inl ⟨id, cost, rfl⟩
  | link a b c => exact .inr ⟨a, b, c, rfl⟩
  | nodeGone id => exact hr.elim
  | linkGone a b => exact hr.elim

/-- A list stands for the cost that it tells, if any, and for a link to each neighbour. -/
theorem NeighborList.mem_reports_iff {list : NeighborList} {id : NodeId} {r : Report} :
    r ∈ list.reports id ↔ (∃ k, list.cost = some k ∧ r = .node id (some k)) ∨
      ∃ n ∈ list.neighbors, r = .link id n.1 n.2 := by
  rw [reports, List.mem_append, List.mem_map]
  refine or_congr ?_ (exists_congr fun n => and_congr_right fun _ => eq_comm)
  cases list.cost with
  | none => exact ⟨nofun, nofun⟩
  | some c =>
    rw [List.mem_singleton]
    exact ⟨fun hr => ⟨c, rfl, hr⟩, fun ⟨k, hk, hr⟩ => Option.some.inj hk ▸ hr⟩

theorem NeighborList.grows_of_mem_reports {list : NeighborList} {id : NodeId} {r : Report}
    (hr : r ∈ list.reports id) : r.Grows := by
  rcases mem_reports_iff.1 hr with ⟨k, -, rfl⟩ | ⟨n, -, rfl⟩ <;> trivial

namespace Topology
variable {t : Topology}

theorem WellFormed.apply_growth (h : t.WellFormed) {r : Report} (hr : r.Grows) :
    Growth t (t.apply r) := by
  obtain ⟨id, cost, rfl⟩ | ⟨source, target, cost, rfl⟩ := hr.node_or_link
  · exact h.reportNode_growth id cost
  · exact h.reportLink_growth source target cost

theorem Growth.removedNodes_eq_nil {c : Change} (h : Growth t c) : c.diff.removedNodes = [] := by
  refine List.eq_nil_iff_forall_not_mem.2 fun e he => ?_
  obtain ⟨hbefore, hafter, -⟩ := (h.exact.nodes.mem_removed e.1 e.2).1 he
  exact h.stored e.1 hbefore hafter

theorem Growth.removedLinks_eq_nil {c : Change} (h : Growth t c) : c.diff.removedLinks = [] := by
  refine List.eq_nil_iff_forall_not_mem.2 fun e he => ?_
  obtain ⟨hbefore, hafter, -⟩ := (h.exact.links.mem_removed e.1 e.2).1 he
  exact h.linked e.1 hbefore hafter

/-- Several growths in one: replaying their joined differences leads from the view before to the
view after, and what they add was not there before. -/
structure Accrual (t : Topology) (c : Change) : Prop where
  wellFormed : c.topology.WellFormed
  replay_eq : t.view.replay c.diff = c.topology.view
  new_nodes : ∀ id ∈ c.diff.addedNodes.map Prod.fst, t.cost? id = none
  new_links : ∀ p ∈ c.diff.addedLinks.map Prod.fst, t.link? p = none

theorem Accrual.unchanged (h : t.WellFormed) : Accrual t t.unchanged where
  wellFormed := h
  replay_eq := rfl
  new_nodes _ hid := nomatch hid
  new_links _ hp := nomatch hp

/-- A growth before an accrual is an accrual. -/
theorem Growth.andThen_accrual {c : Change} {next : Topology → Change} (h : Growth t c)
    (h' : Accrual c.topology (next c.topology)) : Accrual t (c.andThen next) where
  wellFormed := h'.wellFormed
  replay_eq := by
    show t.view.replay (c.diff ++ (next c.topology).diff) = (next c.topology).topology.view
    rw [View.replay_append t.view h.removedNodes_eq_nil h.removedLinks_eq_nil, h.exact.replay_eq,
      h'.replay_eq]
    · intro id hid hchanged
      exact ((h.exact.nodes.key_mem_changed id).1 hchanged).2.1 (h'.new_nodes id hid)
    · intro p hp hchanged
      exact ((h.exact.links.key_mem_changed p).1 hchanged).2.1 (h'.new_links p hp)
  new_nodes id hid := by
    change id ∈ (c.diff ++ (next c.topology).diff).addedNodes.map Prod.fst at hid
    rw [Diff.addedNodes_append, List.map_append, List.mem_append] at hid
    rcases hid with hid | hid
    · exact ((h.exact.nodes.key_mem_added id).1 hid).1
    · by_contra hne
      exact h.stored id hne (h'.new_nodes id hid)
  new_links p hp := by
    change p ∈ (c.diff ++ (next c.topology).diff).addedLinks.map Prod.fst at hp
    rw [Diff.addedLinks_append, List.map_append, List.mem_append] at hp
    rcases hp with hp | hp
    · exact ((h.exact.links.key_mem_added p).1 hp).1
    · by_contra hne
      exact h.linked p hne (h'.new_links p hp)

/-- **Reports that take nothing away can be published together.** -/
theorem WellFormed.applyAll_accrual (h : t.WellFormed) {reports : List Report}
    (hgrows : ∀ r ∈ reports, r.Grows) : Accrual t (t.applyAll reports) := by
  induction reports generalizing t with
  | nil => exact .unchanged h
  | cons r reports ih =>
    have hr := h.apply_growth (hgrows r List.mem_cons_self)
    rw [Topology.applyAll, each_cons]
    exact hr.andThen_accrual (ih hr.wellFormed fun r' hr' => hgrows r' (List.mem_cons_of_mem _ hr'))

/-- What takes nothing away leaves every node stored. -/
theorem WellFormed.contains_applyAll (h : t.WellFormed) {reports : List Report}
    (hgrows : ∀ r ∈ reports, r.Grows) {id : NodeId} (hid : t.contains id = true) :
    (t.applyAll reports).topology.contains id = true :=
  (each_induction (P := fun t' => t'.WellFormed ∧ t'.contains id = true) apply t reports
    (fun _ r hr ht => ⟨(ht.1.apply_growth (hgrows r hr)).wellFormed,
      contains_iff_cost?.2 ((ht.1.apply_growth (hgrows r hr)).stored id
        (contains_iff_cost?.1 ht.2))⟩) ⟨h, hid⟩).2

/-- Only a report of its cost changes what is known of the cost of a node that stays. -/
theorem join_cost?_applyAll (t : Topology) {reports : List Report} (hgrows : ∀ r ∈ reports, r.Grows)
    {id : NodeId} (hno : ∀ k, Report.node id (some k) ∉ reports) :
    ((t.applyAll reports).topology.cost? id).join = (t.cost? id).join := by
  refine each_induction (P := fun t' => (t'.cost? id).join = (t.cost? id).join) apply t reports
    (fun t' r hr ht => ht ▸ ?_) rfl
  obtain ⟨x, cost, rfl⟩ | ⟨a, b, c, rfl⟩ := (hgrows r hr).node_or_link
  · show ((t'.reportNode x cost).topology.cost? id).join = _
    rw [cost?_reportNode]
    split
    · rename_i hx
      cases cost with
      | none => rw [Option.none_or, Option.join_some]
      | some k => exact absurd (hx ▸ hr) (hno k)
    · rfl
  · show ((t'.reportLink a b c).topology.cost? id).join = _
    rw [cost?_reportLink]
    split <;> rfl

/-- A report on its own can be published, whatever its kind. -/
theorem WellFormed.replay_apply (h : t.WellFormed) (r : Report) :
    t.view.replay (t.applyAll [r]).diff = (t.applyAll [r]).topology.view :=
  (h.apply_sound r).exact.replay_eq

end Topology
end MeshView
