/-
# Nodes that count as fetched

A node counts as fetched once it has reported a link of its own, and only then
(`isFetched_applyAll`).  Nothing takes the mark away from a node that stays stored: not another
report, and not a removal, after which what stays keeps its mark (`WellFormed.isFetched_stays`).  A
node that holds a link has reported it, so it is marked.
-/

import MeshView.Proofs.Topology.Batch
import MeshView.Proofs.Topology.Pruning

namespace MeshView

/-- The report makes the node count as fetched. -/
def Report.Fetches (r : Report) (id : NodeId) : Prop :=
  match r with
  | .link a _ _ => a = id
  | _ => False

namespace Topology
variable {t : Topology}

theorem isFetched_apply (t : Topology) {r : Report} (hr : r.Grows) (id : NodeId) :
    (t.apply r).topology.isFetched id = true ↔ t.isFetched id = true ∨ r.Fetches id := by
  obtain ⟨x, cost, rfl⟩ | ⟨a, b, c, rfl⟩ := hr.node_or_link
  · show (t.reportNode x cost).topology.isFetched id = true ↔ _
    rw [isFetched_reportNode]
    exact (or_iff_left fun h => h).symm
  · show (t.reportLink a b c).topology.isFetched id = true ↔ _
    rw [isFetched_reportLink, or_comm]
    rfl

/-- Exactly the nodes that reported a link of their own count as fetched. -/
theorem isFetched_applyAll (t : Topology) {reports : List Report} (hr : ∀ r ∈ reports, r.Grows)
    (id : NodeId) : (t.applyAll reports).topology.isFetched id = true ↔
      t.isFetched id = true ∨ ∃ r ∈ reports, r.Fetches id := by
  induction reports generalizing t with
  | nil => exact (or_iff_left fun ⟨_, h, _⟩ => nomatch h).symm
  | cons r reports ih =>
    have hrest := ih (t.apply r).topology fun r' hr' => hr r' (List.mem_cons_of_mem _ hr')
    rw [applyAll, each_cons]
    show ((t.apply r).topology.applyAll reports).topology.isFetched id = true ↔ _
    rw [hrest, isFetched_apply t (hr r List.mem_cons_self), List.exists_mem_cons_iff, or_assoc]

/-- What takes nothing away leaves every link with its holder. -/
theorem WellFormed.held?_apply_ne_none (h : t.WellFormed) {r : Report} (hr : r.Grows) {a b : NodeId}
    (hab : t.held? a b ≠ none) : (t.apply r).topology.held? a b ≠ none := by
  obtain ⟨x, cost, rfl⟩ | ⟨x, y, c, rfl⟩ := hr.node_or_link
  · show (t.reportNode x cost).topology.held? a b ≠ none
    rwa [held?_reportNode]
  · show (t.reportLink x y c).topology.held? a b ≠ none
    rw [h.held?_reportLink]
    split
    · exact Option.some_ne_none c
    · exact hab

/-- Only a report of its own changes what a node holds. -/
theorem WellFormed.held?_applyAll (h : t.WellFormed) {reports : List Report}
    (hgrows : ∀ r ∈ reports, r.Grows) {a : NodeId} (hno : ∀ r ∈ reports, ¬ r.Fetches a) (b : NodeId) :
    (t.applyAll reports).topology.held? a b = t.held? a b := by
  refine (each_induction (P := fun t' => t'.WellFormed ∧ t'.held? a b = t.held? a b) apply t reports
    (fun t' r hr ht => ⟨(ht.1.apply_sound r).wellFormed, ?_⟩) ⟨h, rfl⟩).2
  obtain ⟨x, cost, rfl⟩ | ⟨x, y, c, rfl⟩ := (hgrows r hr).node_or_link
  · exact (held?_reportNode t' x cost a b).trans ht.2
  · refine (ht.1.held?_reportLink x y c a b).trans ?_
    rw [if_neg fun he => hno _ hr he.1]
    exact ht.2

/-- A neighbour list marks its node if it lists a neighbour, and no other node. -/
theorem exists_fetches_iff {list : NeighborList} {id x : NodeId} :
    (∃ r ∈ list.reports id, r.Fetches x) ↔ list.neighbors ≠ [] ∧ id = x := by
  constructor
  · rintro ⟨r, hr, hf⟩
    rcases NeighborList.mem_reports_iff.1 hr with ⟨k, -, rfl⟩ | ⟨n, hn, rfl⟩
    · exact hf.elim
    · exact ⟨List.ne_nil_of_mem hn, hf⟩
  · rintro ⟨hne, rfl⟩
    obtain ⟨n, hn⟩ := List.exists_mem_of_ne_nil _ hne
    exact ⟨_, NeighborList.mem_reports_iff.2 (.inr ⟨n, hn, rfl⟩), rfl⟩

/-- A removal leaves the mark of what it leaves. -/
theorem Remainder.isFetched {t' : Topology} {gone : NodeId → Prop} {cut : Sym2 NodeId → Prop}
    (h : Remainder t gone cut t') {id : NodeId} (hid : t'.contains id = true)
    (hf : t.isFetched id = true) : t'.isFetched id = true :=
  (h.isFetched_eq id hid).trans hf

/-- **The mark stays while the node does.** -/
theorem WellFormed.isFetched_stays (h : t.WellFormed) {r : Report} {id : NodeId}
    (hid : (t.apply r).topology.contains id = true) (hf : t.isFetched id = true) :
    (t.apply r).topology.isFetched id = true := by
  cases r with
  | node x cost => exact (isFetched_apply t (r := .node x cost) trivial id).2 (.inl hf)
  | link a b c => exact (isFetched_apply t (r := .link a b c) trivial id).2 (.inl hf)
  | nodeGone x => exact (h.dropNode_remainder x).isFetched hid hf
  | linkGone a b => exact (h.dropLink_remainder a b).isFetched hid hf

/-- A node that is new and marked has reported a link. -/
theorem WellFormed.fetches_of_new (h : t.WellFormed) {r : Report} {id : NodeId}
    (hnew : t.contains id = false) (hf : (t.apply r).topology.isFetched id = true) : r.Fetches id := by
  have hold : ¬ t.isFetched id = true := fun hold =>
    Bool.eq_false_iff.1 hnew (contains_of_isFetched hold)
  cases r with
  | node x cost => exact ((isFetched_apply t (r := .node x cost) trivial id).1 hf).resolve_left hold
  | link a b c => exact ((isFetched_apply t (r := .link a b c) trivial id).1 hf).resolve_left hold
  | nodeGone x =>
    have hid := contains_of_isFetched hf
    exact absurd ((h.dropNode_remainder x).isFetched_eq id hid ▸ hf) hold
  | linkGone a b =>
    have hid := contains_of_isFetched hf
    exact absurd ((h.dropLink_remainder a b).isFetched_eq id hid ▸ hf) hold

/-- Every node that holds a link is marked. -/
def HoldersFetched (t : Topology) : Prop := ∀ a b, t.held? a b ≠ none → t.isFetched a = true

theorem holdersFetched_root (localId : NodeId) : (root localId).HoldersFetched :=
  fun a b h => absurd (held?_root localId a b) h

theorem Remainder.holdersFetched {t' : Topology} {gone : NodeId → Prop} {cut : Sym2 NodeId → Prop}
    (h : Remainder t gone cut t') (ht : t.HoldersFetched) : t'.HoldersFetched := by
  intro a b hab
  have ha : t'.contains a = true := contains_of_held? hab
  have hkept : ¬ cut s(a, b) := fun hcut => hab (h.held?_cut a b hcut)
  exact h.isFetched ha (ht a b (h.held?_eq a b ha hkept ▸ hab))

theorem WellFormed.holdersFetched_apply (h : t.WellFormed) (ht : t.HoldersFetched) (r : Report) :
    (t.apply r).topology.HoldersFetched := by
  cases r with
  | node x cost =>
    intro a b hab
    change (t.reportNode x cost).topology.held? a b ≠ none at hab
    rw [held?_reportNode] at hab
    exact (isFetched_apply t (r := .node x cost) trivial a).2 (.inl (ht a b hab))
  | link x y c =>
    intro a b hab
    change (t.reportLink x y c).topology.held? a b ≠ none at hab
    rw [h.held?_reportLink] at hab
    refine (isFetched_apply t (r := .link x y c) trivial a).2 ?_
    split at hab
    · rename_i hxy
      exact .inr hxy.1
    · exact .inl (ht a b hab)
  | nodeGone x => exact (h.dropNode_remainder x).holdersFetched ht
  | linkGone a b => exact (h.dropLink_remainder a b).holdersFetched ht

theorem WellFormed.holdersFetched_applyAll (h : t.WellFormed) (ht : t.HoldersFetched)
    (reports : List Report) : (t.applyAll reports).topology.HoldersFetched :=
  (each_induction (P := fun t' => t'.WellFormed ∧ t'.HoldersFetched) apply t reports
    (fun _ r _ ht => ⟨(ht.1.apply_sound r).wellFormed, ht.1.holdersFetched_apply ht.2 r⟩)
    ⟨h, ht⟩).2

end Topology
end MeshView
