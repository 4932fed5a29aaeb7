/-
# Removals in any order

Every removal prunes at once, so two orders of the same removals prune different nodes at different
moments, and a removal may name what an earlier one has taken along.  What counts is that a remainder of
a remainder is a remainder: nodes and links are taken away in two portions, and the local node reaches
in the end what it reaches without both (`Remainder.trans`).  So any number of removals leaves what the
local node reaches without all that they name (`WellFormed.run_remainder`), and a remainder is
determined by what was taken away (`Remainder.unique`).  The differences of removals are exact when they
are joined, so they list what the first topology has and the last one has not, each node and each link
once (`run_removals_perm`).
-/

import MeshView.Proofs.Topology.Connected
import MeshView.Proofs.Topology.Fetched
import MeshView.Proofs.Topology.Removed

namespace MeshView

/-- The report takes the node away. -/
def Report.Takes (r : Report) (id : NodeId) : Prop :=
  match r with
  | .nodeGone x => id = x
  | _ => False

/-- The report takes the link away, by itself or with one of its ends. -/
def Report.Cuts (r : Report) (p : Sym2 NodeId) : Prop :=
  match r with
  | .nodeGone x => x ∈ p
  | .linkGone a b => p = s(a, b)
  | _ => False

namespace Topology
variable {t t' t'' : Topology}

/-! ## Remainders of remainders -/

section Remainder
variable {gone gone' : NodeId → Prop} {cut cut' : Sym2 NodeId → Prop}

/-- Nothing is left that was not there. -/
theorem Remainder.contains_of (h : Remainder t gone cut t') (ht : t.WellFormed) {id : NodeId}
    (hid : t'.contains id = true) : t.contains id = true := by
  obtain ⟨⟨hlocal, -⟩, hpath⟩ := (h.contains_iff id).1 hid
  cases hpath with
  | refl => exact hlocal
  | tail _ hlast => exact (ht.contains_of_link? hlast.1).2

/-- An entry stays as it was, or it goes. -/
theorem Remainder.held?_eq_or (h : Remainder t gone cut t') (a b : NodeId) :
    t'.held? a b = none ∨ t'.held? a b = t.held? a b := by
  by_cases hcut : cut s(a, b)
  · exact .inl (h.held?_cut a b hcut)
  · by_cases ha : t'.contains a = true
    · exact .inr (h.held?_eq a b ha hcut)
    · exact .inl (by_contra fun hheld => ha (contains_of_held? hheld))

/-- Paths in what is left are paths that avoid both portions of cut links. -/
theorem Remainder.path_iff (h : Remainder t gone cut t') (ht : t.WellFormed) (ht' : t'.WellFormed)
    (hlocal : t'.contains t.localId = true) (id : NodeId) :
    Relation.ReflTransGen (fun a b => t'.Linked a b ∧ ¬ cut' s(a, b)) t.localId id ↔
      Relation.ReflTransGen (fun a b => t.Linked a b ∧ ¬ (cut s(a, b) ∨ cut' s(a, b))) t.localId id := by
  constructor
  · refine Relation.ReflTransGen.mono (fun a b hab => ?_) _ _
    have ha := (ht'.contains_of_link? hab.1).1
    obtain ⟨hlinked, hcut⟩ := (h.linked_iff ht ht' ha b).1 hab.1
    exact ⟨hlinked, not_or.2 ⟨hcut, hab.2⟩⟩
  · intro hid
    -- only a node that is left has its links, so the induction carries that along
    refine And.right (a := t'.contains id = true) ?_
    induction hid with
    | refl => exact ⟨hlocal, .refl⟩
    | @tail a b _ hab ih =>
      obtain ⟨ha, hpath⟩ := ih
      obtain ⟨hcut, hcut'⟩ := not_or.1 hab.2
      have hleft := (h.linked_iff ht ht' ha b).2 ⟨hab.1, hcut⟩
      exact ⟨(ht'.contains_of_link? hleft).2, hpath.tail ⟨hleft, hcut'⟩⟩

/-- **What is left of what is left.** -/
theorem Remainder.trans (h : Remainder t gone cut t') (h' : Remainder t' gone' cut' t'')
    (ht : t.WellFormed) (ht' : t'.WellFormed) (ht'' : t''.WellFormed) (hlocal : t'.localId = t.localId) :
    Remainder t (fun id => gone id ∨ gone' id) (fun p => cut p ∨ cut' p) t'' := by
  have hstays : t'.contains t.localId = true ↔ t.contains t.localId = true ∧ ¬ gone t.localId :=
    (h.contains_iff t.localId).trans (and_iff_left .refl)
  have hheld : ∀ a b, cut s(a, b) ∨ cut' s(a, b) → t''.held? a b = none := by
    rintro a b (hcut | hcut')
    · exact (h'.held?_eq_or a b).elim (fun hnone => hnone) fun hsame =>
        hsame.trans (h.held?_cut a b hcut)
    · exact h'.held?_cut a b hcut'
  refine ⟨fun id => ?_, fun id hid => ?_, fun id hid => ?_, hheld, fun a b ha hab => ?_,
    fun a b hab => ?_, fun a b ha hab => ?_⟩
  · rw [h'.contains_iff, hlocal, hstays, not_or, ← and_assoc]
    refine and_congr_right fun hlocal' => ?_
    exact h.path_iff ht ht' (hstays.2 hlocal'.1) id
  · exact (h'.cost?_eq id hid).trans (h.cost?_eq id (h'.contains_of ht' hid))
  · exact (h'.isFetched_eq id hid).trans (h.isFetched_eq id (h'.contains_of ht' hid))
  · obtain ⟨hcut, hcut'⟩ := not_or.1 hab
    exact (h'.held?_eq a b ha hcut').trans (h.held?_eq a b (h'.contains_of ht' ha) hcut)
  · rw [ht''.mirrored_eq]
    exact hheld b a (Sym2.eq_swap (a := a) ▸ hab)
  · obtain ⟨hcut, hcut'⟩ := not_or.1 hab
    exact (h'.mirrored?_eq a b ha hcut').trans (h.mirrored?_eq a b (h'.contains_of ht' ha) hcut)

/-- **What was taken away determines what is left.** -/
theorem Remainder.unique (h : Remainder t gone cut t') (h' : Remainder t gone cut t'')
    (ht' : t'.WellFormed) (ht'' : t''.WellFormed) (hlocal : t''.localId = t'.localId) : t'' = t' := by
  have hcontains : ∀ id, t''.contains id = t'.contains id := fun id =>
    Bool.eq_iff_iff.2 ((h'.contains_iff id).trans (h.contains_iff id).symm)
  refine ht'.eq_of_entries ht'' hlocal (fun id => ?_) (fun id => ?_) fun a b => ?_
  · cases hid : t'.contains id with
    | true => rw [h'.cost?_eq id ((hcontains id).trans hid), h.cost?_eq id hid]
    | false =>
      rw [cost?_of_not_contains hid, cost?_of_not_contains ((hcontains id).trans hid)]
  · cases hid : t'.contains id with
    | true => rw [h'.isFetched_eq id ((hcontains id).trans hid), h.isFetched_eq id hid]
    | false =>
      rw [isFetched_of_not_contains hid, isFetched_of_not_contains ((hcontains id).trans hid)]
  · by_cases hcut : cut s(a, b)
    · rw [h'.held?_cut a b hcut, h.held?_cut a b hcut]
    · cases ha : t'.contains a with
      | true => rw [h'.held?_eq a b ((hcontains a).trans ha) hcut, h.held?_eq a b ha hcut]
      | false =>
        rw [held?_of_not_contains ha, held?_of_not_contains ((hcontains a).trans ha)]

end Remainder

/-! ## Any number of removals -/

/-- What one removal leaves. -/
theorem WellFormed.apply_remainder (h : t.WellFormed) {r : Report} (hr : ¬ r.Grows) :
    Remainder t r.Takes r.Cuts (t.apply r).topology := by
  cases r with
  | nodeGone id => exact h.dropNode_remainder id
  | linkGone a b => exact h.dropLink_remainder a b
  | node id cost => exact absurd trivial hr
  | link a b cost => exact absurd trivial hr

theorem WellFormed.apply_removal (h : t.WellFormed) {r : Report} (hr : ¬ r.Grows) :
    Removal t (t.apply r) := by
  cases r with
  | nodeGone id => exact h.dropNode_removal id
  | linkGone a b => exact h.dropLink_removal a b
  | node id cost => exact absurd trivial hr
  | link a b cost => exact absurd trivial hr

section Removals
variable {removals removals' : List Report} (h : t.WellFormed) (hremoves : ∀ r ∈ removals, ¬ r.Grows)
include h hremoves

theorem WellFormed.applyAll_removal : Removal t (t.applyAll removals) :=
  .each h removals fun _ ht r hr => ht.apply_removal (hremoves r hr)

/-- **Removals leave what the local node reaches without all that they take away.** -/
theorem WellFormed.run_remainder (hne : removals ≠ []) :
    Remainder t (fun id => ∃ r ∈ removals, r.Takes id) (fun p => ∃ r ∈ removals, r.Cuts p)
      (t.run removals) := by
  induction removals using List.reverseRecOn with
  | nil => exact absurd rfl hne
  | append_singleton removals last ih =>
    have hwf := h.run removals
    have hlast : ¬ last.Grows := hremoves last (List.mem_append_right _ List.mem_cons_self)
    have hone := hwf.apply_remainder hlast
    simp only [List.mem_append, List.mem_singleton, or_and_right, exists_or, exists_eq_left]
    rw [run_append_one]
    by_cases hfirst : removals = []
    · subst hfirst
      simp only [List.not_mem_nil, false_and, exists_false, false_or]
      exact hone
    · have hbefore := ih (fun r hr => hremoves r (List.mem_append_left _ hr)) hfirst
      exact hbefore.trans hone h hwf (hwf.apply_sound last).wellFormed (h.localId_applyAll removals)

/-- **Two orders of the same removals leave the same topology.** -/
theorem WellFormed.run_removals_eq (horder : removals'.Perm removals) :
    t.run removals' = t.run removals := by
  by_cases hne : removals = []
  · subst hne
    rw [horder.eq_nil]
  · have hne' : removals' ≠ [] := fun hnil => hne (hnil ▸ horder).symm.eq_nil
    have hleft' := h.run_remainder (fun r hr => hremoves r (horder.mem_iff.1 hr)) hne'
    simp only [horder.mem_iff] at hleft'
    exact (h.run_remainder hremoves hne).unique hleft' (h.run removals) (h.run removals')
      ((h.localId_applyAll removals').trans (h.localId_applyAll removals).symm)

end Removals

/-! ## What is listed -/

section Listed
variable {c : Change}

/-- The nodes that are listed as removed: those that were stored and are not stored any more. -/
theorem Sound.mem_nodesRemoved_iff (h : Sound t c) (id : NodeId) :
    id ∈ c.diff.nodesRemoved ↔ t.contains id = true ∧ c.topology.contains id = false := by
  have hlisted := h.exact.nodes.key_mem_removed id
  rw [Diff.removedNodes, List.map_map, view_nodes, view_nodes, ← contains_iff_cost?,
    ← not_ne_iff (a := c.topology.cost? id), ← contains_iff_cost?, Bool.not_eq_true] at hlisted
  rw [← hlisted]
  simp

theorem Sound.nodesRemoved_nodup (h : Sound t c) : c.diff.nodesRemoved.Nodup := by
  have hnodup := h.exact.nodes.removed_nodup
  rw [Diff.removedNodes, List.map_map] at hnodup
  exact hnodup.of_map

/-- The links that are listed as removed: those that were there and are not there any more. -/
theorem Sound.mem_linksRemoved_iff (h : Sound t c) (p : Sym2 NodeId) :
    p ∈ c.diff.linksRemoved.map LinkChange.ends ↔ t.link? p ≠ none ∧ c.topology.link? p = none := by
  have hlisted := h.exact.links.key_mem_removed p
  rwa [Diff.removedLinks, List.map_map] at hlisted

theorem Sound.linksRemoved_nodup (h : Sound t c) :
    (c.diff.linksRemoved.map LinkChange.ends).Nodup := by
  have hnodup := h.exact.links.removed_nodup
  rwa [Diff.removedLinks, List.map_map] at hnodup

end Listed

/-- **Removals commute.**  Let removals of nodes and links, whatever they name, be executed in two
orders on any topology that can arise.  They leave the same topology: what the local node reaches
without all that they take away.  In both orders the same nodes and the same undirected links are listed
as removed, each of them once: those that were there before and are not there afterwards. -/
theorem run_removals_perm (localId : NodeId) (history : List Report) {removals removals' : List Report}
    (hremoves : ∀ r ∈ removals, ¬ r.Grows) (horder : removals'.Perm removals) :
    let t := (root localId).run history
    let c := t.applyAll removals
    let c' := t.applyAll removals'
    c'.topology = c.topology ∧
    (removals ≠ [] → Remainder t (fun id => ∃ r ∈ removals, r.Takes id)
      (fun p => ∃ r ∈ removals, r.Cuts p) c.topology) ∧
    (c.diff.nodesRemoved.Nodup ∧ c'.diff.nodesRemoved.Perm c.diff.nodesRemoved ∧
      ∀ id, id ∈ c.diff.nodesRemoved ↔ t.contains id = true ∧ c.topology.contains id = false) ∧
    (c.diff.linksRemoved.map LinkChange.ends).Nodup ∧
    (c'.diff.linksRemoved.map LinkChange.ends).Perm (c.diff.linksRemoved.map LinkChange.ends) ∧
    ∀ a b, s(a, b) ∈ c.diff.linksRemoved.map LinkChange.ends ↔
      (∃ k, (b, k) ∈ t.links a) ∧ ¬ ∃ k, (b, k) ∈ c.topology.links a := by
  intro t c c'
  have h : t.WellFormed := wellFormed_run localId history
  have hc : Sound t c := (h.applyAll_removal hremoves).toSound
  have hc' : Sound t c' :=
    (h.applyAll_removal fun r hr => hremoves r (horder.mem_iff.1 hr)).toSound
  have hsame : c'.topology = c.topology := h.run_removals_eq hremoves horder
  refine ⟨hsame, h.run_remainder hremoves, ⟨hc.nodesRemoved_nodup, ?_, hc.mem_nodesRemoved_iff⟩,
    hc.linksRemoved_nodup, ?_, fun a b => ?_⟩
  · refine (List.perm_ext_iff_of_nodup hc'.nodesRemoved_nodup hc.nodesRemoved_nodup).2 fun id => ?_
    rw [hc'.mem_nodesRemoved_iff, hc.mem_nodesRemoved_iff, hsame]
  · refine (List.perm_ext_iff_of_nodup hc'.linksRemoved_nodup hc.linksRemoved_nodup).2 fun p => ?_
    rw [hc'.mem_linksRemoved_iff, hc.mem_linksRemoved_iff, hsame]
  · simp only [hc.mem_linksRemoved_iff, h.mem_links_iff_link?, hc.wellFormed.mem_links_iff_link?,
      ← Option.ne_none_iff_exists', not_ne_iff]

/-- A ring with a tail.  Either the first removal prunes the tail or a later one does, and one removal
names a node that another one prunes. -/
theorem run_removals_perm_ring :
    let t := (root ⟨0⟩).run [.link ⟨0⟩ ⟨1⟩ ⟨1⟩, .link ⟨1⟩ ⟨2⟩ ⟨1⟩, .link ⟨2⟩ ⟨0⟩ ⟨1⟩,
      .link ⟨2⟩ ⟨3⟩ ⟨1⟩, .link ⟨3⟩ ⟨4⟩ ⟨1⟩]
    let removals : List Report := [.nodeGone ⟨3⟩, .linkGone ⟨0⟩ ⟨2⟩, .linkGone ⟨4⟩ ⟨3⟩, .nodeGone ⟨7⟩]
    let c := t.applyAll removals
    let c' := t.applyAll removals.reverse
    (∀ r ∈ removals, ¬ r.Grows) ∧ removals.reverse.Perm removals ∧ c'.topology = c.topology ∧
      c'.diff.nodesRemoved.Perm c.diff.nodesRemoved ∧ c.diff.nodesRemoved = [⟨3⟩, ⟨4⟩] ∧
      c'.diff.nodesRemoved = [⟨4⟩, ⟨3⟩] := by
  intro t removals c c'
  have hremoves : ∀ r ∈ removals, ¬ r.Grows := by simp [removals, Report.Grows]
  have horder : removals.reverse.Perm removals := List.reverse_perm removals
  obtain ⟨hsame, -, ⟨-, hnodes, -⟩, -⟩ := run_removals_perm ⟨0⟩ [.link ⟨0⟩ ⟨1⟩ ⟨1⟩,
    .link ⟨1⟩ ⟨2⟩ ⟨1⟩, .link ⟨2⟩ ⟨0⟩ ⟨1⟩, .link ⟨2⟩ ⟨3⟩ ⟨1⟩, .link ⟨3⟩ ⟨4⟩ ⟨1⟩] hremoves horder
  exact ⟨hremoves, horder, hsame, hnodes, by decide, by decide⟩

end Topology
end MeshView
