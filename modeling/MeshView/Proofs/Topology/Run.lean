/-
# Reports one after another

Every report is a sound change of a well-formed topology (`WellFormed.apply_sound`).  By induction
over the history, a topology that starts as the local node alone stays well-formed, whatever is
reported and removed: links of a node to itself, nodes that were never stored, the local node
itself.  Two results are read off.  `run_adjacency` says how links are represented in every
topology that can arise, and `apply_run_exact` says that the differences of every further report
are exactly what it changed.
-/

import MeshView.Proofs.Topology.Growth
import MeshView.Proofs.Topology.Removal

namespace MeshView
namespace Topology
variable {t : Topology}

/-- Each kind of report is a removal or a growth, and both are sound. -/
theorem WellFormed.apply_sound (h : t.WellFormed) (r : Report) : Sound t (t.apply r) := by
  cases r with
  | node id cost => exact (h.reportNode_growth id cost).toSound
  | nodeGone id => exact (h.dropNode_removal id).toSound
  | link source target cost => exact (h.reportLink_growth source target cost).toSound
  | linkGone a b => exact (h.dropLink_removal a b).toSound

theorem WellFormed.applyAll (h : t.WellFormed) (reports : List Report) :
    (t.applyAll reports).topology.WellFormed :=
  each_induction apply t reports (fun _ r _ ht => (ht.apply_sound r).wellFormed) h

theorem WellFormed.run (h : t.WellFormed) (reports : List Report) : (t.run reports).WellFormed :=
  h.applyAll reports

theorem WellFormed.localId_applyAll (h : t.WellFormed) (reports : List Report) :
    (t.applyAll reports).topology.localId = t.localId :=
  (each_induction (P := fun t' => t'.WellFormed ∧ t'.localId = t.localId) apply t reports
    (fun _ r _ ht => ⟨(ht.1.apply_sound r).wellFormed, (ht.1.apply_sound r).localId_eq.trans ht.2⟩)
    ⟨h, rfl⟩).2

theorem wellFormed_root (localId : NodeId) : (root localId).WellFormed where
  id_eq {x v} h := by
    rw [vertex?_root] at h
    split at h
    · rename_i hx
      rw [← Option.some.inj h]
      exact hx
    · cases h
  mirrored_eq a b := by rw [held?_root, mirrored?_root]
  held_once a b _ := held?_root localId b a

/-- **The invariant.**  Whatever is reported and removed, the topology is well-formed. -/
theorem wellFormed_run (localId : NodeId) (history : List Report) :
    ((root localId).run history).WellFormed :=
  (wellFormed_root localId).applyAll history

/-- **The representation of links.**  In every topology that arises from the local node alone:
every node is stored under its own identity; no node is its own neighbour; every neighbour is
stored; no neighbour is both strong and weak; a strong entry is mirrored by a weak one with the
same cost and conversely; and so each of two neighbours lists the other, once and with the same
cost. -/
theorem run_adjacency (localId : NodeId) (history : List Report) :
    let t := (root localId).run history
    (∀ id v, t.vertex? id = some v → v.id = id ∧ id ∉ v.adjacency.neighbours ∧
      (∀ n ∈ v.adjacency.neighbours, t.contains n = true) ∧
      (∀ n, ¬ (n ∈ v.adjacency.strong ∧ n ∈ v.adjacency.weak)) ∧
      v.adjacency.neighbours.Nodup) ∧
    (∀ a b c, (∃ v, t.vertex? a = some v ∧ v.adjacency.strong.get? b = some c) ↔
      ∃ w, t.vertex? b = some w ∧ w.adjacency.weak.get? a = some c) ∧
    (∀ a b c, (b, c) ∈ t.links a ↔ (a, c) ∈ t.links b) ∧
    ∀ a, ((t.links a).map Prod.fst).Nodup := by
  intro t
  have h : t.WellFormed := wellFormed_run localId history
  refine ⟨fun id v hv => ⟨h.id_eq hv, ?_, fun n hn => ?_, h.not_both hv, h.neighbours_nodup hv⟩,
    fun a b c => ?_, fun a b c => ?_, fun a => ?_⟩
  · rw [h.mem_neighbours_iff hv, not_not, h.link?_eq_none_iff, h.held?_self]
    exact ⟨rfl, rfl⟩
  · exact (h.contains_of_link? ((h.mem_neighbours_iff hv).1 hn)).2
  · rw [← Option.bind_eq_some_iff, ← Option.bind_eq_some_iff]
    exact iff_of_eq (congrArg (· = some c) (h.mirrored_eq a b).symm)
  · rw [h.mem_links_iff_link?, h.mem_links_iff_link?, Sym2.eq_swap]
  · rw [links]
    cases hv : t.vertex? a with
    | none => exact List.nodup_nil
    | some v => exact h.neighbours_nodup hv

/-- **Every report lists exactly what it changes.** -/
theorem apply_run_exact (localId : NodeId) (history : List Report) (r : Report) :
    let before := (root localId).run history
    let after := (before.apply r).topology
    (before.apply r).diff.Exact before.view after.view ∧
      ((before.apply r).diff.isEmpty = true ↔ before.snapshot = after.snapshot) ∧
      (∀ a b c, before.view.links s(a, b) = some c ↔ (b, c) ∈ before.links a) ∧
      ∀ a b c, after.view.links s(a, b) = some c ↔ (b, c) ∈ after.links a := by
  intro before after
  have h : before.WellFormed := wellFormed_run localId history
  have hs : Sound before (before.apply r) := h.apply_sound r
  exact ⟨hs.exact, hs.isEmpty_iff h, fun _ _ _ => h.mem_links_iff_link?.symm,
    fun _ _ _ => hs.wellFormed.mem_links_iff_link?.symm⟩

end Topology
end MeshView
