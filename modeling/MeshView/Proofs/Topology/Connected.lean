/-
# When every node is reached

Pruning leaves a topology in which the local node reaches every node.  Reports do not prune: a report
of a node stores it, linked or not.  So a topology does not stay connected by itself
(`run_node_unreached`), and what a report needs for it is exactly that it names the local node or a
node that is stored (`connected_reportNode_iff`, `connected_reportLink_iff`).  For a history this
gives `run_connected`: removals connect a topology whatever happened before, and reports keep it
connected as long as they are anchored.
-/

import MeshView.Proofs.Topology.Batch
import MeshView.Proofs.Topology.Pruning

namespace MeshView
namespace Topology

/-- The local node reaches every node. -/
def Connected (t : Topology) : Prop := ∀ id, t.contains id = true → t.Reaches id

/-- The identity is stored, or it is that of the local node. -/
def Anchors (t : Topology) (id : NodeId) : Prop := id = t.localId ∨ t.contains id = true

/-- The report names the local node or a node that is stored.  Removals may name anything. -/
def Anchored (t : Topology) : Report → Prop
  | .node id _ => t.Anchors id
  | .link a b _ => t.Anchors a ∨ t.Anchors b
  | .nodeGone _ => True
  | .linkGone _ _ => True

variable {t : Topology}

/-! ## Removals -/

/-- **Pruning connects.**  A path to a node that stays runs through nodes that stay. -/
theorem WellFormed.connected_prune (h : t.WellFormed) : t.prune.topology.Connected := by
  intro id hid
  have hlocal : t.prune.topology.localId = t.localId := h.prune_removal.localId_eq
  obtain ⟨hstored, hpath⟩ := (h.contains_prune id).1 hid
  have hroot : t.Reaches t.localId := ⟨hstored, .refl⟩
  refine ⟨(h.contains_prune _).2 (hlocal.symm ▸ hroot), ?_⟩
  rw [hlocal]
  clear hid
  induction hpath with
  | refl => exact .refl
  | @tail a b hpath hab ih =>
    refine ih.tail ?_
    rw [Linked, h.link?_prune b ⟨hstored, hpath⟩]
    exact hab

theorem WellFormed.connected_removal (h : t.WellFormed) {r : Report} (hr : ¬ r.Grows) :
    (t.apply r).topology.Connected := by
  cases r with
  | nodeGone id => exact (h.detach_removal id).wellFormed.connected_prune
  | linkGone a b => exact (h.unlink a b).connected_prune
  | node id cost => exact absurd trivial hr
  | link a b cost => exact absurd trivial hr

/-! ## Reports -/

/-- What was reached stays reached. -/
theorem Growth.reaches {c : Change} (h : Growth t c) {id : NodeId} (hid : t.Reaches id) :
    c.topology.Reaches id := by
  obtain ⟨hstored, hpath⟩ := hid
  rw [Reaches, h.localId_eq]
  refine ⟨contains_iff_cost?.2 (h.stored _ (contains_iff_cost?.1 hstored)), ?_⟩
  exact Relation.ReflTransGen.mono (fun a b hab => h.linked s(a, b) hab) _ _ hpath

/-- An anchored identity is reached once it is stored. -/
theorem Growth.reaches_of_anchors {c : Change} (h : Growth t c) (hc : t.Connected) {id : NodeId}
    (hid : t.Anchors id) (hstored : c.topology.contains id = true) : c.topology.Reaches id := by
  rcases hid with rfl | hid
  · rw [Reaches, h.localId_eq]
    exact ⟨hstored, .refl⟩
  · exact h.reaches (hc id hid)

theorem contains_reportNode (t : Topology) (id : NodeId) (cost : Option Cost) (x : NodeId) :
    (t.reportNode id cost).topology.contains x = true ↔ id = x ∨ t.contains x = true := by
  rw [contains_iff_cost?, contains_iff_cost?, cost?_reportNode]
  split
  · rename_i hx
    exact iff_of_true (Option.some_ne_none _) (.inl hx)
  · rename_i hx
    exact (or_iff_right hx).symm

theorem contains_reportLink (t : Topology) (a b : NodeId) (cost : Cost) (x : NodeId) :
    (t.reportLink a b cost).topology.contains x = true ↔ (a = x ∨ b = x) ∨ t.contains x = true := by
  rw [contains_iff_cost?, contains_iff_cost?, cost?_reportLink]
  split
  · rename_i hx
    exact iff_of_true (Option.some_ne_none _) (.inl hx)
  · rename_i hx
    exact (or_iff_right hx).symm

section Reports
variable (h : t.WellFormed) (a b : NodeId) (cost : Cost)
include h

/-- A link report joins its ends and no other nodes. -/
theorem WellFormed.linked_reportLink (x y : NodeId) : (t.reportLink a b cost).topology.Linked x y ↔
    t.Linked x y ∨ s(a, b) = s(x, y) ∧ a ≠ b := by
  have hwf := (h.reportLink_growth a b cost).wellFormed
  have hheld := h.held?_reportLink a b cost
  rw [Linked, ne_eq, hwf.link?_eq_none_iff, Linked, ne_eq, h.link?_eq_none_iff, hheld, hheld,
    Sym2.eq_iff]
  grind

/-- Unless an end is anchored, no path from the local node gets to the ends. -/
theorem WellFormed.path_avoids_ends (hloose : ¬ (t.Anchors a ∨ t.Anchors b)) {x : NodeId}
    (hx : Relation.ReflTransGen (t.reportLink a b cost).topology.Linked t.localId x) :
    x ≠ a ∧ x ≠ b := by
  rw [not_or, Anchors, Anchors, not_or, not_or] at hloose
  obtain ⟨⟨ha, ha'⟩, hb, hb'⟩ := hloose
  induction hx with
  | refl => exact ⟨Ne.symm ha, Ne.symm hb⟩
  | tail _ hlast ih =>
    rcases (h.linked_reportLink a b cost _ _).1 hlast with hold | ⟨hnew, -⟩
    · have hx := (h.contains_of_link? hold).2
      exact ⟨fun he => ha' (he ▸ hx), fun he => hb' (he ▸ hx)⟩
    · rcases Sym2.eq_iff.1 hnew with ⟨he, -⟩ | ⟨-, he⟩
      · exact absurd he.symm ih.1
      · exact absurd he.symm ih.2

variable (hc : t.Connected)
include hc

/-- If an end is anchored, both are reached: the other one over the link itself. -/
theorem WellFormed.reaches_ends (hends : t.Anchors a ∨ t.Anchors b) :
    (t.reportLink a b cost).topology.Reaches a ∧ (t.reportLink a b cost).topology.Reaches b := by
  have hgrowth := h.reportLink_growth a b cost
  have hstored := contains_reportLink t a b cost
  have ha := (hstored a).2 (.inl (.inl rfl))
  have hb := (hstored b).2 (.inl (.inr rfl))
  by_cases he : a = b
  · subst he
    have ha := hgrowth.reaches_of_anchors hc (or_self_iff.1 hends) ha
    exact ⟨ha, ha⟩
  · have hab := (h.linked_reportLink a b cost a b).2 (.inr ⟨rfl, he⟩)
    rcases hends with hend | hend
    · have ha := hgrowth.reaches_of_anchors hc hend ha
      exact ⟨ha, ha.step hab⟩
    · have hb := hgrowth.reaches_of_anchors hc hend hb
      exact ⟨hb.step hab.symm, hb⟩

/-- **A node that is reported is reached if and only if it is anchored.** -/
theorem WellFormed.connected_reportNode_iff (id : NodeId) (cost : Option Cost) :
    (t.reportNode id cost).topology.Connected ↔ t.Anchors id := by
  have hgrowth := h.reportNode_growth id cost
  have hstored := contains_reportNode t id cost
  constructor
  · intro hc'
    obtain ⟨-, hpath⟩ := hc' id ((hstored id).2 (.inl rfl))
    rw [hgrowth.localId_eq] at hpath
    cases hpath with
    | refl => exact .inl rfl
    | tail _ hlast =>
      rw [Linked, h.link?_reportNode] at hlast
      exact .inr (h.contains_of_link? hlast).2
  · intro hid x hx
    rcases (hstored x).1 hx with rfl | hx'
    · exact hgrowth.reaches_of_anchors hc hid hx
    · exact hgrowth.reaches (hc x hx')

/-- **The ends of a link that is reported are reached if and only if one of them is anchored.** -/
theorem WellFormed.connected_reportLink_iff :
    (t.reportLink a b cost).topology.Connected ↔ t.Anchors a ∨ t.Anchors b := by
  have hgrowth := h.reportLink_growth a b cost
  have hstored := contains_reportLink t a b cost
  constructor
  · intro hc'
    by_contra hloose
    obtain ⟨-, hx⟩ := hc' a ((hstored a).2 (.inl (.inl rfl)))
    rw [hgrowth.localId_eq] at hx
    exact (h.path_avoids_ends a b cost hloose hx).1 rfl
  · intro hends x hx
    obtain ⟨ha, hb⟩ := h.reaches_ends a b cost hc hends
    rcases (hstored x).1 hx with (rfl | rfl) | hx
    · exact ha
    · exact hb
    · exact hgrowth.reaches (hc x hx)

theorem WellFormed.connected_apply_iff {r : Report} (hr : r.Grows) :
    (t.apply r).topology.Connected ↔ t.Anchored r := by
  obtain ⟨id, cost, rfl⟩ | ⟨a, b, cost, rfl⟩ := hr.node_or_link
  · exact h.connected_reportNode_iff hc id cost
  · exact h.connected_reportLink_iff a b cost hc

end Reports

/-! ## Histories -/

theorem run_append_one (t : Topology) (history : List Report) (r : Report) :
    t.run (history ++ [r]) = ((t.run history).apply r).topology := by
  rw [run, applyAll, each, List.foldl_append]
  rfl

theorem connected_root (localId : NodeId) : (root localId).Connected := by
  intro id hid
  obtain rfl := contains_root_iff.1 hid
  exact ⟨hid, .refl⟩

/-- **Removals connect, and anchored reports keep connected.**  After a removal the local node
reaches every node, whatever happened before.  After a report in a connected topology it does if and
only if the report names the local node or a stored one.  So a topology is connected if every report
since the last removal was anchored when it came. -/
theorem run_connected (localId : NodeId) (history : List Report) :
    (∀ r, ¬ r.Grows → ((root localId).run (history ++ [r])).Connected) ∧
    (∀ r, r.Grows → ((root localId).run history).Connected →
      (((root localId).run (history ++ [r])).Connected ↔
        ((root localId).run history).Anchored r)) ∧
    ((∀ before r after, history = before ++ r :: after → (∀ x ∈ r :: after, x.Grows) →
        ((root localId).run before).Anchored r) → ((root localId).run history).Connected) := by
  have hwf := wellFormed_run localId
  refine ⟨fun r hr => ?_, fun r hr hc => ?_, ?_⟩
  · rw [run_append_one]
    exact (hwf history).connected_removal hr
  · rw [run_append_one]
    exact (hwf history).connected_apply_iff hc hr
  · induction history using List.reverseRecOn with
    | nil => exact fun _ => connected_root localId
    | append_singleton history r ih =>
      intro hanchored
      rw [run_append_one]
      by_cases hr : r.Grows
      · refine ((hwf history).connected_apply_iff (ih fun before x after heq hgrows => ?_) hr).2 ?_
        · refine hanchored before x (after ++ [r]) (by rw [heq]; simp) fun y hy => ?_
          rw [← List.cons_append, List.mem_append, List.mem_singleton] at hy
          exact hy.elim (hgrows y) fun he => he ▸ hr
        · exact hanchored history r [] rfl fun y hy => List.mem_singleton.1 hy ▸ hr
      · exact (hwf history).connected_removal hr

/-- A node that is reported before anything links it is stored and not reached. -/
theorem run_node_unreached :
    let t := (root ⟨0⟩).run [.node ⟨1⟩ none]
    t.contains ⟨1⟩ = true ∧ ¬ t.Reaches ⟨1⟩ := by
  intro t
  have h : t.WellFormed := wellFormed_run ⟨0⟩ [.node ⟨1⟩ none]
  refine ⟨by decide, fun hreach => ?_⟩
  exact absurd (h.mem_reachable_iff.2 hreach) (by decide)

end Topology
end MeshView
