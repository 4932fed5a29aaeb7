/-
# What removals list, and what they do not depend on

The removed nodes are listed in the order in which they go: the node that was named, then those that
pruning detaches, in ascending order (`nodesRemoved_dropNode`).  A topology is determined by its
entries (`eq_of_entries`), so it makes no difference from which end a link is removed
(`dropLink_comm`).  `removals_run` puts together what is true of both removals in every topology that
can arise.
-/

import MeshView.Proofs.Topology.Pruning
import MeshView.Proofs.Topology.Run

namespace MeshView

/-- An adjacency is determined by the entries of both kinds. -/
theorem Adjacency.ext_get? {a b : Adjacency} (hs : ∀ n, a.strong.get? n = b.strong.get? n)
    (hw : ∀ n, a.weak.get? n = b.weak.get? n) : a = b := by
  obtain ⟨_, _⟩ := a
  obtain ⟨_, _⟩ := b
  exact congr (congrArg _ (IdMap.ext_get? hs)) (IdMap.ext_get? hw)

namespace Topology
variable {t t' : Topology}

/-! ## The order of the removed nodes -/

section Listed
variable (t)

theorem nodesRemoved_unlink (a b : NodeId) : (t.unlink a b).diff.nodesRemoved = [] := by
  unfold unlink
  dsimp only
  split <;> rfl

theorem nodesRemoved_each_unlink (id : NodeId) (ids : List NodeId) :
    (t.each (·.unlink id) ids).diff.nodesRemoved = [] := by
  induction ids generalizing t with
  | nil => rfl
  | cons n ids ih =>
    rw [each_cons]
    show (t.unlink id n).diff.nodesRemoved ++
      ((t.unlink id n).topology.each _ ids).diff.nodesRemoved = _
    rw [nodesRemoved_unlink, ih, List.nil_append]

theorem nodesRemoved_detach (id : NodeId) :
    (t.detach id).diff.nodesRemoved = if t.contains id then [id] else [] := by
  rw [detach]
  cases hv : t.vertex? id with
  | none =>
    rw [contains_eq_false_iff.2 hv]
    rfl
  | some v =>
    rw [contains_iff_vertex?.2 ⟨v, hv⟩]
    show (t.each _ _).diff.nodesRemoved ++ [id] = [id]
    rw [nodesRemoved_each_unlink, List.nil_append]

variable {t}

/-- Detaching a node leaves the others stored, so each of them is listed when its turn comes. -/
theorem nodesRemoved_each_detach {ids : List NodeId} (hnodup : ids.Nodup)
    (hstored : ∀ id ∈ ids, t.contains id = true) : (t.each detach ids).diff.nodesRemoved = ids := by
  induction ids generalizing t with
  | nil => rfl
  | cons id ids ih =>
    obtain ⟨hid, hnodup⟩ := List.nodup_cons.1 hnodup
    have hrest : ∀ x ∈ ids, (t.detach id).topology.contains x = true := by
      intro x hx
      have hne : id ≠ x := fun he => hid (he ▸ hx)
      rw [contains_iff_cost?, cost?_detach, if_neg hne, ← contains_iff_cost?]
      exact hstored x (List.mem_cons_of_mem _ hx)
    rw [each_cons]
    show (t.detach id).diff.nodesRemoved ++
      ((t.detach id).topology.each detach ids).diff.nodesRemoved = _
    rw [nodesRemoved_detach, hstored id List.mem_cons_self, ih hnodup hrest]
    rfl

theorem unreached_sorted (t : Topology) : t.unreached.Pairwise (· < ·) := t.nodes.keys_sorted.filter _

theorem nodesRemoved_prune (t : Topology) : t.prune.diff.nodesRemoved = t.unreached := by
  refine nodesRemoved_each_detach ?_ fun id hid => (mem_unreached_iff.1 hid).1
  exact t.unreached_sorted.imp fun h => NodeId.ne_of_lt h

theorem nodesRemoved_dropLink (t : Topology) (a b : NodeId) :
    (t.dropLink a b).diff.nodesRemoved = (t.unlink a b).topology.unreached := by
  show (t.unlink a b).diff.nodesRemoved ++ (t.unlink a b).topology.prune.diff.nodesRemoved = _
  rw [nodesRemoved_unlink, nodesRemoved_prune, List.nil_append]

/-- **The named node comes first, then those that pruning removes.** -/
theorem nodesRemoved_dropNode (t : Topology) (id : NodeId) : (t.dropNode id).diff.nodesRemoved =
    (if t.contains id then [id] else []) ++ (t.detach id).topology.unreached := by
  show (t.detach id).diff.nodesRemoved ++ (t.detach id).topology.prune.diff.nodesRemoved = _
  rw [nodesRemoved_detach, nodesRemoved_prune]

/-- Pruning removes what it does not leave. -/
theorem WellFormed.mem_unreached_iff_prune (h : t.WellFormed) (id : NodeId) :
    id ∈ t.unreached ↔ t.contains id = true ∧ t.prune.topology.contains id = false := by
  rw [mem_unreached_iff, h.mem_reachable_iff, ← h.contains_prune, Bool.not_eq_true]

end Listed

/-! ## Equal topologies -/

/-- The costs, the strong entries and what counts as fetched determine a topology. -/
theorem WellFormed.eq_of_entries (h : t.WellFormed) (h' : t'.WellFormed)
    (hlocal : t'.localId = t.localId) (hcost : ∀ x, t'.cost? x = t.cost? x)
    (hfetched : ∀ x, t'.isFetched x = t.isFetched x)
    (hheld : ∀ x y, t'.held? x y = t.held? x y) : t' = t := by
  have hmirrored : ∀ x y, t'.mirrored? x y = t.mirrored? x y := fun x y => by
    rw [h.mirrored_eq, h'.mirrored_eq, hheld]
  have hvertex : ∀ x, t'.vertex? x = t.vertex? x := by
    intro x
    have hc := hcost x
    have hf := hfetched x
    have hs := hheld x
    have hw := hmirrored x
    simp only [cost?, isFetched, held?, mirrored?] at hc hf hs hw
    cases hv : t.vertex? x with
    | none =>
      rw [hv, Option.map_none, Option.map_eq_none_iff] at hc
      exact hc
    | some v =>
      obtain ⟨v', hv', hcv⟩ := Option.map_eq_some_iff.1 (hc.trans (congrArg _ hv))
      rw [hv, hv'] at hf hs hw
      have hid : v'.id = v.id := (h'.id_eq hv').trans (h.id_eq hv).symm
      have hadj : v'.adjacency = v.adjacency := Adjacency.ext_get? hs hw
      have hfetch : v'.fetched = v.fetched := hf
      rw [hv']
      obtain ⟨_, _, _, _⟩ := v
      obtain ⟨_, _, _, _⟩ := v'
      cases hid
      cases hcv
      cases hadj
      cases hfetch
      rfl
  have hnodes : t'.nodes = t.nodes := IdMap.ext_get? hvertex
  obtain ⟨_, _⟩ := t
  obtain ⟨_, _⟩ := t'
  cases hlocal
  cases hnodes
  rfl

/-- **A link can be removed from either end.** -/
theorem WellFormed.dropLink_comm (h : t.WellFormed) (a b : NodeId) :
    (t.dropLink b a).topology = (t.dropLink a b).topology := by
  have hunlink : (t.unlink b a).topology = (t.unlink a b).topology := by
    refine (h.unlink a b).eq_of_entries (h.unlink b a) ?_ (fun x => ?_) (fun x => ?_) fun x y => ?_
    · rw [localId_unlink, localId_unlink]
    · rw [cost?_unlink, cost?_unlink]
    · rw [isFetched_unlink, isFetched_unlink]
    · rw [held?_unlink, held?_unlink, Sym2.eq_swap]
  exact congrArg (fun t => (prune t).topology) hunlink

theorem isEmpty_of_not_contains (h : ∀ id, ¬ t.contains id = true) : t.isEmpty = true := by
  refine List.isEmpty_iff.2 (List.eq_nil_iff_forall_not_mem.2 fun e he => h e.1 ?_)
  exact IdMap.mem_keys.1 (List.mem_map.2 ⟨e, he, rfl⟩)

/-- Without the local node nothing is left. -/
theorem Remainder.isEmpty {gone : NodeId → Prop} {cut : Sym2 NodeId → Prop}
    (h : Remainder t gone cut t') (hlocal : t.contains t.localId = false ∨ gone t.localId) :
    t'.isEmpty = true := by
  refine isEmpty_of_not_contains fun id hid => ?_
  obtain ⟨hstored, hstays⟩ := ((h.contains_iff id).1 hid).1
  rcases hlocal with hnone | hgone
  · exact Bool.false_ne_true (hnone.symm.trans hstored)
  · exact hstays hgone

/-- **Removals leave exactly what the local node reaches.**  Let a link or a node be removed from
any topology that arises from the local node alone.  What is left are the nodes that the local node
reaches without that link, respectively without that node and its links, and each of them keeps its
cost, whether it counts as fetched, and all its entries for other links; if the local node is not
stored, or is the node that is removed, nothing is left.  The removed nodes are listed with the
named one first, if it was stored, and the others in ascending order.  A link can be removed from
either end.  The search for what is reached ends, in these and in all other graphs. -/
theorem removals_run (localId : NodeId) (history : List Report) :
    let t := (root localId).run history
    (∀ a b,
      Remainder t (fun _ => False) (· = s(a, b)) (t.dropLink a b).topology ∧
      (t.contains localId = false → (t.dropLink a b).topology.isEmpty = true) ∧
      (t.dropLink a b).diff.nodesRemoved.Pairwise (· < ·) ∧
      (∀ id, id ∈ (t.dropLink a b).diff.nodesRemoved ↔
        t.contains id = true ∧ (t.dropLink a b).topology.contains id = false) ∧
      (t.dropLink b a).topology = (t.dropLink a b).topology) ∧
    (∀ x,
      Remainder t (· = x) (x ∈ ·) (t.dropNode x).topology ∧
      (t.contains localId = false ∨ localId = x → (t.dropNode x).topology.isEmpty = true) ∧
      ∃ pruned, (t.dropNode x).diff.nodesRemoved = (if t.contains x then [x] else []) ++ pruned ∧
        pruned.Pairwise (· < ·) ∧
        ∀ id, id ∈ pruned ↔
          id ≠ x ∧ t.contains id = true ∧ (t.dropNode x).topology.contains id = false) ∧
    ∀ g : Topology, g.contains g.localId = true →
      Component.Searched g.storedNeighbours (.ofIds [g.localId]) [g.localId] g.reachable := by
  intro t
  have h : t.WellFormed := wellFormed_run localId history
  have hlocal : t.localId = localId := (wellFormed_root localId).localId_applyAll history
  refine ⟨fun a b => ?_, fun x => ?_, fun g => searched_reachable⟩
  · have hleft := h.dropLink_remainder a b
    have hwithout := h.unlink_without a b
    refine ⟨hleft, fun hnone => hleft.isEmpty (.inl (hlocal.symm ▸ hnone)), ?_, fun id => ?_,
      h.dropLink_comm a b⟩
    · rw [nodesRemoved_dropLink]
      exact unreached_sorted _
    · rw [nodesRemoved_dropLink, hwithout.wellFormed.mem_unreached_iff_prune,
        hwithout.contains_iff, not_false_eq_true, and_true]
      rfl
  · have hleft := h.dropNode_remainder x
    have hwithout := h.detach_without x
    refine ⟨hleft, fun hnone => hleft.isEmpty (hlocal.symm ▸ hnone), _, nodesRemoved_dropNode t x,
      unreached_sorted _, fun id => ?_⟩
    rw [hwithout.wellFormed.mem_unreached_iff_prune, hwithout.contains_iff,
      and_comm (a := t.contains id = true), and_assoc]
    rfl

end Topology
end MeshView
