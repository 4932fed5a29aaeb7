/-
# Topologies of the same shape

One topology shadows another if it stores the same nodes, each node holds the same links in both, and
the same nodes count as fetched.  It may know fewer costs of nodes, and other costs of links; of some
nodes, the sure ones, the costs of the links that they hold are the same.  Every report keeps this, as
what it does to the shape depends on the shape alone (`Shadows.apply`).  A topology also shadows what
becomes of it if it is told something again: a node that is fetched repeats its cost and its links,
and all these links are stored, so at most their costs change (`WellFormed.shadows_repeated`).
-/

import MeshView.Proofs.Topology.Connected
import MeshView.Proofs.Topology.Fetched

namespace MeshView
namespace Topology

/-- The first topology has the shape of the second, and it knows no cost of a node that the second one
does not know. -/
structure Shadows (t' t : Topology) (sure : NodeId → Prop) : Prop where
  wellFormed : t'.WellFormed
  localId_eq : t'.localId = t.localId
  contains_eq : ∀ id, t'.contains id = t.contains id
  isFetched_eq : ∀ id, t'.isFetched id = t.isFetched id
  held?_eq_none : ∀ a b, t'.held? a b = none ↔ t.held? a b = none
  held?_eq : ∀ a b, sure a → t'.held? a b = t.held? a b
  cost : ∀ id c, t'.cost? id = some (some c) → t.cost? id = some (some c)

variable {t t' t'' u u' : Topology} {sure : NodeId → Prop}

theorem WellFormed.shadows (h : t.WellFormed) : t.Shadows t sure :=
  ⟨h, rfl, fun _ => rfl, fun _ => rfl, fun _ _ => .rfl, fun _ _ _ => rfl, fun _ _ hc => hc⟩

theorem Shadows.trans (h : t''.Shadows t' sure) (h' : t'.Shadows t sure) : t''.Shadows t sure where
  wellFormed := h.wellFormed
  localId_eq := h.localId_eq.trans h'.localId_eq
  contains_eq id := (h.contains_eq id).trans (h'.contains_eq id)
  isFetched_eq id := (h.isFetched_eq id).trans (h'.isFetched_eq id)
  held?_eq_none a b := (h.held?_eq_none a b).trans (h'.held?_eq_none a b)
  held?_eq a b ha := (h.held?_eq a b ha).trans (h'.held?_eq a b ha)
  cost id c hc := h'.cost id c (h.cost id c hc)

theorem Shadows.link?_eq_none (h : t'.Shadows t sure) (ht : t.WellFormed) (a b : NodeId) :
    t'.link? s(a, b) = none ↔ t.link? s(a, b) = none := by
  rw [h.wellFormed.link?_eq_none_iff, ht.link?_eq_none_iff, h.held?_eq_none, h.held?_eq_none]

theorem Shadows.linked_eq (h : t'.Shadows t sure) (ht : t.WellFormed) : t'.Linked = t.Linked :=
  funext fun a => funext fun b => propext (not_congr (h.link?_eq_none ht a b))

/-- A link between sure nodes has the same cost. -/
theorem Shadows.link?_eq (h : t'.Shadows t sure) (ht : t.WellFormed) {a b : NodeId} (ha : sure a)
    (hb : sure b) : t'.link? s(a, b) = t.link? s(a, b) := by
  refine Option.ext fun c => ?_
  rw [h.wellFormed.link?_eq_some_iff, ht.link?_eq_some_iff, h.held?_eq a b ha, h.held?_eq b a hb]

/-! ## Reports -/

/-- What is left of the one shadows what is left of the other. -/
theorem Shadows.remainder (h : t'.Shadows t sure) (ht : t.WellFormed) {gone : NodeId → Prop}
    {cut : Sym2 NodeId → Prop} (hleft : Remainder t gone cut u) (hleft' : Remainder t' gone cut u')
    (hwf : u'.WellFormed) (hlocal : u'.localId = u.localId) : u'.Shadows u sure := by
  have hcontains : ∀ id, u'.contains id = u.contains id := fun id => by
    rw [Bool.eq_iff_iff, hleft.contains_iff, hleft'.contains_iff, h.localId_eq, h.contains_eq,
      h.linked_eq ht]
  have hheld : ∀ a b, u'.contains a = false → u'.held? a b = none ∧ u.held? a b = none := by
    intro a b ha
    refine ⟨by_contra fun hne => ?_, by_contra fun hne => ?_⟩
    · exact Bool.eq_false_iff.1 ha (contains_of_held? hne)
    · exact Bool.eq_false_iff.1 (hcontains a ▸ ha) (contains_of_held? hne)
  refine ⟨hwf, hlocal, hcontains, fun id => ?_, fun a b => ?_, fun a b hsure => ?_, fun id c hc => ?_⟩
  · cases hid : u'.contains id with
    | true =>
      rw [hleft'.isFetched_eq id hid, hleft.isFetched_eq id (hcontains id ▸ hid), h.isFetched_eq]
    | false =>
      have hnot : ∀ {s : Topology}, s.contains id = false → s.isFetched id = false := fun hs =>
        Bool.eq_false_iff.2 fun hf => Bool.eq_false_iff.1 hs (contains_of_isFetched hf)
      rw [hnot hid, hnot (hcontains id ▸ hid)]
  · cases ha : u'.contains a with
    | true =>
      by_cases hcut : cut s(a, b)
      · rw [hleft.held?_cut a b hcut, hleft'.held?_cut a b hcut]
      · rw [hleft.held?_eq a b (hcontains a ▸ ha) hcut, hleft'.held?_eq a b ha hcut]
        exact h.held?_eq_none a b
    | false =>
      rw [(hheld a b ha).1, (hheld a b ha).2]
  · cases ha : u'.contains a with
    | true =>
      by_cases hcut : cut s(a, b)
      · rw [hleft.held?_cut a b hcut, hleft'.held?_cut a b hcut]
      · rw [hleft.held?_eq a b (hcontains a ▸ ha) hcut, hleft'.held?_eq a b ha hcut]
        exact h.held?_eq a b hsure
    | false =>
      rw [(hheld a b ha).1, (hheld a b ha).2]
  · have hid : u'.contains id = true := contains_iff_cost?.2 (hc ▸ Option.some_ne_none _)
    rw [hleft.cost?_eq id (hcontains id ▸ hid)]
    rw [hleft'.cost?_eq id hid] at hc
    exact h.cost id c hc

theorem Shadows.reportNode (h : t'.Shadows t sure) (ht : t.WellFormed) (x : NodeId)
    (k : Option Cost) : (t'.reportNode x k).topology.Shadows (t.reportNode x k).topology sure where
  wellFormed := (h.wellFormed.reportNode_growth x k).wellFormed
  localId_eq := by
    rw [(h.wellFormed.reportNode_growth x k).localId_eq, (ht.reportNode_growth x k).localId_eq,
      h.localId_eq]
  contains_eq id := by
    rw [Bool.eq_iff_iff, contains_reportNode, contains_reportNode, h.contains_eq]
  isFetched_eq id := by
    rw [isFetched_reportNode, isFetched_reportNode, h.isFetched_eq]
  held?_eq_none a b := by
    rw [held?_reportNode, held?_reportNode]
    exact h.held?_eq_none a b
  held?_eq a b ha := by
    rw [held?_reportNode, held?_reportNode]
    exact h.held?_eq a b ha
  cost id c hc := by
    rw [cost?_reportNode] at hc ⊢
    by_cases hx : x = id
    · rw [if_pos hx, Option.some_inj] at hc ⊢
      cases k with
      | some k => exact hc
      | none =>
        rw [Option.none_or, Option.join_eq_some_iff] at hc
        rw [Option.none_or, h.cost id c hc, Option.join_some]
    · rw [if_neg hx] at hc ⊢
      exact h.cost id c hc

/-- Whether a link is new depends on the shape alone. -/
theorem Shadows.reportLink (h : t'.Shadows t sure) (ht : t.WellFormed) (x y : NodeId) (k : Cost) :
    (t'.reportLink x y k).topology.Shadows (t.reportLink x y k).topology sure where
  wellFormed := (h.wellFormed.reportLink_growth x y k).wellFormed
  localId_eq := by
    rw [(h.wellFormed.reportLink_growth x y k).localId_eq, (ht.reportLink_growth x y k).localId_eq,
      h.localId_eq]
  contains_eq id := by
    rw [Bool.eq_iff_iff, contains_reportLink, contains_reportLink, h.contains_eq]
  isFetched_eq id := by
    rw [Bool.eq_iff_iff, isFetched_reportLink, isFetched_reportLink, h.isFetched_eq]
  held?_eq_none a b := by
    rw [h.wellFormed.held?_reportLink, ht.held?_reportLink]
    simp only [h.held?_eq_none y x]
    split
    · rfl
    · exact h.held?_eq_none a b
  held?_eq a b ha := by
    rw [h.wellFormed.held?_reportLink, ht.held?_reportLink]
    simp only [h.held?_eq_none y x, h.held?_eq a b ha]
  cost id c hc := by
    rw [cost?_reportLink] at hc ⊢
    by_cases hends : x = id ∨ y = id
    · rw [if_pos hends, Option.some_inj, Option.join_eq_some_iff] at hc
      rw [if_pos hends, h.cost id c hc, Option.join_some]
    · rw [if_neg hends] at hc ⊢
      exact h.cost id c hc

/-- **A report keeps the shape the same.** -/
theorem Shadows.apply (h : t'.Shadows t sure) (ht : t.WellFormed) (r : Report) :
    (t'.apply r).topology.Shadows (t.apply r).topology sure := by
  have hwf := (h.wellFormed.apply_sound r).wellFormed
  have hlocal : (t'.apply r).topology.localId = (t.apply r).topology.localId := by
    rw [(h.wellFormed.apply_sound r).localId_eq, (ht.apply_sound r).localId_eq, h.localId_eq]
  cases r with
  | node x k => exact h.reportNode ht x k
  | link x y k => exact h.reportLink ht x y k
  | nodeGone x =>
    exact h.remainder ht (ht.dropNode_remainder x) (h.wellFormed.dropNode_remainder x) hwf hlocal
  | linkGone a b =>
    exact h.remainder ht (ht.dropLink_remainder a b) (h.wellFormed.dropLink_remainder a b) hwf
      hlocal

theorem Shadows.applyAll (h : t'.Shadows t sure) (ht : t.WellFormed) (reports : List Report) :
    (t'.applyAll reports).topology.Shadows (t.applyAll reports).topology sure := by
  induction reports generalizing t t' with
  | nil => exact h
  | cons r reports ih =>
    rw [Topology.applyAll, each_cons, Topology.applyAll, each_cons]
    exact ih (h.apply ht r) (ht.apply_sound r).wellFormed

/-! ## Reports that are repeated -/

/-- The node repeats its cost, if that is known, or a link that is stored; if the node is sure, the
cost of the link is the one that it holds, unless the other end holds it. -/
def Repeats (t : Topology) (sure : NodeId → Prop) (x : NodeId) (r : Report) : Prop :=
  (∃ k, r = .node x (some k) ∧ ∀ c, t.cost? x = some (some c) → c = k) ∨
    ∃ y k, r = .link x y k ∧ t.Linked x y ∧ (sure x → ∀ c, t.held? x y = some c → c = k)

theorem Shadows.repeated_node (h : t'.Shadows t sure) (ht : t.WellFormed) {x : NodeId}
    (hx : t'.contains x = true) {k : Cost} (hk : ∀ c, t'.cost? x = some (some c) → c = k) :
    t'.Shadows (t.reportNode x (some k)).topology sure where
  wellFormed := h.wellFormed
  localId_eq := h.localId_eq.trans (ht.reportNode_growth x (some k)).localId_eq.symm
  contains_eq id := by
    rw [h.contains_eq, Bool.eq_iff_iff, contains_reportNode]
    exact (or_iff_right_of_imp fun he => he ▸ h.contains_eq x ▸ hx).symm
  isFetched_eq id := (h.isFetched_eq id).trans (isFetched_reportNode t x (some k) id).symm
  held?_eq_none a b := by
    rw [held?_reportNode]
    exact h.held?_eq_none a b
  held?_eq a b ha := by
    rw [held?_reportNode]
    exact h.held?_eq a b ha
  cost id c hc := by
    rw [cost?_reportNode]
    split
    · rename_i he
      rw [hk c (he ▸ hc), Option.some_or]
    · exact h.cost id c hc

theorem Shadows.repeated_link (h : t'.Shadows t sure) (ht : t.WellFormed) {x y : NodeId}
    (hx : t'.isFetched x = true) (hlink : t'.Linked x y) {k : Cost}
    (hk : sure x → ∀ c, t'.held? x y = some c → c = k) :
    t'.Shadows (t.reportLink x y k).topology sure := by
  obtain ⟨hxs, hys⟩ := h.wellFormed.contains_of_link? hlink
  -- what is stored of the link now, the node holds, unless the other end does
  have hheld : t.held? y x = none → t'.held? x y ≠ none := fun hyx hxy =>
    hlink (h.wellFormed.link?_eq_none_iff.2 ⟨hxy, (h.held?_eq_none y x).2 hyx⟩)
  have hlocal := h.localId_eq.trans (ht.reportLink_growth x y k).localId_eq.symm
  refine ⟨h.wellFormed, hlocal, fun id => ?_, fun id => ?_, fun a b => ?_, fun a b ha => ?_,
    fun id c hc => ?_⟩
  · rw [h.contains_eq, Bool.eq_iff_iff, contains_reportLink]
    refine (or_iff_right_of_imp ?_).symm
    rintro (rfl | rfl)
    · exact h.contains_eq x ▸ hxs
    · exact h.contains_eq y ▸ hys
  · rw [h.isFetched_eq, Bool.eq_iff_iff, isFetched_reportLink]
    exact (or_iff_right_of_imp fun he => he ▸ h.isFetched_eq x ▸ hx).symm
  · rw [ht.held?_reportLink]
    split
    · rename_i he
      obtain ⟨rfl, rfl, -, hyx⟩ := he
      exact iff_of_false (hheld hyx) (Option.some_ne_none k)
    · exact h.held?_eq_none a b
  · rw [ht.held?_reportLink]
    split
    · rename_i he
      obtain ⟨rfl, rfl, -, hyx⟩ := he
      obtain ⟨c, hc⟩ := Option.ne_none_iff_exists'.1 (hheld hyx)
      rw [hc, hk ha c hc]
    · exact h.held?_eq a b ha
  · rw [cost?_reportLink, h.cost id c hc, Option.join_some, ite_self]

/-- What repeats the shape of a topology leaves it as it is. -/
theorem Shadows.repeated (h : t'.Shadows t sure) (ht : t.WellFormed) {x : NodeId}
    (hx : t'.isFetched x = true) {r : Report} (hr : t'.Repeats sure x r) :
    t'.Shadows (t.apply r).topology sure := by
  rcases hr with ⟨k, rfl, hk⟩ | ⟨y, k, rfl, hlink, hk⟩
  · exact h.repeated_node ht (contains_of_isFetched hx) hk
  · exact h.repeated_link ht hx hlink hk

/-- **A topology shadows what becomes of it when a fetched node repeats what it told.** -/
theorem WellFormed.shadows_repeated (h : t.WellFormed) {x : NodeId} (hx : t.isFetched x = true)
    {reports : List Report} (hreports : ∀ r ∈ reports, t.Repeats sure x r) :
    t.Shadows (t.applyAll reports).topology sure :=
  (each_induction (P := fun t' => t'.WellFormed ∧ t.Shadows t' sure) Topology.apply t reports
    (fun _ r hr ht => ⟨(ht.1.apply_sound r).wellFormed, ht.2.repeated ht.1 hx (hreports r hr)⟩)
    ⟨h, h.shadows⟩).2

end Topology
end MeshView
