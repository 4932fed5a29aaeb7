/-
# Removals

The removal of a link and of a node cascade: unlinking, detaching and pruning each append to the
same differences, and a link between two nodes that both go is met from both ends.  What carries
the argument is that a removal takes things away and changes nothing else.  Then nothing changes
twice: what the first part took away, the second part leaves alone, so the differences of the parts
join to exact differences of the whole (`Removal.andThen`).  A link that is met from its second end
is held by neither end any more and is not listed again.
-/

import MeshView.Proofs.Topology.View

namespace MeshView
namespace Topology

/-- A sound change that only takes nodes and links away. -/
structure Removal (t : Topology) (c : Change) : Prop extends Sound t c where
  cost?_eq : ∀ x, c.topology.cost? x = none ∨ c.topology.cost? x = t.cost? x
  held?_eq : ∀ x y, c.topology.held? x y = none ∨ c.topology.held? x y = t.held? x y

variable {t : Topology}

namespace Removal
variable {c : Change} {next : Topology → Change}

/-- A link that stays keeps its cost. -/
theorem link?_eq (ht : t.WellFormed) (h : Removal t c) (p : Sym2 NodeId) :
    c.topology.link? p = none ∨ c.topology.link? p = t.link? p := by
  induction p with | _ a b
  cases hc : c.topology.link? s(a, b) with
  | none => exact .inl rfl
  | some cost =>
    refine .inr (Eq.symm (ht.link?_eq_some_iff.2 ?_))
    rcases h.wellFormed.link?_eq_some_iff.1 hc with hab | hba
    · exact .inl (((h.held?_eq a b).resolve_left (by simp [hab])).symm.trans hab)
    · exact .inr (((h.held?_eq b a).resolve_left (by simp [hba])).symm.trans hba)

/-- A removal that lists nothing leaves every strong entry where it is: an entry that went would
have taken its link with it. -/
theorem snapshot_eq (ht : t.WellFormed) (hwf : c.topology.WellFormed)
    (hheld : ∀ x y, c.topology.held? x y = none ∨ c.topology.held? x y = t.held? x y)
    (hview : t.view = c.topology.view) : c.topology.snapshot = t.snapshot := by
  refine ht.snapshot_congr hwf (fun x => (congrFun (congrArg View.nodes hview) x).symm)
    fun x y => ?_
  rcases hheld x y with hnone | hsame
  · by_contra hne
    have hxy : t.held? x y ≠ none := fun h => hne (hnone.trans h.symm)
    have hyx : c.topology.held? y x = none :=
      (hheld y x).elim id fun h => h.trans (ht.held_once x y hxy)
    have hgone : c.topology.link? s(x, y) = none := hwf.link?_eq_none_iff.2 ⟨hnone, hyx⟩
    have hlinks : t.link? = c.topology.link? := congrArg View.links hview
    exact hxy (ht.link?_eq_none_iff.1 (hlinks ▸ hgone)).1
  · exact hsame

theorem of_exact (ht : t.WellFormed) (hwf : c.topology.WellFormed)
    (hlocal : c.topology.localId = t.localId)
    (hcost : ∀ x, c.topology.cost? x = none ∨ c.topology.cost? x = t.cost? x)
    (hheld : ∀ x y, c.topology.held? x y = none ∨ c.topology.held? x y = t.held? x y)
    (hexact : c.diff.Exact t.view c.topology.view) : Removal t c where
  wellFormed := hwf
  localId_eq := hlocal
  exact := hexact
  quiet hd := snapshot_eq ht hwf hheld (hexact.isEmpty_iff.1 (Diff.isEmpty_iff.2 hd))
  cost?_eq := hcost
  held?_eq := hheld

theorem unchanged (ht : t.WellFormed) : Removal t t.unchanged where
  toSound := .unchanged ht
  cost?_eq _ := .inr rfl
  held?_eq _ _ := .inr rfl

/-- **Removals compose.**  What the first one took away, the second one cannot change. -/
theorem andThen (ht : t.WellFormed) (h : Removal t c)
    (h' : Removal c.topology (next c.topology)) : Removal t (c.andThen next) where
  toSound := by
    refine h.toSound.andThen h'.toSound (fun x => ?_) fun p => ?_
    · rcases h.cost?_eq x with hx | hx
      · rw [hx]
        exact .inr ((h'.cost?_eq x).elim Eq.symm fun h => (h.trans hx).symm)
      · exact .inl hx.symm
    · rcases h.link?_eq ht p with hp | hp
      · rw [hp]
        exact .inr ((h'.link?_eq h.wellFormed p).elim Eq.symm fun h => (h.trans hp).symm)
      · exact .inl hp.symm
  cost?_eq x := by
    rcases h'.cost?_eq x with hx | hx
    · exact .inl hx
    · exact (h.cost?_eq x).imp hx.trans hx.trans
  held?_eq x y := by
    rcases h'.held?_eq x y with hxy | hxy
    · exact .inl hxy
    · exact (h.held?_eq x y).imp hxy.trans hxy.trans

/-- Any number of removals, whatever the order. -/
theorem each {α : Type} {operation : Topology → α → Change} (ht : t.WellFormed) (xs : List α)
    (hstep : ∀ t : Topology, t.WellFormed → ∀ x ∈ xs, Removal t (operation t x)) :
    Removal t (t.each operation xs) := by
  induction xs generalizing t with
  | nil => exact .unchanged ht
  | cons x xs ih =>
    rw [each_cons]
    have hx := hstep t ht x List.mem_cons_self
    exact hx.andThen ht (ih hx.wellFormed fun t ht y hy => hstep t ht y (List.mem_cons_of_mem _ hy))

end Removal

/-! ## Links -/

/-- The link goes, if there was one, and it is listed then. -/
theorem WellFormed.unlink_removal (h : t.WellFormed) (a b : NodeId) : Removal t (t.unlink a b) := by
  have hwf := h.unlink a b
  have hheld : ∀ x y, (t.unlink a b).topology.held? x y = none ∨
      (t.unlink a b).topology.held? x y = t.held? x y := by
    intro x y
    rw [held?_unlink]
    split
    · exact .inl rfl
    · exact .inr rfl
  refine .of_exact h hwf (localId_unlink t a b) (fun x => .inr (cost?_unlink t a b x)) hheld ?_
  have hcost : (t.unlink a b).topology.cost? = t.cost? := funext (cost?_unlink t a b)
  have hlink : ∀ p, (t.unlink a b).topology.link? p = if s(a, b) = p then none else t.link? p :=
    h.link?_unlink a b
  have hlisted : t.held? a b ≠ none ∨ t.held? b a ≠ none ↔ t.link? s(a, b) ≠ none := by
    rw [ne_eq (t.link? _), h.link?_eq_none_iff, not_and_or]
  rw [h.diff_unlink, if_congr hlisted rfl rfl]
  split
  · rename_i hab
    constructor
    · exact .of_eq hcost
    · refine .single_removed (k := s(a, b)) hab ?_ fun p hp => ?_
      · rw [view_links, hlink, if_pos rfl]
      · rw [view_links, hlink, if_neg (Ne.symm hp), view_links]
  · rename_i hab
    have hsame : (t.unlink a b).topology.view = t.view := by
      refine View.ext hcost (funext fun p => ?_)
      show (t.unlink a b).topology.link? p = t.link? p
      rw [hlink]
      grind
    rw [hsame]
    exact .refl t.view

/-! ## Nodes -/

/-- A node without links goes alone. -/
theorem WellFormed.erase_removal (h : t.WellFormed) {id : NodeId} (hid : t.contains id = true)
    (hfree : ∀ x, t.held? id x = none ∧ t.held? x id = none) :
    Removal t ⟨t.erase id, .nodeRemoved id⟩ := by
  have hwf := h.erase hfree
  have hheld : ∀ x y, (t.erase id).held? x y = t.held? x y := by
    intro x y
    rw [held?_erase]
    split
    · rename_i hx
      exact hx ▸ ((hfree y).1).symm
    · rfl
  have hlink : (t.erase id).link? = t.link? := h.link?_congr hwf hheld
  have hcost : ∀ x, (t.erase id).cost? x = none ∨ (t.erase id).cost? x = t.cost? x := by
    intro x
    rw [cost?_erase]
    split
    · exact .inl rfl
    · exact .inr rfl
  refine .of_exact h hwf rfl hcost (fun x y => .inr (hheld x y)) ⟨?_, ?_⟩
  · refine .single_removed (contains_iff_cost?.1 hid) ?_ fun x hx => ?_
    · rw [view_nodes, cost?_erase, if_pos rfl]
    · rw [view_nodes, cost?_erase, if_neg (Ne.symm hx), view_nodes]
  · exact .of_eq hlink

/-- After unlinking, no link between the node and one of the others is left. -/
theorem held?_each_unlink (id : NodeId) (ids : List NodeId) (x y : NodeId) :
    (t.each (·.unlink id) ids).topology.held? x y =
      if ∃ n ∈ ids, s(id, n) = s(x, y) then none else t.held? x y := by
  induction ids generalizing t with
  | nil => simp [Topology.unchanged]
  | cons n ids ih =>
    rw [each_cons]
    show ((t.unlink id n).topology.each _ ids).topology.held? x y = _
    rw [ih, held?_unlink]
    by_cases hn : s(id, n) = s(x, y)
    · rw [if_pos hn, ite_self, if_pos ⟨n, List.mem_cons_self, hn⟩]
    · simp only [List.exists_mem_cons_iff, hn, false_or, if_false]

theorem cost?_each_unlink (id : NodeId) (ids : List NodeId) (x : NodeId) :
    (t.each (·.unlink id) ids).topology.cost? x = t.cost? x :=
  each_induction (P := fun t' => t'.cost? x = t.cost? x) _ t ids
    (fun t' n _ h => (cost?_unlink t' id n x).trans h) rfl

/-- A node is detached from all its neighbours first, so it can go alone. -/
theorem WellFormed.detach_removal (h : t.WellFormed) (id : NodeId) :
    Removal t (t.detach id) := by
  rw [detach]
  cases hv : t.vertex? id with
  | none => exact .unchanged h
  | some v =>
    have hlinks : Removal t (t.each (·.unlink id) v.adjacency.neighbours) :=
      .each h _ fun t ht n _ => ht.unlink_removal id n
    refine hlinks.andThen h (hlinks.wellFormed.erase_removal ?_ fun x => ?_)
    · rw [contains_iff_cost?, cost?_each_unlink, ← contains_iff_cost?, contains_iff_vertex?]
      exact ⟨v, hv⟩
    · have hlisted : x ∉ v.adjacency.neighbours → t.held? id x = none ∧ t.held? x id = none := by
        rw [h.mem_neighbours_iff hv, not_not, h.link?_eq_none_iff]
        exact fun hfree => hfree
      rw [held?_each_unlink, held?_each_unlink]
      by_cases hx : x ∈ v.adjacency.neighbours
      · rw [if_pos ⟨x, hx, rfl⟩, if_pos ⟨x, hx, Sym2.eq_swap⟩]
        exact ⟨rfl, rfl⟩
      · have hno : ¬ ∃ n ∈ v.adjacency.neighbours, s(id, n) = s(id, x) := by
          rintro ⟨n, hn, heq⟩
          exact hx (Sym2.congr_right.1 heq ▸ hn)
        rw [if_neg hno, Sym2.eq_swap (a := x), if_neg hno]
        exact hlisted hx

theorem WellFormed.prune_removal (h : t.WellFormed) : Removal t t.prune :=
  .each h _ fun _ ht id _ => ht.detach_removal id

theorem WellFormed.dropLink_removal (h : t.WellFormed) (a b : NodeId) :
    Removal t (t.dropLink a b) :=
  have hab := h.unlink_removal a b
  hab.andThen h hab.wellFormed.prune_removal

theorem WellFormed.dropNode_removal (h : t.WellFormed) (id : NodeId) :
    Removal t (t.dropNode id) :=
  have hid := h.detach_removal id
  hid.andThen h hid.wellFormed.prune_removal

end Topology
end MeshView
