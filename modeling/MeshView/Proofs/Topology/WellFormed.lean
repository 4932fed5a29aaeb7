/-
# Strong entries and their mirrors

A link is stored twice: the end that holds it has a strong entry for the other end, and the other
end has a weak entry with the same cost.  `WellFormed` says that this is so for every link and that
no two nodes hold a link to each other; in particular no node is its own neighbour, and a neighbour
is always stored.  A well-formed topology is therefore determined by its costs and its strong
entries, and the lemmas below say what each operation does to these two.
-/

import MeshView.Proofs.Topology.Entries
import Mathlib.Data.Sym.Sym2

namespace MeshView
namespace Topology

/-- Every vertex is stored under its own identity, every strong entry has its mirror at the other
end and every weak entry is one, and no link is held by both ends. -/
structure WellFormed (t : Topology) : Prop where
  id_eq : ∀ {id : NodeId} {v : Vertex}, t.vertex? id = some v → v.id = id
  mirrored_eq : ∀ a b, t.mirrored? b a = t.held? a b
  held_once : ∀ a b, t.held? a b ≠ none → t.held? b a = none

variable {t : Topology}

namespace WellFormed

theorem held?_self (h : t.WellFormed) (a : NodeId) : t.held? a a = none := by
  by_contra hne
  exact hne (h.held_once a a hne)

theorem contains_right (h : t.WellFormed) {a b : NodeId} (hab : t.held? a b ≠ none) :
    t.contains b = true :=
  contains_of_mirrored? (h.mirrored_eq a b ▸ hab)

/-- A change of one vertex that keeps its identity keeps all identities. -/
theorem id_eq_onVertex (hid : ∀ {x v}, t.vertex? x = some v → v.id = x) (id : NodeId)
    {change : Vertex → Vertex} (hchange : ∀ v, (change v).id = v.id) {x : NodeId} {v : Vertex}
    (hv : (t.onVertex id change).vertex? x = some v) : v.id = x := by
  rw [vertex?_onVertex] at hv
  split at hv
  · obtain ⟨w, hw, rfl⟩ := Option.map_eq_some_iff.1 hv
    rw [hchange, hid hw]
  · exact hid hv

theorem id_eq_onAdjacency (hid : ∀ {x v}, t.vertex? x = some v → v.id = x) (id : NodeId)
    (change : Adjacency → Adjacency) {x : NodeId} {v : Vertex}
    (hv : (t.onAdjacency id change).vertex? x = some v) : v.id = x :=
  @id_eq_onVertex t hid id (·.onAdjacency change) (fun _ => rfl) x v hv

/-- A change of one vertex that keeps its identity and its adjacency. -/
theorem onVertex (h : t.WellFormed) (id : NodeId) {change : Vertex → Vertex}
    (hid : ∀ v, (change v).id = v.id) (hadj : ∀ v, (change v).adjacency = v.adjacency) :
    (t.onVertex id change).WellFormed where
  id_eq := id_eq_onVertex h.id_eq id hid
  mirrored_eq a b := by
    rw [mirrored?_onVertex t id b a hadj, held?_onVertex t id a b hadj, h.mirrored_eq]
  held_once a b hab := by
    rw [held?_onVertex t id _ _ hadj] at hab ⊢
    exact h.held_once a b hab

theorem store (h : t.WellFormed) {id : NodeId} (cost : Option Cost)
    (hnew : t.contains id = false) : (t.store id cost).WellFormed where
  id_eq {x v} hv := by
    rw [vertex?_store] at hv
    split at hv
    · rename_i hx
      rw [← Option.some.inj hv]
      exact hx
    · exact h.id_eq hv
  mirrored_eq a b := by rw [mirrored?_store cost b a hnew, held?_store cost a b hnew, h.mirrored_eq]
  held_once a b hab := by
    rw [held?_store cost _ _ hnew] at hab ⊢
    exact h.held_once a b hab

/-- A node without links can be removed. -/
theorem erase (h : t.WellFormed) {id : NodeId}
    (hfree : ∀ x, t.held? id x = none ∧ t.held? x id = none) : (t.erase id).WellFormed := by
  have hheld : ∀ a b, (t.erase id).held? a b = t.held? a b := by
    intro a b
    rw [held?_erase]
    split
    · rename_i ha
      exact ha ▸ ((hfree b).1).symm
    · rfl
  refine ⟨fun {x v} hv => ?_, fun a b => ?_, fun a b hab => ?_⟩
  · rw [vertex?_erase] at hv
    split at hv
    · cases hv
    · exact h.id_eq hv
  · rw [hheld, mirrored?_erase]
    split
    · rename_i hb
      exact hb ▸ ((hfree a).2).symm
    · exact h.mirrored_eq a b
  · rw [hheld] at hab ⊢
    exact h.held_once a b hab

end WellFormed

/-! ## Joining two nodes -/

section Join
variable {a b : NodeId} (cost : Cost)

/-- The end that holds the link gets the entry; nothing else changes. -/
theorem held?_join (ha : t.contains a = true) (hba : t.held? b a = none) (hne : a ≠ b)
    (x y : NodeId) : (t.join a b cost).held? x y =
      if a = x ∧ b = y then some cost else t.held? x y := by
  rw [join, held?_setWeak, held?_setStrong b cost x y ha]
  by_cases hxy : b = x ∧ a = y
  · obtain ⟨rfl, rfl⟩ := hxy
    rw [if_pos ⟨rfl, rfl⟩, if_neg fun h => hne h.1, hba]
  · rw [if_neg hxy]

theorem mirrored?_join (h : t.WellFormed) (hb : t.contains b = true) (hba : t.held? b a = none)
    (x y : NodeId) : (t.join a b cost).mirrored? x y =
      if b = x ∧ a = y then some cost else t.mirrored? x y := by
  have hb' : (t.onAdjacency a (·.setStrong b cost)).contains b = true := by
    rw [contains_onAdjacency, hb]
  rw [join, mirrored?_setWeak a cost x y hb', mirrored?_setStrong]
  by_cases hxy : a = x ∧ b = y
  · obtain ⟨rfl, rfl⟩ := hxy
    rw [if_pos (c := a = a ∧ b = b) ⟨rfl, rfl⟩, h.mirrored_eq b a, hba]
  · rw [if_neg hxy]

open WellFormed in
theorem WellFormed.join (h : t.WellFormed) (ha : t.contains a = true) (hb : t.contains b = true)
    (hba : t.held? b a = none) (hne : a ≠ b) : (t.join a b cost).WellFormed where
  id_eq hv := id_eq_onAdjacency (id_eq_onAdjacency h.id_eq a _) b _ hv
  mirrored_eq x y := by
    rw [mirrored?_join cost h hb hba, held?_join cost ha hba hne, h.mirrored_eq]
    simp only [and_comm]
  held_once x y hxy := by
    rw [held?_join cost ha hba hne] at hxy ⊢
    by_cases hab : a = x ∧ b = y
    · obtain ⟨rfl, rfl⟩ := hab
      rw [if_neg fun h => hne h.1, hba]
    · rw [if_neg hab] at hxy
      rw [if_neg, h.held_once x y hxy]
      rintro ⟨rfl, rfl⟩
      exact hxy hba

end Join

/-! ## Removing a link -/

section Unlink
variable (t) (a b : NodeId)

/-- Removing a link only changes adjacencies. -/
theorem unlink_induction {P : Topology → Prop}
    (hstep : ∀ t id change, P t → P (t.onAdjacency id change)) (ht : P t) :
    P (t.unlink a b).topology := by
  have h₂ : P ((t.onAdjacency a (·.dropStrong b)).onAdjacency b (·.dropStrong a)) :=
    hstep _ _ _ (hstep _ _ _ ht)
  have hweak : ∀ (c : Bool) (t : Topology) (x y : NodeId), P t →
      P (if c then t.onAdjacency x (·.dropWeak y) else t) := by
    intro c t x y h
    cases c
    · exact h
    · exact hstep _ _ _ h
  unfold unlink
  dsimp only
  split
  · exact hweak _ _ _ _ (hweak _ _ _ _ h₂)
  · exact hstep _ _ _ (hstep _ _ _ (hweak _ _ _ _ (hweak _ _ _ _ h₂)))

@[simp] theorem cost?_unlink (x : NodeId) : (t.unlink a b).topology.cost? x = t.cost? x :=
  unlink_induction (P := fun t' => t'.cost? x = t.cost? x) t a b
    (fun t' id change h => (cost?_onAdjacency t' id change x).trans h) rfl

@[simp] theorem localId_unlink : (t.unlink a b).topology.localId = t.localId :=
  unlink_induction (P := fun t' => t'.localId = t.localId) t a b (fun _ _ _ h => h) rfl

/-- Neither end holds the link any more. -/
theorem held?_unlink (x y : NodeId) : (t.unlink a b).topology.held? x y =
    if s(a, b) = s(x, y) then none else t.held? x y := by
  have hweak : ∀ (c : Bool) (t : Topology) (u v : NodeId),
      (if c then t.onAdjacency u (·.dropWeak v) else t).held? x y = t.held? x y := by
    intro c t u v
    cases c
    · rfl
    · exact held?_dropWeak t u v x y
  have h₂ : ((t.onAdjacency a (·.dropStrong b)).onAdjacency b (·.dropStrong a)).held? x y =
      if s(a, b) = s(x, y) then none else t.held? x y := by
    rw [held?_dropStrong, held?_dropStrong]
    simp only [Sym2.eq_iff]
    grind
  unfold unlink
  dsimp only
  split
  · rw [hweak, hweak, h₂]
  · show (Topology.onAdjacency _ b (·.dropWeak a)).held? x y = _
    rw [held?_dropWeak, held?_dropWeak, hweak, hweak, h₂]

theorem holds_eq : t.holds a b = (t.held? a b).isSome := by
  rw [holds, held?]
  cases t.vertex? a <;> rfl

variable {t}

theorem WellFormed.mirrored?_unlink (h : t.WellFormed) (x y : NodeId) :
    (t.unlink a b).topology.mirrored? x y =
      if s(a, b) = s(x, y) then none else t.mirrored? x y := by
  have hweak : ∀ (c : Bool) (t : Topology) (u v : NodeId),
      (if c then t.onAdjacency u (·.dropWeak v) else t).mirrored? x y =
        if c = true ∧ u = x ∧ v = y then none else t.mirrored? x y := by
    intro c t u v
    cases c
    · simp
    · simp [mirrored?_dropWeak]
  have hab := h.mirrored_eq a b
  have hba := h.mirrored_eq b a
  have hself := h.held?_self
  unfold unlink
  dsimp only
  split
  · rename_i hheld
    simp only [holds_eq, held?_dropStrong, Bool.or_eq_true] at hheld
    simp only [hweak, mirrored?_dropStrong, holds_eq, held?_dropStrong, Sym2.eq_iff]
    grind [WellFormed.held_once]
  · show (Topology.onAdjacency _ b (·.dropWeak a)).mirrored? x y = _
    simp only [mirrored?_dropWeak, hweak, mirrored?_dropStrong, Sym2.eq_iff]
    grind

theorem WellFormed.unlink (h : t.WellFormed) : (t.unlink a b).topology.WellFormed where
  id_eq {x v} := unlink_induction (P := fun t => ∀ {x v}, t.vertex? x = some v → v.id = x) t a b
    (fun _ id change hid _ _ hv => id_eq_onAdjacency hid id change hv) h.id_eq
  mirrored_eq x y := by
    rw [h.mirrored?_unlink, held?_unlink, h.mirrored_eq, Sym2.eq_swap (a := y)]
  held_once x y hxy := by
    rw [held?_unlink] at hxy ⊢
    by_cases hab : s(a, b) = s(x, y)
    · rw [if_pos (hab.trans Sym2.eq_swap)]
    · rw [if_neg hab] at hxy
      rw [h.held_once x y hxy, ite_self]

/-- Only a link that one of the two ends holds is listed. -/
theorem WellFormed.diff_unlink (h : t.WellFormed) : (t.unlink a b).diff =
    if t.held? a b ≠ none ∨ t.held? b a ≠ none then .linkRemoved a b else ∅ := by
  have hsecond : (t.onAdjacency a (·.dropStrong b)).holds b a = (t.held? b a).isSome := by
    rw [holds_eq, held?_dropStrong]
    split
    · rename_i hab
      rw [hab.1, h.held?_self]
    · rfl
  have hheld : (t.holds a b || (t.onAdjacency a (·.dropStrong b)).holds b a) = true ↔
      t.held? a b ≠ none ∨ t.held? b a ≠ none := by
    rw [hsecond, holds_eq, Bool.or_eq_true, Option.isSome_iff_ne_none, Option.isSome_iff_ne_none]
  unfold Topology.unlink
  dsimp only
  split
  · rename_i hyes
    rw [if_pos (hheld.1 hyes)]
  · rename_i hno
    rw [if_neg fun hyes => hno (hheld.2 hyes), unchanged]

end Unlink
end Topology
end MeshView
