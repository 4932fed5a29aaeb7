/-
# What the checks of a mesh check

Every check goes through lists of a mesh, and says something about all its nodes or all its links.  A
well-formed mesh has no loops and is symmetric, so it passes these two checks whatever it is made of
(`WellFormed.isLoopless`, `WellFormed.isSymmetric`).
-/

import MeshView.Proofs.Mesh.Lists

namespace MeshView

/-- The cost lies between the bounds. -/
def Cost.Within (low high : Nat) (c : Cost) : Prop := low ≤ c.value.toNat ∧ c.value.toNat ≤ high

namespace Mesh
variable {m : Mesh} {low high : Nat}

theorem mem_nodeCosts {c : Cost} : c ∈ m.nodeCosts ↔ ∃ id, m.cost? id = some c := by
  rw [nodeCosts, List.mem_filterMap]
  constructor
  · rintro ⟨site, hsite, hcost⟩
    obtain ⟨⟨id, site⟩, hentry, rfl⟩ := List.mem_map.1 hsite
    exact ⟨id, Option.bind_eq_some_iff.2 ⟨site, IdMap.get?_eq_some_iff.2 hentry, hcost⟩⟩
  · rintro ⟨id, hid⟩
    obtain ⟨site, hsite, hcost⟩ := Option.bind_eq_some_iff.1 hid
    exact ⟨site, List.mem_map.2 ⟨(id, site), IdMap.get?_eq_some_iff.1 hsite, rfl⟩, hcost⟩

theorem nodeCostsWithin_iff : m.nodeCostsWithin low high = true ↔
    ∀ id c, m.cost? id = some c → c.Within low high := by
  simp only [nodeCostsWithin, List.all_eq_true, decide_eq_true_eq, mem_nodeCosts]
  exact ⟨fun h id c hc => h c ⟨id, hc⟩, fun h c ⟨id, hc⟩ => h id c hc⟩

theorem linkCostsWithin_iff : m.linkCostsWithin low high = true ↔
    ∀ a b c, m.link? a b = some c → c.Within low high := by
  simp only [linkCostsWithin, List.all_eq_true, decide_eq_true_eq, Prod.forall, mem_sides]
  rfl

theorem isLoopless_iff : m.isLoopless = true ↔ ∀ a, m.link? a a = none := by
  simp only [isLoopless, List.all_eq_true, decide_eq_true_eq, Prod.forall, mem_sides]
  refine ⟨fun h a => Option.eq_none_iff_forall_ne_some.2 fun c hc => h a a c hc rfl, ?_⟩
  rintro h a b c hc rfl
  exact Option.some_ne_none c (hc.symm.trans (h a))

theorem isSymmetric_iff : m.isSymmetric = true ↔
    ∀ a b c, m.link? a b = some c → m.link? b a = some c := by
  simp only [isSymmetric, List.all_eq_true, List.contains_iff_mem, Prod.forall, mem_sides,
    mem_neighbors_iff]

theorem WellFormed.isLoopless (h : m.WellFormed) : m.isLoopless = true := isLoopless_iff.2 h.loopless

theorem WellFormed.isSymmetric (h : m.WellFormed) : m.isSymmetric = true :=
  isSymmetric_iff.2 fun a b _ hc => h.symm a b ▸ hc

theorem WellFormed.linked_eq_true_iff (h : m.WellFormed) {a b : NodeId} :
    m.linked a b = true ↔ m.Linked a b := by
  have hside : ∀ a b, (m.neighbors a).any (·.1 = b) = true ↔ m.Linked a b := by
    intro a b
    rw [Linked, ← exists_mem_neighbors_iff, List.any_eq_true, List.mem_map]
    simp only [decide_eq_true_eq]
  have hsymm : m.Linked b a ↔ m.Linked a b := by rw [Linked, Linked, h.symm]
  rw [linked, Bool.or_eq_true, hside, hside, hsymm, or_self_iff]

/-- The chain check asks for a link from each of the nodes to the next one. -/
theorem WellFormed.isChain_iff (h : m.WellFormed) {ids : List NodeId} :
    m.isChain ids = true ↔ ids.IsChain m.Linked := by
  fun_induction isChain m ids with
  | case1 a b rest ih =>
    rw [Bool.and_eq_true, ih, List.isChain_cons_cons, h.linked_eq_true_iff]
  | case2 ids hshort =>
    match ids, hshort with
    | [], _ => exact iff_of_true rfl .nil
    | [a], _ => exact iff_of_true rfl (.singleton a)
    | a :: b :: rest, hshort => exact (hshort a b rest rfl).elim

end Mesh
end MeshView
