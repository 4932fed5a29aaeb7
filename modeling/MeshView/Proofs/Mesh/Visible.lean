/-
# What can be seen of a mesh

Only open nodes tell something about themselves: the local node, whose reports come from the
network layer, and the nodes that are online and answer requests.  What can be seen from the local
node is the least set that contains it and every neighbour of an open member.  With every node
online this is the component of the local node.
-/

import MeshView.Proofs.Mesh.Links

namespace MeshView
namespace Mesh

/-- The node tells about itself. -/
def Open (m : Mesh) (localId id : NodeId) : Prop := id = localId ∨ m.isOnline id = true

/-- The local node, and the neighbours of what can be seen and is open. -/
inductive Visible (m : Mesh) (localId : NodeId) : NodeId → Prop
  | root : Visible m localId localId
  | step {a b : NodeId} (ha : Visible m localId a) (hopen : m.Open localId a)
      (hab : m.link? a b ≠ none) : Visible m localId b

/-- The node can be seen and tells about itself. -/
structure Tells (m : Mesh) (localId id : NodeId) : Prop where
  visible : m.Visible localId id
  isOpen : m.Open localId id

variable {m : Mesh} {localId : NodeId}

/-- What can be seen of a well-formed mesh is part of it. -/
theorem Visible.contains (h : m.WellFormed) (hlocal : m.contains localId = true) {id : NodeId}
    (hid : m.Visible localId id) : m.contains id = true := by
  cases hid with
  | root => exact hlocal
  | step _ _ hab => exact h.contains_right hab

/-- A node other than the local one can be seen by a link of its own. -/
theorem Visible.exists_link (hm : m.WellFormed) {id : NodeId} (h : m.Visible localId id)
    (hne : id ≠ localId) : ∃ b c, m.link? id b = some c := by
  cases h with
  | root => exact absurd rfl hne
  | @step a _ _ _ hab =>
    rw [hm.symm] at hab
    exact ⟨a, Option.ne_none_iff_exists'.1 hab⟩

theorem mem_ids_toFinset {id : NodeId} : id ∈ m.ids.toFinset ↔ m.contains id = true := by
  rw [List.mem_toFinset, ids, IdMap.mem_keys]
  rfl

theorem card_ids_le (m : Mesh) : m.ids.toFinset.card ≤ m.size :=
  (List.toFinset_card_le _).trans_eq (List.length_map Prod.fst)

/-- The identities that a component is searched through. -/
def successors (m : Mesh) (id : NodeId) : List NodeId := (m.neighbors id).map Prod.fst

theorem leads_iff {a b : NodeId} : Component.Leads m.successors a b ↔ m.link? a b ≠ none :=
  exists_mem_neighbors_iff

/-- Links do not lead out of the mesh. -/
theorem WellFormed.successors_closed (h : m.WellFormed) :
    ∀ a ∈ m.ids.toFinset, ∀ b, Component.Leads m.successors a b → b ∈ m.ids.toFinset :=
  fun _ _ _ hab => mem_ids_toFinset.2 (h.contains_right (leads_iff.1 hab))

theorem component_eq (h : m.contains localId = true) :
    m.component localId = Component.reach m.successors m.size localId := if_pos h

/-- The component of a known node is what its links lead to. -/
theorem WellFormed.mem_component_iff (h : m.WellFormed) (hlocal : m.contains localId = true)
    (id : NodeId) : id ∈ m.component localId ↔
      Relation.ReflTransGen (fun a b => m.link? a b ≠ none) localId id := by
  have hleads : Component.Leads m.successors = fun a b => m.link? a b ≠ none :=
    funext fun _ => funext fun _ => propext leads_iff
  rw [component_eq hlocal, ← hleads]
  exact Component.mem_reach_iff (mem_ids_toFinset.2 hlocal) h.successors_closed m.card_ids_le id

/-- With every node online, the component of the local node can be seen and nothing else. -/
theorem WellFormed.visible_iff_mem_component (h : m.WellFormed)
    (hlocal : m.contains localId = true)
    (honline : ∀ id, m.contains id = true → m.isOnline id = true) (id : NodeId) :
    m.Visible localId id ↔ id ∈ m.component localId := by
  rw [h.mem_component_iff hlocal]
  constructor
  · intro hid
    induction hid with
    | root => exact .refl
    | step _ _ hab ih => exact ih.tail hab
  · intro hid
    induction hid with
    | refl => exact .root
    | tail _ hab ih => exact ih.step (.inr (honline _ (contains_of_link? hab))) hab

end Mesh
end MeshView
