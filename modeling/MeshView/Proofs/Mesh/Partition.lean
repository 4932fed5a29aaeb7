/-
# A mesh is an undirected graph

Whatever is done to a mesh, by changes or by events, both ends of a link list each other at the same
cost, no node lists itself, and only known nodes are listed (`wellFormed_evolve`).  Links therefore lead
back wherever they lead, so what a node is connected to is an equivalence class: the components of two
nodes are the same or have nothing in common (`WellFormed.mem_component_iff_eq`).  The search for a
component never meets a neighbour that is not known, and it ends (`WellFormed.searched_component`).

A view is compared with a component as one finite set with another.  What the view lacks and what it has
besides are the two differences, and to add either to the other set gives their union
(`size_add_missing`).
-/

import MeshView.Mesh.Convergence
import MeshView.Proofs.Component.Queue
import MeshView.Proofs.Mesh.Play

namespace MeshView

namespace Mesh
variable {m : Mesh}

/-! ## Changes and events in any order -/

/-- A change of a mesh, or an event that is played on it. -/
inductive Step where
  | edit (change : Edit)
  | play (event : Event NodeId)

def step (m : Mesh) : Step → Mesh
  | .edit change => m.edit change
  | .play event => (m.play event).1

/-- What steps make of the empty mesh. -/
def evolve (steps : List Step) : Mesh := steps.foldl step empty

theorem WellFormed.step (h : m.WellFormed) : ∀ s : Step, (m.step s).WellFormed
  | .edit change => h.edit change
  | .play event => h.play event

/-- **Whatever is done to a mesh, both ends of every link agree.** -/
theorem wellFormed_evolve (steps : List Step) : (evolve steps).WellFormed :=
  List.foldlRecOn (motive := WellFormed) steps _ wellFormed_empty fun _ h s _ => h.step s

/-! ## Components -/

/-- **The search for a component ends with it.** -/
theorem WellFormed.searched_component (h : m.WellFormed) {x : NodeId} (hx : m.contains x = true) :
    Component.Searched m.successors (.ofIds [x]) [x] (m.component x) := by
  rw [component_eq hx]
  exact Component.searched_reach (mem_ids_toFinset.2 hx) h.successors_closed m.card_ids_le

/-- Where links lead to, they lead back from. -/
theorem WellFormed.path_symm (h : m.WellFormed) : Std.Symm (Relation.ReflTransGen m.Linked) :=
  have : Std.Symm m.Linked := ⟨fun a b hab => by rwa [Linked, h.symm]⟩
  Relation.ReflTransGen.stdSymm

/-- A member of a component has the same component. -/
theorem WellFormed.component_eq_of_mem (h : m.WellFormed) {x y : NodeId} (hy : y ∈ m.component x) :
    m.component y = m.component x := by
  obtain ⟨hx, hxy⟩ := h.mem_component.1 hy
  have hyx : Relation.ReflTransGen m.Linked y x := h.path_symm.symm _ _ hxy
  refine IdSet.ext fun z => ?_
  rw [h.mem_component, h.mem_component, and_iff_right (h.contains_of_mem_component hy).2,
    and_iff_right hx]
  exact ⟨hxy.trans, hyx.trans⟩

/-- **Two nodes are connected if and only if they have the same component.** -/
theorem WellFormed.mem_component_iff_eq (h : m.WellFormed) {x y : NodeId} (hy : m.contains y = true) :
    y ∈ m.component x ↔ m.component y = m.component x := by
  refine ⟨h.component_eq_of_mem, fun heq => ?_⟩
  rw [← heq, h.mem_component]
  exact ⟨hy, .refl⟩

end Mesh

/-! ## Two sets compared -/

namespace IdSet
variable (s t : IdSet)

/-- What the first set has and the second one lacks, ascending. -/
def lacking (s t : IdSet) : List NodeId := s.keys.filter fun id => !t.contains id

variable {s t} in
theorem mem_lacking_iff {id : NodeId} : id ∈ lacking s t ↔ id ∈ s ∧ id ∉ t := by
  rw [lacking, List.mem_filter, IdMap.mem_keys, Bool.not_eq_true', ← Bool.not_eq_true]
  rfl

theorem lacking_sorted : (lacking s t).Pairwise (· < ·) := s.keys_sorted.filter _

theorem card_seenSet : (Component.seenSet s).card = s.size :=
  (List.toFinset_card_of_nodup s.keys_nodup).trans (List.length_map Prod.fst)

theorem card_sdiff_seenSet :
    (Component.seenSet s \ Component.seenSet t).card = (lacking s t).length := by
  have hset : Component.seenSet s \ Component.seenSet t = (lacking s t).toFinset := by
    ext id
    rw [Finset.mem_sdiff, Component.mem_seenSet, Component.mem_seenSet, List.mem_toFinset,
      mem_lacking_iff]
  rw [hset, List.toFinset_card_of_nodup ((lacking_sorted s t).imp fun h => NodeId.ne_of_lt h)]

/-- Either set with what it lacks of the other one is their union. -/
theorem size_add_missing : t.size + (lacking s t).length = s.size + (lacking t s).length := by
  have hs := Finset.card_sdiff_add_card (Component.seenSet s) (Component.seenSet t)
  have ht := Finset.card_sdiff_add_card (Component.seenSet t) (Component.seenSet s)
  rw [Finset.union_comm, ← hs, card_sdiff_seenSet, card_sdiff_seenSet, card_seenSet,
    card_seenSet] at ht
  omega

/-- Two sets of which neither lacks anything of the other one are equal. -/
theorem eq_iff_lacking : t = s ↔ lacking s t = [] ∧ lacking t s = [] := by
  simp only [List.eq_nil_iff_forall_not_mem, mem_lacking_iff, not_and, not_not]
  refine ⟨fun he => he ▸ ⟨fun _ h => h, fun _ h => h⟩, fun ⟨hst, hts⟩ => ?_⟩
  exact IdSet.ext fun id => ⟨hts id, hst id⟩

end IdSet

namespace Mesh

/-- **A mesh is an undirected graph**, after any changes and events.  Both ends of a link list each
other with the same cost, no node is its own neighbour, and every neighbour is known.  The search for
the component of a known node ends, and the component is what the node is connected to; that of an
unknown node is empty.  Of two known nodes each is in the component of the other exactly if both have
the same one.  A view that is compared with the mesh has converged exactly if it is the component; what
it lacks and what it has besides are listed in ascending order, and what is known and missing is as much
as what is expected and besides. -/
theorem evolve_undirected (steps : List Step) :
    let m := evolve steps
    ((∀ a b c, (b, c) ∈ m.neighbors a ↔ (a, c) ∈ m.neighbors b) ∧
      (∀ a c, (a, c) ∉ m.neighbors a) ∧
      ∀ a b c, (b, c) ∈ m.neighbors a → m.contains b = true) ∧
    (∀ x,
      (m.contains x = true → Component.Searched m.successors (.ofIds [x]) [x] (m.component x)) ∧
      (m.contains x = false → m.component x = ∅) ∧
      ∀ y, y ∈ m.component x ↔ m.contains x = true ∧
        Relation.ReflTransGen (fun a b => ∃ c, (b, c) ∈ m.neighbors a) x y) ∧
    (∀ x y, m.contains x = true → m.contains y = true →
      (y ∈ m.component x ↔ m.component y = m.component x)) ∧
    ∀ x known,
      let c := m.convergence x known
      (c.converged = true ↔ known = m.component x) ∧
      (c.missing.Pairwise (· < ·) ∧ ∀ id, id ∈ c.missing ↔ id ∈ m.component x ∧ id ∉ known) ∧
      (c.extra.Pairwise (· < ·) ∧ ∀ id, id ∈ c.extra ↔ id ∈ known ∧ id ∉ m.component x) ∧
      c.known + c.missing.length = c.expected + c.extra.length ∧
      c.known = known.size ∧ c.expected = (m.component x).size := by
  intro m
  have h : m.WellFormed := wellFormed_evolve steps
  have hlinked : (fun a b => ∃ c, (b, c) ∈ m.neighbors a) = m.Linked := by
    funext a b
    simp only [mem_neighbors_iff, Linked, Option.ne_none_iff_exists']
  refine ⟨⟨fun a b c => ?_, fun a c hac => ?_, fun a b c hbc => ?_⟩, fun x => ⟨h.searched_component,
    fun hx => ?_, fun y => ?_⟩, fun x y _ hy => h.mem_component_iff_eq hy, fun x known => ?_⟩
  · rw [mem_neighbors_iff, mem_neighbors_iff, h.symm]
  · exact h.ne_of_link? (mem_neighbors_iff.1 hac) rfl
  · rw [mem_neighbors_iff] at hbc
    exact h.contains_right (hbc ▸ Option.some_ne_none c)
  · rw [component, if_neg (Bool.eq_false_iff.1 hx)]
  · rw [hlinked, h.mem_component]
  · refine ⟨?_, ⟨IdSet.lacking_sorted _ known, fun id => IdSet.mem_lacking_iff⟩,
      ⟨IdSet.lacking_sorted known _, fun id => IdSet.mem_lacking_iff⟩,
      IdSet.size_add_missing (m.component x) known, rfl, rfl⟩
    rw [IdSet.eq_iff_lacking, Convergence.converged, Bool.and_eq_true, List.isEmpty_iff,
      List.isEmpty_iff]
    rfl

end Mesh
end MeshView
