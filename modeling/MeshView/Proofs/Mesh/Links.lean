/-
# The links of a mesh

A mesh is observed through the cost of a node (`Mesh.cost?`), whether it answers (`isOnline`) and
the cost of the link that one node holds to another (`Mesh.link?`).  In a well-formed mesh both ends
of a link hold it with the same cost and no node is linked to itself; so links join known nodes.
Every mesh that is built by the five changes is well-formed (`wellFormed_build`).
-/

import MeshView.Mesh
import MeshView.Proofs.Component
import Mathlib.Data.Sym.Sym2

namespace MeshView
namespace Mesh

/-- The cost of a node, if it has one. -/
def cost? (m : Mesh) (id : NodeId) : Option Cost := (m.site? id).bind Site.cost

/-- The node is known and answers requests. -/
def isOnline (m : Mesh) (id : NodeId) : Bool := ((m.site? id).map Site.online).getD false

/-- The cost of the link that `a` holds to `b`. -/
def link? (m : Mesh) (a b : NodeId) : Option Cost := (m.site? a).bind fun s => s.links.get? b

/-- Both ends hold a link with the same cost, and no node is linked to itself. -/
structure WellFormed (m : Mesh) : Prop where
  symm : ∀ a b, m.link? a b = m.link? b a
  loopless : ∀ a, m.link? a a = none

variable {m : Mesh}

theorem contains_iff_site? {id : NodeId} : m.contains id = true ↔ ∃ s, m.site? id = some s :=
  IdMap.contains_eq_true_iff

theorem contains_of_link? {a b : NodeId} (h : m.link? a b ≠ none) : m.contains a = true := by
  rw [contains_iff_site?]
  cases hs : m.site? a with
  | none => simp [link?, hs] at h
  | some s => exact ⟨s, rfl⟩

theorem WellFormed.contains_right (h : m.WellFormed) {a b : NodeId} (hab : m.link? a b ≠ none) :
    m.contains b = true :=
  contains_of_link? (h.symm a b ▸ hab)

theorem WellFormed.ne_of_link? (h : m.WellFormed) {a b : NodeId} {c : Cost}
    (hab : m.link? a b = some c) : a ≠ b := by
  rintro rfl
  exact Option.some_ne_none c (hab.symm.trans (h.loopless a))

theorem mem_neighbors_iff {a b : NodeId} {c : Cost} :
    (b, c) ∈ m.neighbors a ↔ m.link? a b = some c := by
  rw [neighbors, link?]
  cases m.site? a with
  | none => simp
  | some s => rw [Option.bind_some, IdMap.get?_eq_some_iff]

theorem exists_mem_neighbors_iff {a b : NodeId} :
    b ∈ (m.neighbors a).map Prod.fst ↔ m.link? a b ≠ none := by
  rw [List.mem_map, Option.ne_none_iff_exists']
  constructor
  · rintro ⟨⟨n, c⟩, hn, rfl⟩
    exact ⟨c, mem_neighbors_iff.1 hn⟩
  · rintro ⟨c, hc⟩
    exact ⟨(b, c), mem_neighbors_iff.2 hc, rfl⟩

/-! ## What a node tells -/

/-- A node tells its cost and its links. -/
theorem mem_localView_iff {id : NodeId} {r : Report} : r ∈ m.localView id ↔
    (∃ c, m.cost? id = some c ∧ r = .node id (some c)) ∨
      ∃ b c, m.link? id b = some c ∧ r = .link id b c := by
  rw [localView, cost?]
  cases hs : m.site? id with
  | none => simp [link?, hs]
  | some s =>
    have hlink : ∀ b c, m.link? id b = some c ↔ (b, c) ∈ s.links.entries := fun b c => by
      rw [link?, hs, Option.bind_some, IdMap.get?_eq_some_iff]
    show r ∈ s.neighborList.reports id ↔ _
    rw [NeighborList.reports, List.mem_append, Option.bind_some]
    refine or_congr ?_ ?_
    · cases hc : s.cost <;> simp [Site.neighborList, hc]
    · show r ∈ s.links.entries.map _ ↔ _
      rw [List.mem_map]
      constructor
      · rintro ⟨⟨b, c⟩, hn, rfl⟩
        exact ⟨b, c, (hlink b c).2 hn, rfl⟩
      · rintro ⟨b, c, hc, rfl⟩
        exact ⟨(b, c), (hlink b c).1 hc, rfl⟩

/-- A node that is online answers with what it would have reported itself; others fail. -/
theorem answer_cases (m : Mesh) (id : NodeId) :
    (m.isOnline id = true ∧ ∃ list, m.answer id = .ok list ∧ list.reports id = m.localView id) ∨
      (m.isOnline id = false ∧ ∃ failure, m.answer id = .error failure) := by
  rw [isOnline, answer, localView]
  cases m.site? id with
  | none => exact .inr ⟨rfl, _, rfl⟩
  | some s =>
    cases ho : s.online with
    | false => exact .inr ⟨by simp [ho], .unreachable id, by simp [ho]⟩
    | true => exact .inl ⟨by simp [ho], s.neighborList, by simp [ho], rfl⟩

/-- No node names a neighbour twice. -/
theorem neighbors_nodup_of_answer {id : NodeId} {list : NeighborList}
    (h : m.answer id = .ok list) : (list.neighbors.map Prod.fst).Nodup := by
  rw [answer] at h
  split at h
  · rename_i s _
    split at h
    · cases h
      exact s.links.keys_nodup
    · cases h
  · cases h

/-! ## Changes -/

section Change
variable (m) (id x y : NodeId)

theorem site?_onSite (change : Site → Site) : (m.onSite id change).site? x =
    if id = x then (m.site? x).map change else m.site? x :=
  IdMap.get?_modify m.sites id x change

theorem link?_onSite (change : Site → Site) (hlinks : ∀ s, (change s).links = s.links) :
    (m.onSite id change).link? x y = m.link? x y := by
  rw [link?, site?_onSite, link?]
  split
  · cases m.site? x with
    | none => rfl
    | some s => exact congrArg (fun links : IdMap Cost => links.get? y) (hlinks s)
  · rfl

theorem link?_onLinks (change : IdMap Cost → IdMap Cost) : (m.onLinks id change).link? x y =
    if id = x then (m.site? x).bind fun s => (change s.links).get? y else m.link? x y := by
  rw [link?, onLinks, site?_onSite]
  split
  · cases m.site? x <;> rfl
  · rfl

theorem link?_setCost (cost : Option Cost) : (m.setCost id cost).link? x y = m.link? x y := by
  cases cost with
  | none => rfl
  | some c => exact link?_onSite m id x y _ fun _ => rfl

@[simp] theorem contains_onLinks (change : IdMap Cost → IdMap Cost) :
    (m.onLinks id change).contains x = m.contains x := by
  show ((m.sites.modify id _).get? x).isSome = (m.sites.get? x).isSome
  rw [IdMap.get?_modify]
  split <;> simp

theorem link?_erase (b : NodeId) : (m.onLinks id (·.erase b)).link? x y =
    if id = x ∧ b = y then none else m.link? x y := by
  rw [link?_onLinks]
  by_cases hx : id = x
  · rw [if_pos hx, link?]
    by_cases hy : b = y <;> simp [hx, hy, IdMap.get?_erase]
  · simp [hx]

variable {m id}

theorem link?_insert (h : m.contains id = true) (b : NodeId) (cost : Cost) :
    (m.onLinks id (·.insert b cost)).link? x y =
      if id = x ∧ b = y then some cost else m.link? x y := by
  obtain ⟨s, hs⟩ := contains_iff_site?.1 h
  rw [link?_onLinks]
  by_cases hx : id = x
  · subst hx
    rw [if_pos rfl, link?, hs]
    by_cases hy : b = y <;> simp [hy, IdMap.get?_insert]
  · simp [hx]

theorem link?_addLink {a b : NodeId} (cost : Cost) (h : m.canLink a b = true) :
    (m.addLink a b cost).link? x y = if s(a, b) = s(x, y) then some cost else m.link? x y := by
  have hboth : m.contains a = true ∧ m.contains b = true := by
    simp only [canLink, Bool.and_eq_true] at h
    exact ⟨h.1.2, h.2⟩
  rw [addLink, if_pos h, link?_insert x y (by simpa using hboth.2),
    link?_insert x y hboth.1]
  simp only [Sym2.eq_iff]
  grind

theorem link?_removeLink (m : Mesh) (a b : NodeId) : (m.removeLink a b).link? x y =
    if s(a, b) = s(x, y) then none else m.link? x y := by
  rw [removeLink, link?_erase, link?_erase]
  simp only [Sym2.eq_iff]
  grind

/-- The links of a removed node go at both ends. -/
theorem WellFormed.link?_removeNode (h : m.WellFormed) (id : NodeId) :
    (m.removeNode id).link? x y = if id = x ∨ id = y then none else m.link? x y := by
  have hfold : ∀ (ns : List (NodeId × Cost)) (m : Mesh),
      (ns.foldl (fun m n => m.onLinks n.1 (·.erase id)) m).link? x y =
        if x ∈ ns.map Prod.fst ∧ id = y then none else m.link? x y := by
    intro ns
    induction ns with
    | nil => simp
    | cons n ns ih =>
      intro m
      rw [List.foldl_cons, ih, link?_erase]
      by_cases hx : n.1 = x
      · by_cases hy : id = y <;> simp [hx, hy]
      · simp only [hx, false_and, if_false, List.map_cons, List.mem_cons, Ne.symm hx, false_or]
  have hgone : ({ m with sites := m.sites.erase id } : Mesh).link? x y =
      if id = x then none else m.link? x y := by
    have hsite : ({ m with sites := m.sites.erase id } : Mesh).site? x =
        if id = x then none else m.site? x := IdMap.get?_erase m.sites id x
    rw [link?, hsite, link?]
    split <;> rfl
  have hlisted : x ∈ (m.neighbors id).map Prod.fst ↔ m.link? x id ≠ none := by
    rw [exists_mem_neighbors_iff, h.symm]
  rw [removeNode, hfold, hgone, if_congr (and_congr_left' hlisted) rfl rfl]
  by_cases hx : id = x
  · simp [hx]
  · by_cases hy : id = y
    · subst hy
      by_cases hl : m.link? x id = none <;> simp [hx, hl]
    · simp [hx, hy]

theorem link?_addNode (m : Mesh) (address : String) (cost : Option Cost) :
    (m.addNode address cost).link? x y = m.link? x y := by
  unfold addNode
  dsimp only
  split
  · exact link?_setCost m _ x y cost
  · rename_i hnew
    have hsite : ∀ s, ({ m with sites := m.sites.insert (.ofAddress address) s } : Mesh).site? x =
        if NodeId.ofAddress address = x then some s else m.site? x := fun s =>
      IdMap.get?_insert m.sites _ x s
    rw [link?, hsite, link?]
    split
    · rename_i hx
      have : m.site? x = none := by
        rw [← hx]
        exact IdMap.contains_eq_false_iff.1 (by simpa [Mesh.contains] using hnew)
      rw [this]
      rfl
    · rfl

end Change

/-- A change of a mesh. -/
inductive Edit where
  | addNode (address : String) (cost : Option Cost)
  | addLink (a b : NodeId) (cost : Cost)
  | removeLink (a b : NodeId)
  | removeNode (id : NodeId)
  | setOnline (id : NodeId) (online : Bool)

def edit (m : Mesh) : Edit → Mesh
  | .addNode address cost => m.addNode address cost
  | .addLink a b cost => m.addLink a b cost
  | .removeLink a b => m.removeLink a b
  | .removeNode id => m.removeNode id
  | .setOnline id online => m.setOnline id online

/-- The mesh that changes make of the empty one. -/
def build (edits : List Edit) : Mesh := edits.foldl edit empty

theorem wellFormed_empty : empty.WellFormed := ⟨fun _ _ => rfl, fun _ => rfl⟩

theorem ne_of_canLink {a b : NodeId} (h : m.canLink a b = true) : a ≠ b := by
  simp only [canLink, Bool.and_eq_true, decide_eq_true_eq] at h
  exact h.1.1

theorem WellFormed.edit (h : m.WellFormed) (e : Edit) : (m.edit e).WellFormed := by
  cases e with
  | addNode address cost =>
    refine ⟨fun x y => ?_, fun x => ?_⟩
    · exact (link?_addNode x y m address cost).trans
        ((h.symm x y).trans (link?_addNode y x m address cost).symm)
    · exact (link?_addNode x x m address cost).trans (h.loopless x)
  | addLink a b cost =>
    show (m.addLink a b cost).WellFormed
    by_cases hl : m.canLink a b = true
    · have hne := ne_of_canLink hl
      refine ⟨fun x y => ?_, fun x => ?_⟩
      · rw [link?_addLink x y cost hl, link?_addLink y x cost hl, h.symm, Sym2.eq_swap (a := y)]
      · rw [link?_addLink x x cost hl, h.loopless, if_neg]
        rw [Sym2.eq_iff]
        grind
    · rw [addLink, if_neg hl]
      exact h
  | removeLink a b =>
    refine ⟨fun x y => ?_, fun x => ?_⟩
    · show (m.removeLink a b).link? x y = (m.removeLink a b).link? y x
      rw [link?_removeLink, link?_removeLink, h.symm, Sym2.eq_swap (a := y)]
    · show (m.removeLink a b).link? x x = none
      rw [link?_removeLink, h.loopless, ite_self]
  | removeNode id =>
    refine ⟨fun x y => ?_, fun x => ?_⟩
    · show (m.removeNode id).link? x y = (m.removeNode id).link? y x
      rw [h.link?_removeNode, h.link?_removeNode, h.symm, if_congr or_comm rfl rfl]
    · show (m.removeNode id).link? x x = none
      rw [h.link?_removeNode, h.loopless, ite_self]
  | setOnline id online =>
    have hlink : ∀ x y, (m.setOnline id online).link? x y = m.link? x y := fun x y =>
      link?_onSite m id x y _ fun _ => rfl
    refine ⟨fun x y => ?_, fun x => ?_⟩
    · exact (hlink x y).trans ((h.symm x y).trans (hlink y x).symm)
    · exact (hlink x x).trans (h.loopless x)

/-- Whatever changes a mesh is built by, both ends of every link agree. -/
theorem wellFormed_build (edits : List Edit) : (build edits).WellFormed :=
  List.foldlRecOn (motive := WellFormed) edits _ wellFormed_empty fun _ h e _ => h.edit e

end Mesh
end MeshView
