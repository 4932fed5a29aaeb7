/-
# The entries of a topology

A topology is observed through lookups: the cost of a stored node (`cost?`), whether its own
adjacency was reported (`isFetched`), and for two identities the cost of the strong entry (`held?`)
and of the weak entry (`mirrored?`) that the first one has for the second.  Every operation is
described here by its effect on these four, so that nothing later looks into a vertex again.
-/

import MeshView.Report

namespace MeshView

namespace IdMap
variable {β : Type}

theorem contains_eq_true_iff {m : IdMap β} {id : NodeId} :
    m.contains id = true ↔ ∃ value, m.get? id = some value :=
  Option.isSome_iff_exists

theorem contains_eq_false_iff {m : IdMap β} {id : NodeId} :
    m.contains id = false ↔ m.get? id = none := by
  rw [contains, Option.isSome_eq_false_iff, Option.isNone_iff_eq_none]

theorem keys_nodup (m : IdMap β) : m.keys.Nodup :=
  m.keys_sorted.imp fun h => NodeId.ne_of_lt h

theorem mem_values {m : IdMap β} {value : β} :
    value ∈ m.values ↔ ∃ id, m.get? id = some value := by
  simp only [values, List.mem_map, get?_eq_some_iff, Prod.exists]
  constructor
  · rintro ⟨id, v, h, rfl⟩
    exact ⟨id, h⟩
  · rintro ⟨id, h⟩
    exact ⟨id, value, h, rfl⟩

theorem find_map {γ : Type} (f : β → γ) (id : NodeId) (entries : List (NodeId × β)) :
    find id (entries.map fun e => (e.1, f e.2)) = (find id entries).map f := by
  induction entries with
  | nil => rfl
  | cons e entries ih =>
    simp only [List.map_cons, find, ih]
    split <;> rfl

/-- Two maps whose values look alike list them alike. -/
theorem map_entries_congr {γ : Type} {m n : IdMap β} (f : β → γ)
    (h : ∀ id, (m.get? id).map f = (n.get? id).map f) :
    m.entries.map (fun e => (e.1, f e.2)) = n.entries.map fun e => (e.1, f e.2) := by
  refine eq_of_find_eq (List.pairwise_map.2 m.sorted) (List.pairwise_map.2 n.sorted) fun id => ?_
  rw [find_map, find_map]
  exact h id

end IdMap

namespace Topology

/-- The cost of a stored node; none for an identity that is not stored. -/
def cost? (t : Topology) (id : NodeId) : Option (Option Cost) := (t.vertex? id).map Vertex.cost

/-- The node is stored and its own adjacency has been reported. -/
def isFetched (t : Topology) (id : NodeId) : Bool :=
  ((t.vertex? id).map Vertex.fetched).getD false

/-- The cost of the strong entry that `a` has for `b`. -/
def held? (t : Topology) (a b : NodeId) : Option Cost :=
  (t.vertex? a).bind fun v => v.adjacency.strong.get? b

/-- The cost of the weak entry that `a` has for `b`. -/
def mirrored? (t : Topology) (a b : NodeId) : Option Cost :=
  (t.vertex? a).bind fun v => v.adjacency.weak.get? b

theorem vertex?_isSome_iff {t : Topology} {id : NodeId} :
    (t.vertex? id).isSome = true ↔ t.contains id = true := Iff.rfl

theorem contains_iff_cost? {t : Topology} {id : NodeId} :
    t.contains id = true ↔ t.cost? id ≠ none := by
  rw [← vertex?_isSome_iff, cost?, ne_eq, Option.map_eq_none_iff, Option.isSome_iff_ne_none]

theorem cost?_eq_some_none {t : Topology} {id : NodeId} (hid : t.contains id = true)
    (hno : (t.cost? id).join = none) : t.cost? id = some none := by
  obtain ⟨k, hk⟩ := Option.ne_none_iff_exists'.1 (contains_iff_cost?.1 hid)
  rw [hk, Option.join_some] at hno
  rw [hk, hno]

theorem contains_iff_vertex? {t : Topology} {id : NodeId} :
    t.contains id = true ↔ ∃ v, t.vertex? id = some v := IdMap.contains_eq_true_iff

theorem contains_eq_false_iff {t : Topology} {id : NodeId} :
    t.contains id = false ↔ t.vertex? id = none := IdMap.contains_eq_false_iff

section Missing
variable {t : Topology} {id : NodeId} (hid : t.contains id = false)
include hid

theorem cost?_of_not_contains : t.cost? id = none := by
  rw [cost?, contains_eq_false_iff.1 hid, Option.map_none]

theorem isFetched_of_not_contains : t.isFetched id = false := by
  rw [isFetched, contains_eq_false_iff.1 hid, Option.map_none, Option.getD_none]

theorem held?_of_not_contains (b : NodeId) : t.held? id b = none := by
  rw [held?, contains_eq_false_iff.1 hid, Option.bind_none]

end Missing

theorem contains_of_held? {t : Topology} {a b : NodeId} (h : t.held? a b ≠ none) :
    t.contains a = true := by
  rw [contains_iff_vertex?]
  cases hv : t.vertex? a with
  | none => simp [held?, hv] at h
  | some v => exact ⟨v, rfl⟩

theorem contains_of_mirrored? {t : Topology} {a b : NodeId} (h : t.mirrored? a b ≠ none) :
    t.contains a = true := by
  rw [contains_iff_vertex?]
  cases hv : t.vertex? a with
  | none => simp [mirrored?, hv] at h
  | some v => exact ⟨v, rfl⟩

theorem contains_of_isFetched {t : Topology} {id : NodeId} (hf : t.isFetched id = true) :
    t.contains id = true := by
  rw [contains_iff_vertex?]
  cases hv : t.vertex? id with
  | none => simp [isFetched, hv] at hf
  | some v => exact ⟨v, rfl⟩

/-- The local node alone, without links. -/
theorem vertex?_root (localId x : NodeId) : (root localId).vertex? x =
    if localId = x then some (.bare localId none) else none :=
  IdMap.get?_insert ∅ localId x _

theorem held?_root (localId x y : NodeId) : (root localId).held? x y = none := by
  rw [held?, vertex?_root]
  split <;> rfl

theorem mirrored?_root (localId x y : NodeId) : (root localId).mirrored? x y = none := by
  rw [mirrored?, vertex?_root]
  split <;> rfl

theorem contains_root_iff {localId x : NodeId} :
    (root localId).contains x = true ↔ localId = x := by
  rw [← vertex?_isSome_iff, vertex?_root]
  split
  · rename_i h
    exact ⟨fun _ => h, fun _ => rfl⟩
  · rename_i h
    exact ⟨nofun, fun he => absurd he h⟩

/-! ## A node is stored or removed -/

section Store
variable (t : Topology) (id : NodeId) (cost : Option Cost) (x y : NodeId)

theorem vertex?_store : (t.store id cost).vertex? x =
    if id = x then some (.bare id cost) else t.vertex? x :=
  IdMap.get?_insert t.nodes id x _

theorem vertex?_erase : (t.erase id).vertex? x = if id = x then none else t.vertex? x :=
  IdMap.get?_erase t.nodes id x

theorem cost?_store : (t.store id cost).cost? x = if id = x then some cost else t.cost? x := by
  rw [cost?, vertex?_store, cost?]
  split <;> rfl

theorem cost?_erase : (t.erase id).cost? x = if id = x then none else t.cost? x := by
  rw [cost?, vertex?_erase, cost?]
  split <;> rfl

theorem held?_erase : (t.erase id).held? x y = if id = x then none else t.held? x y := by
  rw [held?, vertex?_erase, held?]
  split <;> rfl

theorem mirrored?_erase :
    (t.erase id).mirrored? x y = if id = x then none else t.mirrored? x y := by
  rw [mirrored?, vertex?_erase, mirrored?]
  split <;> rfl

variable {t id} (hnew : t.contains id = false)
include hnew

theorem isFetched_store : (t.store id cost).isFetched x = t.isFetched x := by
  rw [isFetched, vertex?_store, isFetched]
  split
  · rename_i hx
    rw [← hx, contains_eq_false_iff.1 hnew]
    rfl
  · rfl

theorem held?_store : (t.store id cost).held? x y = t.held? x y := by
  rw [held?, vertex?_store, held?]
  split
  · rename_i hx
    rw [← hx, contains_eq_false_iff.1 hnew]
    rfl
  · rfl

theorem mirrored?_store : (t.store id cost).mirrored? x y = t.mirrored? x y := by
  rw [mirrored?, vertex?_store, mirrored?]
  split
  · rename_i hx
    rw [← hx, contains_eq_false_iff.1 hnew]
    rfl
  · rfl

end Store

/-! ## One vertex changes -/

theorem vertex?_onVertex (t : Topology) (id : NodeId) (change : Vertex → Vertex) (x : NodeId) :
    (t.onVertex id change).vertex? x =
      if id = x then (t.vertex? x).map change else t.vertex? x :=
  IdMap.get?_modify t.nodes id x change

/-- A change of one vertex stores nothing and removes nothing. -/
@[simp] theorem contains_onVertex (t : Topology) (id : NodeId) (change : Vertex → Vertex)
    (x : NodeId) : (t.onVertex id change).contains x = t.contains x := by
  have h : ∀ t : Topology, t.contains x = (t.vertex? x).isSome := fun _ => rfl
  rw [h, h, vertex?_onVertex]
  split <;> simp

theorem cost?_setCost (t : Topology) (id : NodeId) (cost : Cost) (x : NodeId) :
    (t.onVertex id (·.setCost cost)).cost? x =
      if id = x then (t.cost? x).map fun _ => some cost else t.cost? x := by
  rw [cost?, vertex?_onVertex, cost?]
  split
  · cases t.vertex? x <;> rfl
  · rfl

theorem isFetched_markFetched (t : Topology) (id x : NodeId) :
    (t.onVertex id .markFetched).isFetched x =
      if id = x then t.contains x else t.isFetched x := by
  rw [isFetched, vertex?_onVertex, isFetched]
  split
  · show _ = (t.vertex? x).isSome
    cases t.vertex? x <;> rfl
  · rfl

section Change
variable (t : Topology) (id : NodeId) {change : Vertex → Vertex} (x y : NodeId)

theorem cost?_onVertex (hchange : ∀ v, (change v).cost = v.cost) :
    (t.onVertex id change).cost? x = t.cost? x := by
  rw [cost?, vertex?_onVertex, cost?]
  split
  · cases t.vertex? x with
    | none => rfl
    | some v => exact congrArg some (hchange v)
  · rfl

theorem isFetched_onVertex (hchange : ∀ v, (change v).fetched = v.fetched) :
    (t.onVertex id change).isFetched x = t.isFetched x := by
  rw [isFetched, vertex?_onVertex, isFetched]
  split
  · cases t.vertex? x with
    | none => rfl
    | some v => exact hchange v
  · rfl

theorem held?_onVertex (hchange : ∀ v, (change v).adjacency = v.adjacency) :
    (t.onVertex id change).held? x y = t.held? x y := by
  rw [held?, vertex?_onVertex, held?]
  split
  · cases t.vertex? x with
    | none => rfl
    | some v => exact congrArg (fun a : Adjacency => a.strong.get? y) (hchange v)
  · rfl

theorem mirrored?_onVertex (hchange : ∀ v, (change v).adjacency = v.adjacency) :
    (t.onVertex id change).mirrored? x y = t.mirrored? x y := by
  rw [mirrored?, vertex?_onVertex, mirrored?]
  split
  · cases t.vertex? x with
    | none => rfl
    | some v => exact congrArg (fun a : Adjacency => a.weak.get? y) (hchange v)
  · rfl

theorem cost?_markFetched : (t.onVertex id .markFetched).cost? x = t.cost? x :=
  cost?_onVertex t id x fun _ => rfl

theorem held?_markFetched : (t.onVertex id .markFetched).held? x y = t.held? x y :=
  held?_onVertex t id x y fun _ => rfl

end Change

/-! ## One adjacency changes -/

section Adjacency
variable (t : Topology) (id : NodeId) (change : Adjacency → Adjacency) (x y : NodeId)

@[simp] theorem contains_onAdjacency : (t.onAdjacency id change).contains x = t.contains x :=
  contains_onVertex t id _ x

@[simp] theorem cost?_onAdjacency : (t.onAdjacency id change).cost? x = t.cost? x :=
  cost?_onVertex t id x fun _ => rfl

@[simp] theorem isFetched_onAdjacency :
    (t.onAdjacency id change).isFetched x = t.isFetched x :=
  isFetched_onVertex t id x fun _ => rfl

theorem held?_onAdjacency :
    (t.onAdjacency id change).held? x y =
      if id = x then (t.vertex? x).bind fun v => (change v.adjacency).strong.get? y
      else t.held? x y := by
  rw [held?, onAdjacency, vertex?_onVertex, held?]
  split
  · cases t.vertex? x <;> rfl
  · rfl

theorem mirrored?_onAdjacency :
    (t.onAdjacency id change).mirrored? x y =
      if id = x then (t.vertex? x).bind fun v => (change v.adjacency).weak.get? y
      else t.mirrored? x y := by
  rw [mirrored?, onAdjacency, vertex?_onVertex, mirrored?]
  split
  · cases t.vertex? x <;> rfl
  · rfl

end Adjacency

section Entry
variable (t : Topology) (a b : NodeId) (cost : Cost) (x y : NodeId)

theorem held?_dropStrong : (t.onAdjacency a (·.dropStrong b)).held? x y =
    if a = x ∧ b = y then none else t.held? x y := by
  rw [held?_onAdjacency]
  by_cases hx : a = x <;> by_cases hy : b = y <;>
    simp [hx, hy, Adjacency.dropStrong, IdMap.get?_erase, held?]

theorem mirrored?_dropStrong :
    (t.onAdjacency a (·.dropStrong b)).mirrored? x y = t.mirrored? x y := by
  rw [mirrored?_onAdjacency]
  split <;> rfl

theorem held?_dropWeak : (t.onAdjacency a (·.dropWeak b)).held? x y = t.held? x y := by
  rw [held?_onAdjacency]
  split <;> rfl

theorem mirrored?_dropWeak : (t.onAdjacency a (·.dropWeak b)).mirrored? x y =
    if a = x ∧ b = y then none else t.mirrored? x y := by
  rw [mirrored?_onAdjacency]
  by_cases hx : a = x <;> by_cases hy : b = y <;>
    simp [hx, hy, Adjacency.dropWeak, IdMap.get?_erase, mirrored?]

variable {t a} (ha : t.contains a = true)
include ha

theorem held?_setStrong : (t.onAdjacency a (·.setStrong b cost)).held? x y =
    if a = x ∧ b = y then some cost else t.held? x y := by
  obtain ⟨v, hv⟩ := contains_iff_vertex?.1 ha
  rw [held?_onAdjacency]
  by_cases hx : a = x
  · subst hx
    by_cases hy : b = y <;> simp [hv, hy, Adjacency.setStrong, IdMap.get?_insert, held?]
  · simp [hx]

theorem mirrored?_setWeak : (t.onAdjacency a (·.setWeak b cost)).mirrored? x y =
    if a = x ∧ b = y then some cost else t.mirrored? x y := by
  obtain ⟨v, hv⟩ := contains_iff_vertex?.1 ha
  rw [mirrored?_onAdjacency]
  by_cases hx : a = x
  · subst hx
    by_cases hy : b = y <;> simp [hv, hy, Adjacency.setWeak, IdMap.get?_insert, mirrored?]
  · simp [hx]

omit ha

theorem mirrored?_setStrong : (t.onAdjacency a (·.setStrong b cost)).mirrored? x y =
    if a = x ∧ b = y then none else t.mirrored? x y := by
  rw [← mirrored?_dropWeak, mirrored?_onAdjacency, mirrored?_onAdjacency]
  rfl

theorem held?_setWeak : (t.onAdjacency a (·.setWeak b cost)).held? x y =
    if a = x ∧ b = y then none else t.held? x y := by
  rw [← held?_dropStrong, held?_onAdjacency, held?_onAdjacency]
  rfl

end Entry
end Topology
end MeshView
