/-
# What removals leave

A removal takes a link away, or a node with its links, and prunes.  `Without` describes the first
part: some nodes and links go and every other entry stays.  Pruning detaches one node after another;
a node that is detached was not reached from the local node, so neither were its neighbours, and no
entry of a node that stays is touched (`held?_prune`).  Together they leave exactly what the local
node still reaches, with all its entries but those for what was taken away (`Remainder`).
-/

import MeshView.Proofs.Component.Queue
import MeshView.Proofs.Topology.Removal

namespace MeshView
namespace Topology

/-- A link joins the two nodes. -/
def Linked (t : Topology) (a b : NodeId) : Prop := t.link? s(a, b) ≠ none

/-- Links lead from the local node to the other one.  Without a local node nothing is reached. -/
def Reaches (t : Topology) (id : NodeId) : Prop :=
  t.contains t.localId = true ∧ Relation.ReflTransGen t.Linked t.localId id

variable {t t' : Topology}

/-! ## The search in a topology -/

theorem mem_storedNeighbours {a b : NodeId} :
    b ∈ t.storedNeighbours a ↔ (∃ c, (b, c) ∈ t.links a) ∧ t.contains b = true := by
  rw [storedNeighbours, List.mem_filter, List.mem_map]
  simp only [Prod.exists, exists_and_right, exists_eq_right]

theorem mem_stored {id : NodeId} : id ∈ t.nodes.keys.toFinset ↔ t.contains id = true := by
  rw [List.mem_toFinset, IdMap.mem_keys]
  rfl

theorem storedNeighbours_stored (t : Topology) : ∀ a ∈ t.nodes.keys.toFinset, ∀ b,
    Component.Leads t.storedNeighbours a b → b ∈ t.nodes.keys.toFinset :=
  fun _ _ _ hb => mem_stored.2 (mem_storedNeighbours.1 hb).2

theorem card_stored_le (t : Topology) : t.nodes.keys.toFinset.card ≤ t.size :=
  (List.toFinset_card_le _).trans_eq (List.length_map Prod.fst)

/-- **The search ends in every graph**, well-formed or not, and what it found is the component. -/
theorem searched_reachable (hlocal : t.contains t.localId = true) :
    Component.Searched t.storedNeighbours (.ofIds [t.localId]) [t.localId] t.reachable := by
  rw [reachable, if_pos hlocal]
  exact Component.searched_reach (mem_stored.2 hlocal) t.storedNeighbours_stored t.card_stored_le

namespace WellFormed

theorem leads_iff (h : t.WellFormed) {a b : NodeId} :
    Component.Leads t.storedNeighbours a b ↔ t.Linked a b := by
  show b ∈ t.storedNeighbours a ↔ _
  rw [mem_storedNeighbours, Linked, Option.ne_none_iff_exists']
  simp only [h.mem_links_iff_link?]
  constructor
  · exact fun hb => hb.1
  · rintro ⟨c, hc⟩
    have hab : t.link? s(a, b) ≠ none := hc ▸ Option.some_ne_none c
    exact ⟨⟨c, hc⟩, (h.contains_of_link? hab).2⟩

theorem mem_reachable_iff (h : t.WellFormed) {id : NodeId} : id ∈ t.reachable ↔ t.Reaches id := by
  rw [reachable, Reaches]
  split
  · rename_i hlocal
    rw [Component.mem_reach_iff (mem_stored.2 hlocal) t.storedNeighbours_stored t.card_stored_le]
    have hleads : Component.Leads t.storedNeighbours = t.Linked :=
      funext fun a => funext fun b => propext h.leads_iff
    rw [hleads, and_iff_right hlocal]
  · rename_i hlocal
    refine ⟨fun hid => ?_, fun hid => absurd hid.1 hlocal⟩
    obtain ⟨_, hv⟩ := IdMap.mem_iff.1 hid
    cases hv

/-- What is reached is stored. -/
theorem contains_of_reaches (h : t.WellFormed) {id : NodeId} (hid : t.Reaches id) :
    t.contains id = true := by
  obtain ⟨hlocal, hpath⟩ := hid
  cases hpath with
  | refl => exact hlocal
  | tail _ hab => exact (h.contains_of_link? hab).2

end WellFormed

theorem Reaches.step {a b : NodeId} (ha : t.Reaches a) (hab : t.Linked a b) : t.Reaches b :=
  ⟨ha.1, ha.2.tail hab⟩

theorem Linked.symm {a b : NodeId} (h : t.Linked a b) : t.Linked b a := by
  rwa [Linked, Sym2.eq_swap] at h

theorem linked_of_held? (h : t.WellFormed) {a b : NodeId} (hab : t.held? a b ≠ none) :
    t.Linked a b := fun hnone => hab (h.link?_eq_none_iff.1 hnone).1

/-! ## Detaching -/

section Detach
variable (t) (id x y : NodeId)

@[simp] theorem isFetched_unlink (a b : NodeId) :
    (t.unlink a b).topology.isFetched x = t.isFetched x :=
  unlink_induction (P := fun t' => t'.isFetched x = t.isFetched x) t a b
    (fun t' id change h => (isFetched_onAdjacency t' id change x).trans h) rfl

theorem isFetched_erase : (t.erase id).isFetched x = if id = x then false else t.isFetched x := by
  rw [isFetched, vertex?_erase, isFetched]
  split <;> rfl

theorem isFetched_each_unlink (ids : List NodeId) :
    (t.each (·.unlink id) ids).topology.isFetched x = t.isFetched x :=
  each_induction (P := fun t' => t'.isFetched x = t.isFetched x) _ t ids
    (fun t' n _ h => (isFetched_unlink t' x id n).trans h) rfl

/-- A node that is detached was not stored, or its links go before it goes itself. -/
theorem topology_detach : (t.detach id).topology = t ∧ t.contains id = false ∨
    ∃ v, t.vertex? id = some v ∧ (t.detach id).topology =
      ((t.each (·.unlink id) v.adjacency.neighbours).topology.erase id) := by
  rw [detach]
  cases hv : t.vertex? id with
  | none => exact .inl ⟨rfl, contains_eq_false_iff.2 hv⟩
  | some v => exact .inr ⟨v, rfl, rfl⟩

theorem cost?_detach : (t.detach id).topology.cost? x = if id = x then none else t.cost? x := by
  rcases topology_detach t id with ⟨h, hid⟩ | ⟨v, -, h⟩
  · rw [h]
    split
    · rename_i hx
      rw [← hx, cost?_of_not_contains hid]
    · rfl
  · rw [h, cost?_erase, cost?_each_unlink]

theorem isFetched_detach :
    (t.detach id).topology.isFetched x = if id = x then false else t.isFetched x := by
  rcases topology_detach t id with ⟨h, hid⟩ | ⟨v, -, h⟩
  · rw [h]
    split
    · rename_i hx
      rw [← hx, isFetched_of_not_contains hid]
    · rfl
  · rw [h, isFetched_erase, isFetched_each_unlink]

variable {t}

/-- No entry of the node is left, and no entry for it. -/
theorem WellFormed.held?_detach (h : t.WellFormed) :
    (t.detach id).topology.held? x y = if id ∈ s(x, y) then none else t.held? x y := by
  rw [if_congr Sym2.mem_iff rfl rfl]
  rcases topology_detach t id with ⟨heq, hid⟩ | ⟨v, hv, heq⟩
  · rw [heq]
    split
    · rename_i hxy
      by_contra hheld
      have hboth : t.contains x = true ∧ t.contains y = true :=
        ⟨contains_of_held? hheld, h.contains_right hheld⟩
      rcases hxy with rfl | rfl
      · rw [hid] at hboth
        exact Bool.false_ne_true hboth.1
      · rw [hid] at hboth
        exact Bool.false_ne_true hboth.2
    · rfl
  · rw [heq, held?_erase, held?_each_unlink]
    by_cases hx : id = x
    · rw [if_pos hx, if_pos (Or.inl hx)]
    · rw [if_neg hx]
      by_cases hy : id = y
      · rw [if_pos (c := id = x ∨ id = y) (.inr hy)]
        split
        · rfl
        · rename_i hno
          by_contra hheld
          refine hno ⟨x, (h.mem_neighbours_iff hv).2 ?_, hy ▸ Sym2.eq_swap⟩
          exact (linked_of_held? h (hy ▸ hheld)).symm
      · have hother : ¬ ∃ n ∈ v.adjacency.neighbours, s(id, n) = s(x, y) := by
          rintro ⟨n, -, hn⟩
          rcases Sym2.eq_iff.1 hn with ⟨hx', -⟩ | ⟨hy', -⟩
          · exact hx hx'
          · exact hy hy'
        rw [if_neg hother, if_neg (not_or.2 ⟨hx, hy⟩)]

end Detach

/-! ## Pruning -/

section Each
variable (t) (ids : List NodeId) (x y : NodeId)

theorem cost?_each_detach :
    (t.each detach ids).topology.cost? x = if x ∈ ids then none else t.cost? x := by
  induction ids generalizing t with
  | nil => simp [unchanged]
  | cons id ids ih =>
    rw [each_cons]
    show ((t.detach id).topology.each detach ids).topology.cost? x = _
    rw [ih, cost?_detach]
    by_cases hx : id = x
    · simp [hx]
    · simp [hx, Ne.symm hx]

theorem isFetched_each_detach :
    (t.each detach ids).topology.isFetched x = if x ∈ ids then false else t.isFetched x := by
  induction ids generalizing t with
  | nil => simp [unchanged]
  | cons id ids ih =>
    rw [each_cons]
    show ((t.detach id).topology.each detach ids).topology.isFetched x = _
    rw [ih, isFetched_detach]
    by_cases hx : id = x
    · simp [hx]
    · simp [hx, Ne.symm hx]

variable {t}

theorem WellFormed.held?_each_detach (h : t.WellFormed) :
    (t.each detach ids).topology.held? x y =
      if ∃ id ∈ ids, id ∈ s(x, y) then none else t.held? x y := by
  induction ids generalizing t with
  | nil => simp [unchanged]
  | cons id ids ih =>
    rw [each_cons]
    show ((t.detach id).topology.each detach ids).topology.held? x y = _
    rw [ih (h.detach_removal id).wellFormed, h.held?_detach]
    by_cases hid : id ∈ s(x, y)
    · rw [if_pos hid, ite_self, if_pos ⟨id, List.mem_cons_self, hid⟩]
    · simp only [List.exists_mem_cons_iff, hid, false_or, if_false]

end Each

section Prune
variable (h : t.WellFormed) (x y : NodeId)

/-- What pruning removes, in the order in which it does. -/
def unreached (t : Topology) : List NodeId :=
  t.nodes.keys.filter fun id => !t.reachable.contains id

theorem mem_unreached_iff {x : NodeId} :
    x ∈ t.unreached ↔ t.contains x = true ∧ x ∉ t.reachable := by
  rw [unreached, List.mem_filter, IdMap.mem_keys, Bool.not_eq_true', ← Bool.not_eq_true]
  rfl

theorem prune_eq (t : Topology) : t.prune = t.each detach t.unreached := rfl

theorem cost?_prune (t : Topology) (x : NodeId) :
    t.prune.topology.cost? x = if x ∈ t.reachable then t.cost? x else none := by
  rw [prune_eq, cost?_each_detach, if_congr mem_unreached_iff rfl rfl]
  by_cases hx : x ∈ t.reachable
  · simp [hx]
  · by_cases hstored : t.contains x = true
    · simp [hx, hstored]
    · rw [if_neg fun hboth => hstored hboth.1, if_neg hx]
      by_contra hcost
      exact hstored (contains_iff_cost?.2 hcost)

include h

/-- **Pruning leaves what the local node reaches.** -/
theorem WellFormed.contains_prune :
    t.prune.topology.contains x = true ↔ t.Reaches x := by
  rw [contains_iff_cost?, cost?_prune, ← h.mem_reachable_iff]
  split
  · rename_i hx
    exact iff_of_true (contains_iff_cost?.1 (h.contains_of_reaches (h.mem_reachable_iff.1 hx))) hx
  · rename_i hx
    exact iff_of_false (fun hnone => hnone rfl) hx

variable {x}

theorem WellFormed.not_mem_unreached (hx : t.Reaches x) : x ∉ t.unreached :=
  fun hmem => (mem_unreached_iff.1 hmem).2 (h.mem_reachable_iff.2 hx)

theorem WellFormed.isFetched_prune (hx : t.Reaches x) :
    t.prune.topology.isFetched x = t.isFetched x := by
  rw [prune_eq, isFetched_each_detach, if_neg (h.not_mem_unreached hx)]

/-- **No entry of a node that stays is touched**: whatever it is linked to stays as well. -/
theorem WellFormed.held?_prune (hxy : t.Reaches x ∨ t.Reaches y) :
    t.prune.topology.held? x y = t.held? x y := by
  rw [prune_eq, h.held?_each_detach]
  split
  · rename_i hid
    obtain ⟨id, hid, hmem⟩ := hid
    by_contra hheld
    have hlink : t.Linked x y := linked_of_held? h (Ne.symm hheld)
    have hboth : t.Reaches x ∧ t.Reaches y :=
      hxy.elim (fun hx => ⟨hx, hx.step hlink⟩) fun hy => ⟨hy.step hlink.symm, hy⟩
    rcases Sym2.mem_iff.1 hmem with rfl | rfl
    · exact h.not_mem_unreached hboth.1 hid
    · exact h.not_mem_unreached hboth.2 hid
  · rfl

theorem WellFormed.link?_prune (hx : t.Reaches x) :
    t.prune.topology.link? s(x, y) = t.link? s(x, y) := by
  have hwf := h.prune_removal.wellFormed
  rw [hwf.link?_mk, h.link?_mk, hwf.seen?_eq, h.seen?_eq, h.held?_prune y (.inl hx),
    h.held?_prune x (.inr hx)]

end Prune

/-! ## Both parts -/

/-- Some nodes and some links are taken away and nothing else changes. -/
structure Without (t : Topology) (gone : NodeId → Prop) (cut : Sym2 NodeId → Prop)
    (t' : Topology) : Prop where
  wellFormed : t'.WellFormed
  localId_eq : t'.localId = t.localId
  cost?_gone : ∀ id, gone id → t'.cost? id = none
  cost?_eq : ∀ id, ¬ gone id → t'.cost? id = t.cost? id
  isFetched_eq : ∀ id, ¬ gone id → t'.isFetched id = t.isFetched id
  held?_cut : ∀ a b, cut s(a, b) → t'.held? a b = none
  held?_eq : ∀ a b, ¬ cut s(a, b) → t'.held? a b = t.held? a b

/-- What the local node still reaches once some nodes and some links are taken away, with all
entries of these nodes but those for the links that are. -/
structure Remainder (t : Topology) (gone : NodeId → Prop) (cut : Sym2 NodeId → Prop)
    (t' : Topology) : Prop where
  contains_iff : ∀ id, t'.contains id = true ↔
    (t.contains t.localId = true ∧ ¬ gone t.localId) ∧
      Relation.ReflTransGen (fun a b => t.Linked a b ∧ ¬ cut s(a, b)) t.localId id
  cost?_eq : ∀ id, t'.contains id = true → t'.cost? id = t.cost? id
  isFetched_eq : ∀ id, t'.contains id = true → t'.isFetched id = t.isFetched id
  held?_cut : ∀ a b, cut s(a, b) → t'.held? a b = none
  held?_eq : ∀ a b, t'.contains a = true → ¬ cut s(a, b) → t'.held? a b = t.held? a b
  mirrored?_cut : ∀ a b, cut s(a, b) → t'.mirrored? a b = none
  mirrored?_eq : ∀ a b, t'.contains a = true → ¬ cut s(a, b) → t'.mirrored? a b = t.mirrored? a b

section Without
variable {gone : NodeId → Prop} {cut : Sym2 NodeId → Prop}

theorem Without.contains_iff (h : Without t gone cut t') (id : NodeId) :
    t'.contains id = true ↔ t.contains id = true ∧ ¬ gone id := by
  rw [contains_iff_cost?, contains_iff_cost?]
  by_cases hid : gone id
  · exact iff_of_false (fun hne => hne (h.cost?_gone id hid)) fun hne => hne.2 hid
  · rw [h.cost?_eq id hid, and_iff_left hid]

theorem Without.linked_iff (ht : t.WellFormed) (h : Without t gone cut t') (a b : NodeId) :
    t'.Linked a b ↔ t.Linked a b ∧ ¬ cut s(a, b) := by
  rw [Linked, Linked, ne_eq, h.wellFormed.link?_eq_none_iff, ne_eq, ht.link?_eq_none_iff]
  by_cases hcut : cut s(a, b)
  · rw [h.held?_cut a b hcut, h.held?_cut b a (Sym2.eq_swap ▸ hcut)]
    simp [hcut]
  · rw [h.held?_eq a b hcut, h.held?_eq b a (Sym2.eq_swap ▸ hcut), and_iff_left hcut]

theorem Without.reaches_iff (ht : t.WellFormed) (h : Without t gone cut t') (id : NodeId) :
    t'.Reaches id ↔ (t.contains t.localId = true ∧ ¬ gone t.localId) ∧
      Relation.ReflTransGen (fun a b => t.Linked a b ∧ ¬ cut s(a, b)) t.localId id := by
  have hlinked : t'.Linked = fun a b => t.Linked a b ∧ ¬ cut s(a, b) :=
    funext fun a => funext fun b => propext (h.linked_iff ht a b)
  rw [Reaches, h.localId_eq, h.contains_iff, hlinked]

/-- **Pruning after something was taken away.** -/
theorem Without.prune (ht : t.WellFormed) (h : Without t gone cut t') :
    Remainder t gone cut t'.prune.topology := by
  have hwf := h.wellFormed
  have hwf' : t'.prune.topology.WellFormed := hwf.prune_removal.wellFormed
  have hreach : ∀ id, t'.prune.topology.contains id = true → t'.Reaches id := fun id =>
    (hwf.contains_prune id).1
  -- a node that stays was not taken away
  have hstays : ∀ id, t'.prune.topology.contains id = true → ¬ gone id := fun id hid =>
    ((h.contains_iff id).1 (hwf.contains_of_reaches (hreach id hid))).2
  have hcut : ∀ a b, cut s(a, b) → t'.prune.topology.held? a b = none := by
    intro a b hab
    rcases hwf.prune_removal.held?_eq a b with hnone | hsame
    · exact hnone
    · exact hsame.trans (h.held?_cut a b hab)
  refine ⟨fun id => ?_, fun id hid => ?_, fun id hid => ?_, hcut, fun a b ha hab => ?_,
    fun a b hab => ?_, fun a b ha hab => ?_⟩
  · rw [hwf.contains_prune, h.reaches_iff ht]
  · rw [cost?_prune, if_pos (hwf.mem_reachable_iff.2 (hreach id hid)),
      h.cost?_eq id (hstays id hid)]
  · rw [hwf.isFetched_prune (hreach id hid), h.isFetched_eq id (hstays id hid)]
  · rw [hwf.held?_prune b (.inl (hreach a ha)), h.held?_eq a b hab]
  · rw [hwf'.mirrored_eq, hcut b a (Sym2.eq_swap ▸ hab)]
  · rw [hwf'.mirrored_eq, ht.mirrored_eq, hwf.held?_prune a (.inr (hreach a ha)),
      h.held?_eq b a (Sym2.eq_swap ▸ hab)]

end Without

theorem WellFormed.unlink_without (h : t.WellFormed) (a b : NodeId) :
    Without t (fun _ => False) (· = s(a, b)) (t.unlink a b).topology where
  wellFormed := h.unlink a b
  localId_eq := localId_unlink t a b
  cost?_gone _ := False.elim
  cost?_eq id _ := cost?_unlink t a b id
  isFetched_eq id _ := isFetched_unlink t id a b
  held?_cut x y hxy := by rw [held?_unlink, if_pos hxy.symm]
  held?_eq x y hxy := by rw [held?_unlink, if_neg (Ne.symm hxy)]

theorem WellFormed.detach_without (h : t.WellFormed) (id : NodeId) :
    Without t (· = id) (id ∈ ·) (t.detach id).topology where
  wellFormed := (h.detach_removal id).wellFormed
  localId_eq := (h.detach_removal id).localId_eq
  cost?_gone x hx := by rw [cost?_detach, if_pos hx.symm]
  cost?_eq x hx := by rw [cost?_detach, if_neg (Ne.symm hx)]
  isFetched_eq x hx := by rw [isFetched_detach, if_neg (Ne.symm hx)]
  held?_cut x y hxy := by rw [h.held?_detach, if_pos hxy]
  held?_eq x y hxy := by rw [h.held?_detach, if_neg hxy]

/-- **What the removal of a link leaves.** -/
theorem WellFormed.dropLink_remainder (h : t.WellFormed) (a b : NodeId) :
    Remainder t (fun _ => False) (· = s(a, b)) (t.dropLink a b).topology :=
  (h.unlink_without a b).prune h

/-- **What the removal of a node leaves.** -/
theorem WellFormed.dropNode_remainder (h : t.WellFormed) (id : NodeId) :
    Remainder t (· = id) (id ∈ ·) (t.dropNode id).topology :=
  (h.detach_without id).prune h

/-- What is left has the links that were not cut. -/
theorem Remainder.linked_iff {gone : NodeId → Prop} {cut : Sym2 NodeId → Prop}
    (h : Remainder t gone cut t') (ht : t.WellFormed) (ht' : t'.WellFormed) {a : NodeId}
    (ha : t'.contains a = true) (b : NodeId) : t'.Linked a b ↔ t.Linked a b ∧ ¬ cut s(a, b) := by
  rw [Linked, ht'.link?_mk, seen?, Linked, ht.link?_mk, seen?]
  by_cases hcut : cut s(a, b)
  · rw [h.held?_cut a b hcut, h.mirrored?_cut a b hcut]
    exact iff_of_false (fun hne => hne rfl) fun hne => hne.2 hcut
  · rw [h.held?_eq a b ha hcut, h.mirrored?_eq a b ha hcut, and_iff_left hcut]

end Topology
end MeshView
