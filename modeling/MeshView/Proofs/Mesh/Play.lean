/-
# A mesh under events

Events never add a node.  They change the cost of one, remove one with its links, or add and remove
links; whatever they do, both ends of every link still agree (`WellFormed.play`), nodes that are
online stay so (`AllOnline.play`), and the mesh does not grow (`size_play_le`).

A node is observed apart from its links by `node?`, so that one lemma for each change says all that
does not concern links.
-/

import MeshView.Proofs.Mesh.Knowledge

namespace MeshView
namespace Mesh

/-- The cost of a node, if it has one, and whether it is online. -/
def node? (m : Mesh) (id : NodeId) : Option (Option Cost × Bool) :=
  (m.site? id).map fun s => (s.cost, s.online)

/-- A link joins the two nodes. -/
def Linked (m : Mesh) (a b : NodeId) : Prop := m.link? a b ≠ none

/-- Every node answers. -/
def AllOnline (m : Mesh) : Prop := ∀ id, m.contains id = true → m.isOnline id = true

variable {m m' : Mesh}

theorem contains_eq_node? (m : Mesh) (id : NodeId) : m.contains id = (m.node? id).isSome :=
  (Option.isSome_map ..).symm

theorem cost?_eq_node? (m : Mesh) (id : NodeId) : m.cost? id = (m.node? id).bind Prod.fst := by
  rw [cost?, node?]
  cases m.site? id <;> rfl

theorem contains_of_cost? {id : NodeId} {c : Cost} (h : m.cost? id = some c) :
    m.contains id = true := by
  rw [cost?_eq_node?] at h
  rw [contains_eq_node?]
  cases hn : m.node? id with
  | none => simp [hn] at h
  | some n => rfl

theorem isOnline_eq_node? (m : Mesh) (id : NodeId) :
    m.isOnline id = ((m.node? id).map Prod.snd).getD false := by
  rw [isOnline, node?, Option.map_map]
  rfl

theorem allOnline_iff : m.AllOnline ↔ ∀ id n, m.node? id = some n → n.2 = true := by
  constructor
  · intro h id n hn
    have honline := h id (by rw [contains_eq_node?, hn]; rfl)
    rwa [isOnline_eq_node?, hn] at honline
  · intro h id hid
    rw [contains_eq_node?] at hid
    obtain ⟨n, hn⟩ := Option.isSome_iff_exists.1 hid
    rw [isOnline_eq_node?, hn]
    exact h id n hn

theorem contains_congr {id : NodeId} (h : m'.node? id = m.node? id) :
    m'.contains id = m.contains id := by
  rw [contains_eq_node?, contains_eq_node?, h]

theorem cost?_congr {id : NodeId} (h : m'.node? id = m.node? id) : m'.cost? id = m.cost? id := by
  rw [cost?_eq_node?, cost?_eq_node?, h]

theorem AllOnline.congr (h : m.AllOnline) (hnode : ∀ id, m'.node? id = m.node? id) :
    m'.AllOnline := by
  rw [allOnline_iff] at h ⊢
  exact fun id n hn => h id n ((hnode id).symm.trans hn)

/-! ## What a change does to nodes -/

section Node
variable (m) (id x : NodeId)

theorem node?_onSite (change : Site → Site)
    (hsame : ∀ s, (change s).cost = s.cost ∧ (change s).online = s.online) :
    (m.onSite id change).node? x = m.node? x := by
  rw [node?, site?_onSite, node?]
  split
  · rw [Option.map_map]
    exact congrFun (congrArg Option.map (funext fun s => Prod.ext (hsame s).1 (hsame s).2)) _
  · rfl

@[simp] theorem node?_onLinks (change : IdMap Cost → IdMap Cost) :
    (m.onLinks id change).node? x = m.node? x :=
  node?_onSite m id x _ fun _ => ⟨rfl, rfl⟩

theorem node?_setCost (cost : Option Cost) : (m.setCost id cost).node? x =
    if id = x then (m.node? x).map fun n => (cost.or n.1, n.2) else m.node? x := by
  cases cost with
  | none =>
    show m.node? x = _
    cases m.node? x <;> simp
  | some c =>
    show (m.onSite id _).node? x = _
    rw [node?, site?_onSite, node?]
    split <;> simp [Function.comp_def]

@[simp] theorem contains_setCost (cost : Option Cost) :
    (m.setCost id cost).contains x = m.contains x := by
  rw [contains_eq_node?, contains_eq_node?, node?_setCost]
  split <;> simp

/-- The new cost of a known node, if one is given. -/
theorem cost?_setCost (cost : Option Cost) (hid : m.contains id = true) :
    (m.setCost id cost).cost? x = if id = x then cost.or (m.cost? x) else m.cost? x := by
  rw [cost?_eq_node?, node?_setCost, cost?_eq_node?]
  split
  · rename_i hx
    rw [contains_eq_node?, hx] at hid
    obtain ⟨n, hn⟩ := Option.isSome_iff_exists.1 hid
    rw [hn]
    rfl
  · rfl

theorem node?_addLink (a b : NodeId) (cost : Cost) : (m.addLink a b cost).node? x = m.node? x := by
  rw [addLink]
  split
  · rw [node?_onLinks, node?_onLinks]
  · rfl

theorem node?_removeLink (a b : NodeId) : (m.removeLink a b).node? x = m.node? x := by
  rw [removeLink, node?_onLinks, node?_onLinks]

theorem node?_removeNode : (m.removeNode id).node? x = if id = x then none else m.node? x := by
  have hfold : ∀ (ns : List (NodeId × Cost)) (m : Mesh),
      (ns.foldl (fun m n => m.onLinks n.1 (·.erase id)) m).node? x = m.node? x := by
    intro ns
    induction ns with
    | nil => exact fun _ => rfl
    | cons n ns ih => exact fun m => (ih _).trans (node?_onLinks m n.1 x _)
  have hgone : ({ m with sites := m.sites.erase id } : Mesh).site? x =
      if id = x then none else m.site? x := IdMap.get?_erase m.sites id x
  rw [removeNode, hfold, node?, hgone, node?]
  split <;> rfl

theorem node?_addNode (address : String) (cost : Option Cost) : (m.addNode address cost).node? x =
    if NodeId.ofAddress address = x then
      some (cost.or (m.cost? x), ((m.node? x).map Prod.snd).getD true)
    else m.node? x := by
  unfold addNode
  dsimp only
  split
  · rename_i hknown
    rw [node?_setCost]
    split
    · rename_i hx
      rw [contains_eq_node?, hx] at hknown
      obtain ⟨n, hn⟩ := Option.isSome_iff_exists.1 hknown
      rw [cost?_eq_node?, hn]
      rfl
    · rfl
  · rename_i hnew
    have hsite : ∀ s, ({ m with sites := m.sites.insert (.ofAddress address) s } : Mesh).site? x =
        if NodeId.ofAddress address = x then some s else m.site? x := fun s =>
      IdMap.get?_insert m.sites _ x s
    rw [node?, hsite]
    split
    · rename_i hx
      rw [contains_eq_node?, hx, Bool.not_eq_true, Option.isSome_eq_false_iff,
        Option.isNone_iff_eq_none] at hnew
      rw [cost?_eq_node?, hnew]
      simp
    · rfl

end Node

/-- A node that is added is online, unless it was known and offline. -/
theorem AllOnline.addNode (h : m.AllOnline) (address : String) (cost : Option Cost) :
    (m.addNode address cost).AllOnline := by
  rw [allOnline_iff] at h ⊢
  intro id n hn
  rw [node?_addNode] at hn
  split at hn
  · rw [← Option.some.inj hn]
    show ((m.node? id).map Prod.snd).getD true = true
    cases hold : m.node? id with
    | none => rfl
    | some n' => exact h id n' hold
  · exact h id n hn

/-! ## What a change does to links -/

theorem linked_setCost (m : Mesh) (id : NodeId) (cost : Option Cost) :
    (m.setCost id cost).Linked = m.Linked := by
  funext x y
  rw [Linked, link?_setCost, Linked]

theorem linked_addLink {a b : NodeId} (h : m.canLink a b = true) (cost : Cost) (x y : NodeId) :
    (m.addLink a b cost).Linked x y ↔ m.Linked x y ∨ s(a, b) = s(x, y) := by
  rw [Linked, link?_addLink x y cost h, Linked]
  split
  · rename_i hab
    exact iff_of_true (Option.some_ne_none cost) (.inr hab)
  · rename_i hab
    exact (or_iff_left hab).symm

theorem linked_removeLink (m : Mesh) (a b x y : NodeId) :
    (m.removeLink a b).Linked x y ↔ m.Linked x y ∧ ¬ s(x, y) = s(a, b) := by
  rw [Linked, link?_removeLink, Linked]
  split
  · rename_i hab
    exact iff_of_false (fun hne => hne rfl) fun hne => hne.2 hab.symm
  · rename_i hab
    exact (and_iff_left (Ne.symm hab)).symm

theorem WellFormed.linked_removeNode (h : m.WellFormed) (id x y : NodeId) :
    (m.removeNode id).Linked x y ↔ m.Linked x y ∧ ¬ id ∈ s(x, y) := by
  rw [Linked, h.link?_removeNode, Linked, Sym2.mem_iff]
  split
  · rename_i hid
    exact iff_of_false (fun hne => hne rfl) fun hne => hne.2 hid
  · rename_i hid
    exact (and_iff_left hid).symm

/-! ## Events -/

/-- The mesh after events, one after another. -/
def playAll (m : Mesh) (events : List (Event NodeId)) : Mesh :=
  events.foldl (fun m e => (m.play e).1) m

/-- What is reported of a node or of a link is part of the component of the local node; of a link, one
end is enough.  Links that are rejected are not reported. -/
def Admits (m : Mesh) (localId : NodeId) : Event NodeId → Prop
  | .node id _ => id ∈ m.component localId
  | .link a b _ => m.canLink a b = true → a ∈ m.component localId ∨ b ∈ m.component localId
  | _ => True

instance (m : Mesh) (localId : NodeId) (e : Event NodeId) : Decidable (m.Admits localId e) := by
  cases e <;> unfold Admits <;> infer_instance

/-- Every event is admitted when its turn comes. -/
def AdmitsAll (m : Mesh) (localId : NodeId) : List (Event NodeId) → Prop
  | [] => True
  | e :: events => m.Admits localId e ∧ AdmitsAll (m.play e).1 localId events

instance decidableAdmitsAll (localId : NodeId) :
    (events : List (Event NodeId)) → (m : Mesh) → Decidable (m.AdmitsAll localId events)
  | [], _ => isTrue trivial
  | e :: events, m =>
    have := decidableAdmitsAll localId events (m.play e).1
    inferInstanceAs (Decidable (m.Admits localId e ∧ AdmitsAll (m.play e).1 localId events))

theorem AdmitsAll.of_prefix {localId : NodeId} {played events : List (Event NodeId)}
    (h : m.AdmitsAll localId events) (hplayed : played <+: events) : m.AdmitsAll localId played := by
  induction played generalizing m events with
  | nil => trivial
  | cons e played ih =>
    obtain ⟨rest, rfl⟩ := hplayed
    exact ⟨h.1, ih h.2 (List.prefix_append played rest)⟩

/-- An event that raises no report leaves the mesh as it is. -/
theorem play_of_none {e : Event NodeId} (h : (m.play e).2 = none) : (m.play e).1 = m := by
  cases e with
  | node id cost => cases h
  | nodeGone id => cases h
  | linkGone a b => cases h
  | wait millis => rfl
  | link a b cost =>
    rw [play] at h ⊢
    split at h
    · cases h
    · rename_i hl
      rw [if_neg hl]

theorem WellFormed.of_link?_eq (h : m.WellFormed) (hlink : ∀ a b, m'.link? a b = m.link? a b) :
    m'.WellFormed where
  symm a b := by rw [hlink, hlink, h.symm]
  loopless a := (hlink a a).trans (h.loopless a)

theorem WellFormed.play (h : m.WellFormed) (e : Event NodeId) : (m.play e).1.WellFormed := by
  cases e with
  | node id cost => exact h.of_link?_eq fun x y => link?_setCost m id x y cost
  | nodeGone id => exact h.edit (.removeNode id)
  | link a b cost =>
    rw [Mesh.play]
    split
    · exact h.edit (.addLink a b cost)
    · exact h
  | linkGone a b => exact h.edit (.removeLink a b)
  | wait millis => exact h

theorem WellFormed.playAll (h : m.WellFormed) (events : List (Event NodeId)) :
    (m.playAll events).WellFormed := by
  induction events generalizing m with
  | nil => exact h
  | cons e events ih => exact ih (h.play e)

/-- No node comes in and none goes on or off line. -/
theorem node?_play (m : Mesh) (e : Event NodeId) (id : NodeId) :
    ((m.play e).1.node? id).map Prod.snd = (m.node? id).map Prod.snd ∨
      (m.play e).1.node? id = none := by
  cases e with
  | node x cost =>
    refine .inl ?_
    show ((m.setCost x cost).node? id).map _ = _
    rw [node?_setCost]
    split
    · rw [Option.map_map]
      rfl
    · rfl
  | nodeGone x =>
    show ((m.removeNode x).node? id).map _ = _ ∨ (m.removeNode x).node? id = none
    rw [node?_removeNode]
    split
    · exact .inr rfl
    · exact .inl rfl
  | link a b cost =>
    rw [play]
    split
    · exact .inl (congrArg _ (node?_addLink m id a b cost))
    · exact .inl rfl
  | linkGone a b => exact .inl (congrArg _ (node?_removeLink m id a b))
  | wait millis => exact .inl rfl

theorem contains_of_play {e : Event NodeId} {id : NodeId} (h : (m.play e).1.contains id = true) :
    m.contains id = true := by
  rw [contains_eq_node?] at h ⊢
  rcases m.node?_play e id with hsame | hnone
  · rw [← Option.isSome_map, ← hsame, Option.isSome_map, h]
  · rw [hnone] at h
    cases h

theorem AllOnline.play (h : m.AllOnline) (e : Event NodeId) : (m.play e).1.AllOnline := by
  rw [allOnline_iff] at h ⊢
  intro id n hn
  rcases m.node?_play e id with hsame | hnone
  · rw [hn, Option.map_some] at hsame
    obtain ⟨n', hn', heq⟩ := Option.map_eq_some_iff.1 hsame.symm
    exact heq ▸ h id n' hn'
  · rw [hnone] at hn
    cases hn

theorem AllOnline.playAll (h : m.AllOnline) (events : List (Event NodeId)) :
    (m.playAll events).AllOnline := by
  induction events generalizing m with
  | nil => exact h
  | cons e events ih => exact ih (h.play e)

/-- The sites alone decide what an event does. -/
theorem play_sites (hsites : m'.sites = m.sites) (e : Event NodeId) :
    (m'.play e).1.sites = (m.play e).1.sites ∧ (m'.play e).2 = (m.play e).2 := by
  have hfold : ∀ (id : NodeId) (ns : List (NodeId × Cost)) (m m' : Mesh), m'.sites = m.sites →
      (ns.foldl (fun m n => m.onLinks n.1 (·.erase id)) m').sites =
        (ns.foldl (fun m n => m.onLinks n.1 (·.erase id)) m).sites := by
    intro id ns
    induction ns with
    | nil => exact fun _ _ h => h
    | cons n ns ih =>
      exact fun m m' h => ih _ _ (congrArg (fun sites => sites.modify n.1 fun s =>
        { s with links := s.links.erase id }) h)
  obtain ⟨sites, requests⟩ := m
  obtain ⟨sites', requests'⟩ := m'
  cases hsites
  cases e with
  | node id cost => cases cost <;> exact ⟨rfl, rfl⟩
  | nodeGone id => exact ⟨hfold id _ _ _ rfl, rfl⟩
  | link a b cost =>
    by_cases hl : canLink ⟨sites, requests⟩ a b = true
    · have hl' : canLink ⟨sites, requests'⟩ a b = true := hl
      simp only [play, addLink, hl, hl', if_true, and_true]
      rfl
    · have hl' : ¬ canLink ⟨sites, requests'⟩ a b = true := hl
      rw [play, play, if_neg hl, if_neg hl']
      exact ⟨rfl, rfl⟩
  | linkGone a b => exact ⟨rfl, rfl⟩
  | wait millis => exact ⟨rfl, rfl⟩

/-! ## The size of a mesh -/

theorem size_le_of_contains (h : ∀ id, m'.contains id = true → m.contains id = true) :
    m'.size ≤ m.size := by
  rw [← m'.length_ids, ← m.length_ids]
  refine (m'.sites.keys_nodup.subperm fun id hid => ?_).length_le
  exact IdMap.mem_keys.2 (h id (IdMap.mem_keys.1 hid))

theorem size_play_le (m : Mesh) (e : Event NodeId) : (m.play e).1.size ≤ m.size :=
  size_le_of_contains fun _ => contains_of_play

theorem size_playAll_le (m : Mesh) (events : List (Event NodeId)) :
    (m.playAll events).size ≤ m.size := by
  induction events generalizing m with
  | nil => exact le_rfl
  | cons e events ih => exact (ih _).trans (m.size_play_le e)

/-! ## Components -/

/-- The component of a node is what its links lead to, if the node is known. -/
theorem WellFormed.mem_component (h : m.WellFormed) {localId id : NodeId} :
    id ∈ m.component localId ↔
      m.contains localId = true ∧ Relation.ReflTransGen m.Linked localId id := by
  by_cases hlocal : m.contains localId = true
  · rw [and_iff_right hlocal]
    exact h.mem_component_iff hlocal id
  · rw [component, if_neg hlocal]
    refine iff_of_false (fun hid => ?_) fun hid => hlocal hid.1
    obtain ⟨_, hv⟩ := IdMap.mem_iff.1 hid
    cases hv

/-- A component is made of known nodes, and a node that is not known has none. -/
theorem WellFormed.contains_of_mem_component (h : m.WellFormed) {localId id : NodeId}
    (hid : id ∈ m.component localId) : m.contains localId = true ∧ m.contains id = true := by
  obtain ⟨hlocal, hpath⟩ := h.mem_component.1 hid
  refine ⟨hlocal, ?_⟩
  cases hpath with
  | refl => exact hlocal
  | tail _ hab => exact h.contains_right hab

end Mesh
end MeshView
