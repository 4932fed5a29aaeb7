/-
# Meshes built from lists

Scenarios and random meshes are built alike: nodes are added from one list, and links between them
from another one.  An entry may name a node or a pair that an earlier one has named, so what comes out
is said by the lists alone.  A node stands under the first address of its identity and has the last cost
that is told of it (`address?_addNodes`, `cost?_addNodes`), and two different nodes are linked at the
last cost that is given to the pair, from either end (`link?_addLinks`).

The links of a mesh are a set of pairs (`edges`), of which each is listed by both of its ends
(`WellFormed.length_sides`).
-/

import MeshView.Mesh.Survey
import MeshView.Proofs.Latest
import MeshView.Proofs.Mesh.Play
import Mathlib.Algebra.BigOperators.Group.Finset.Basic

namespace MeshView
namespace Mesh
variable {m : Mesh}

/-! ## The address of a node -/

/-- The address under which a node was added first. -/
def address? (m : Mesh) (id : NodeId) : Option String := (m.site? id).map Site.address

theorem contains_eq_address? (m : Mesh) (id : NodeId) : m.contains id = (m.address? id).isSome :=
  (Option.isSome_map ..).symm

section Address
variable (m) (id x : NodeId)

theorem address?_onSite (change : Site → Site) (hsame : ∀ s, (change s).address = s.address) :
    (m.onSite id change).address? x = m.address? x := by
  rw [address?, site?_onSite, address?]
  split
  · rw [Option.map_map]
    exact congrFun (congrArg Option.map (funext hsame)) _
  · rfl

theorem address?_onLinks (change : IdMap Cost → IdMap Cost) :
    (m.onLinks id change).address? x = m.address? x :=
  address?_onSite m id x _ fun _ => rfl

theorem address?_setCost (cost : Option Cost) : (m.setCost id cost).address? x = m.address? x := by
  cases cost with
  | none => rfl
  | some c => exact address?_onSite m id x _ fun _ => rfl

theorem address?_addLink (a b : NodeId) (cost : Cost) :
    (m.addLink a b cost).address? x = m.address? x := by
  rw [addLink]
  split
  · rw [address?_onLinks, address?_onLinks]
  · rfl

/-- A node that is known keeps its address. -/
theorem address?_addNode (address : String) (cost : Option Cost) :
    (m.addNode address cost).address? x =
      (m.address? x).or (if NodeId.ofAddress address = x then some address else none) := by
  unfold addNode
  dsimp only
  split
  · rename_i hknown
    rw [address?_setCost]
    split
    · rename_i hx
      rw [contains_eq_address?, hx] at hknown
      obtain ⟨old, hold⟩ := Option.isSome_iff_exists.1 hknown
      rw [hold, Option.some_or]
    · rw [Option.or_none]
  · rename_i hnew
    have hsite : ∀ s, ({ m with sites := m.sites.insert (.ofAddress address) s } : Mesh).site? x =
        if NodeId.ofAddress address = x then some s else m.site? x := fun s =>
      IdMap.get?_insert m.sites _ x s
    rw [address?, hsite]
    split
    · rename_i hx
      rw [contains_eq_address?, hx, Bool.not_eq_true, Option.isSome_eq_false_iff,
        Option.isNone_iff_eq_none] at hnew
      rw [hnew, Option.none_or]
      rfl
    · rw [Option.or_none]
      rfl

/-- The new cost, if one is given, and the old one otherwise. -/
theorem cost?_addNode (address : String) (cost : Option Cost) :
    (m.addNode address cost).cost? x =
      (if NodeId.ofAddress address = x then cost else none).or (m.cost? x) := by
  rw [cost?_eq_node?, node?_addNode]
  split
  · rfl
  · rw [Option.none_or, cost?_eq_node?]

end Address

/-! ## Nodes from a list -/

section Nodes
variable (m) (nodes : List (String × Option Cost)) (id : NodeId)

/-- Adds nodes in their order. -/
def addNodes : Mesh := nodes.foldl (fun m n => m.addNode n.1 n.2) m

/-- The cost that an entry tells of a node. -/
def told (n : String × Option Cost) : Option Cost := if NodeId.ofAddress n.1 = id then n.2 else none

theorem link?_addNodes (a b : NodeId) : (m.addNodes nodes).link? a b = m.link? a b :=
  List.foldlRecOn (motive := fun m' : Mesh => m'.link? a b = m.link? a b) nodes _ rfl
    fun m' hm n _ => (link?_addNode a b m' n.1 n.2).trans hm

theorem cost?_addNodes :
    (m.addNodes nodes).cost? id = (latest (told id) nodes).or (m.cost? id) :=
  foldl_latest _ (fun m : Mesh => m.cost? id) (P := fun _ => True) nodes
    (fun _ _ _ _ => trivial) (fun m _ n _ => m.cost?_addNode id n.1 n.2) trivial

/-- The identity of the first address is compared first. -/
theorem find?_cons_eq_or (address : String) (rest : List String) :
    (address :: rest).find? (NodeId.ofAddress · = id) =
      (if NodeId.ofAddress address = id then some address else none).or
        (rest.find? (NodeId.ofAddress · = id)) := by
  -- a match on the comparison, as `List.find?_cons` leaves it, would have the identity computed
  by_cases h : NodeId.ofAddress address = id
  · rw [if_pos h, Option.some_or]
    exact List.find?_cons_of_pos (p := (NodeId.ofAddress · = id)) (decide_eq_true h)
  · rw [if_neg h, Option.none_or]
    exact List.find?_cons_of_neg (p := (NodeId.ofAddress · = id)) fun hd => h (of_decide_eq_true hd)

/-- Entries after the first one of an identity do not change its address. -/
theorem address?_addNodes : (m.addNodes nodes).address? id =
    (m.address? id).or ((nodes.map Prod.fst).find? (NodeId.ofAddress · = id)) := by
  induction nodes generalizing m with
  | nil => rw [List.map_nil, List.find?_nil, Option.or_none, addNodes, List.foldl_nil]
  | cons n nodes ih =>
    show ((m.addNode n.1 n.2).addNodes nodes).address? id = _
    rw [ih, address?_addNode, Option.or_assoc, List.map_cons, find?_cons_eq_or]

variable {m nodes id}

theorem contains_addNodes : (m.addNodes nodes).contains id = true ↔
    m.contains id = true ∨ ∃ address ∈ nodes.map Prod.fst, NodeId.ofAddress address = id := by
  rw [contains_eq_address?, address?_addNodes, Option.isSome_or, Bool.or_eq_true,
    ← contains_eq_address?, List.find?_isSome]
  simp only [decide_eq_true_eq]

theorem WellFormed.addNodes (h : m.WellFormed) : (m.addNodes nodes).WellFormed :=
  h.of_link?_eq fun a b => m.link?_addNodes nodes a b

theorem AllOnline.addNodes (h : m.AllOnline) : (m.addNodes nodes).AllOnline :=
  List.foldlRecOn (motive := AllOnline) nodes _ h fun _ hm n _ => hm.addNode n.1 n.2

end Nodes

/-! ## Links from a list -/

/-- The pair of nodes that an entry names. -/
def pair (l : NodeId × NodeId × Cost) : Sym2 NodeId := s(l.1, l.2.1)

theorem isDiag_pair {l : NodeId × NodeId × Cost} : (pair l).IsDiag ↔ l.1 = l.2.1 :=
  Sym2.mk_isDiag_iff

/-- The cost that an entry gives to a pair, in either direction. -/
def given (p : Sym2 NodeId) (l : NodeId × NodeId × Cost) : Option Cost :=
  if pair l = p then some l.2.2 else none

theorem canLink_iff {a b : NodeId} :
    m.canLink a b = true ↔ a ≠ b ∧ m.contains a = true ∧ m.contains b = true := by
  simp only [canLink, Bool.and_eq_true, decide_eq_true_eq, and_assoc]

/-- A link of a node to itself gives nothing to a pair of two different ones. -/
theorem link?_addLink_eq_or {l : NodeId × NodeId × Cost} {a b : NodeId} (hne : a ≠ b)
    (hl : m.contains l.1 = true ∧ m.contains l.2.1 = true) :
    (m.addLink l.1 l.2.1 l.2.2).link? a b = (given s(a, b) l).or (m.link? a b) := by
  by_cases hself : l.1 = l.2.1
  · have hother : pair l ≠ s(a, b) := fun he =>
      hne (Sym2.mk_isDiag_iff.1 (he ▸ isDiag_pair.2 hself))
    rw [addLink, if_neg fun h => (canLink_iff.1 h).1 hself, given, if_neg hother, Option.none_or]
  · rw [link?_addLink a b l.2.2 (canLink_iff.2 ⟨hself, hl⟩), given]
    split
    · rename_i hab
      rw [if_pos (show pair l = s(a, b) from hab), Option.some_or]
    · rename_i hab
      rw [if_neg (show ¬ pair l = s(a, b) from hab), Option.none_or]

section Links
variable (m) (links : List (NodeId × NodeId × Cost)) (id : NodeId)

/-- Adds links in their order. -/
def addLinks : Mesh := links.foldl (fun m l => m.addLink l.1 l.2.1 l.2.2) m

theorem addLinks_append (more : List (NodeId × NodeId × Cost)) :
    m.addLinks (links ++ more) = (m.addLinks links).addLinks more :=
  List.foldl_append

/-- Links are added between nodes, and leave them as they are. -/
theorem node?_addLinks : (m.addLinks links).node? id = m.node? id :=
  List.foldlRecOn (motive := fun m' : Mesh => m'.node? id = m.node? id) links _ rfl
    fun m' hm l _ => (m'.node?_addLink id _ _ l.2.2).trans hm

theorem address?_addLinks : (m.addLinks links).address? id = m.address? id :=
  List.foldlRecOn (motive := fun m' : Mesh => m'.address? id = m.address? id) links _ rfl
    fun m' hm l _ => (m'.address?_addLink id _ _ l.2.2).trans hm

theorem contains_addLinks : (m.addLinks links).contains id = m.contains id :=
  contains_congr (m.node?_addLinks links id)

variable {m links}

theorem WellFormed.addLinks (h : m.WellFormed) : (m.addLinks links).WellFormed :=
  List.foldlRecOn (motive := WellFormed) links _ h fun _ hm l _ => hm.edit (.addLink l.1 l.2.1 l.2.2)

section Known
variable (hknown : ∀ l ∈ links, m.contains l.1 = true ∧ m.contains l.2.1 = true)
  {a b : NodeId} (hne : a ≠ b)
include hknown hne

theorem link?_addLinks :
    (m.addLinks links).link? a b = (latest (given s(a, b)) links).or (m.link? a b) := by
  rw [addLinks]
  have hkeep : ∀ m' : Mesh, (∀ id, m'.contains id = m.contains id) → ∀ l ∈ links, ∀ id,
      (m'.addLink l.1 l.2.1 l.2.2).contains id = m.contains id := fun m' hm l _ id => by
    rw [contains_congr (m'.node?_addLink id _ _ l.2.2), hm]
  have hstep : ∀ m' : Mesh, (∀ id, m'.contains id = m.contains id) → ∀ l ∈ links,
      (m'.addLink l.1 l.2.1 l.2.2).link? a b = (given s(a, b) l).or (m'.link? a b) :=
    fun m' hm l hl => link?_addLink_eq_or hne (by rw [hm, hm]; exact hknown l hl)
  exact foldl_latest _ (fun m : Mesh => m.link? a b) links hkeep hstep fun _ => rfl

theorem linked_addLinks :
    (m.addLinks links).Linked a b ↔ s(a, b) ∈ links.map pair ∨ m.Linked a b := by
  have hnone : latest (given s(a, b)) links = none ↔ s(a, b) ∉ links.map pair := by
    simp only [latest_eq_none_iff, given, ite_eq_right_iff, reduceCtorEq, imp_false, List.mem_map,
      not_exists, not_and]
  rw [Linked, link?_addLinks hknown hne, Ne, Option.or_eq_none_iff, hnone, Linked, not_and_or,
    not_not]

end Known
end Links

/-! ## Pairs that are linked -/

section Edges
variable (m)

/-- The pairs of nodes that are linked. -/
def edges : Finset (Sym2 NodeId) := (m.sides.map pair).toFinset

variable {m} {a b : NodeId}

theorem mem_sides {c : Cost} : (a, b, c) ∈ m.sides ↔ m.link? a b = some c := by
  simp only [sides, List.mem_flatMap, List.mem_map, Prod.mk.injEq]
  constructor
  · rintro ⟨id, -, n, hn, rfl, rfl, rfl⟩
    exact mem_neighbors_iff.1 hn
  · intro h
    have ha : m.contains a = true := contains_of_link? (h ▸ Option.some_ne_none c)
    exact ⟨a, IdMap.mem_keys.2 ha, (b, c), mem_neighbors_iff.2 h, rfl, rfl, rfl⟩

theorem nodup_sides (m : Mesh) : m.sides.Nodup := by
  refine List.nodup_flatMap.2 ⟨fun id _ => ?_, ?_⟩
  · have hentries : (m.neighbors id).Nodup := by
      rw [neighbors]
      split
      · exact List.Nodup.of_map Prod.fst (IdMap.keys_nodup _)
      · exact List.nodup_nil
    refine hentries.map fun n n' hn => ?_
    simp only [Prod.mk.injEq, true_and] at hn
    exact Prod.ext hn.1 hn.2
  · refine m.sites.keys_nodup.imp fun hne => ?_
    rintro ⟨x, y, c⟩ hx hx'
    obtain ⟨n, -, hn⟩ := List.mem_map.1 hx
    obtain ⟨n', -, hn'⟩ := List.mem_map.1 hx'
    exact hne ((Prod.mk.inj hn).1.trans (Prod.mk.inj hn').1.symm)

variable (h : m.WellFormed)
include h

theorem WellFormed.mem_edges : s(a, b) ∈ m.edges ↔ m.Linked a b := by
  simp only [edges, List.mem_toFinset, List.mem_map, Linked, Option.ne_none_iff_exists']
  constructor
  · rintro ⟨⟨x, y, c⟩, hside, hpair⟩
    rw [mem_sides] at hside
    rcases Sym2.eq_iff.1 hpair with ⟨rfl, rfl⟩ | ⟨rfl, rfl⟩
    · exact ⟨c, hside⟩
    · exact ⟨c, h.symm x y ▸ hside⟩
  · rintro ⟨c, hc⟩
    exact ⟨(a, b, c), mem_sides.2 hc, rfl⟩

/-- Entries between different known nodes add their pairs and nothing else. -/
theorem WellFormed.edges_addLinks {links : List (NodeId × NodeId × Cost)}
    (hlinks : ∀ l ∈ links, m.canLink l.1 l.2.1 = true) :
    (m.addLinks links).edges = (links.map pair).toFinset ∪ m.edges := by
  have hknown : ∀ l ∈ links, m.contains l.1 = true ∧ m.contains l.2.1 = true := fun l hl =>
    (canLink_iff.1 (hlinks l hl)).2
  ext p
  induction p with
  | h a b =>
    rw [h.addLinks.mem_edges, Finset.mem_union, h.mem_edges, List.mem_toFinset]
    by_cases hne : a = b
    · subst hne
      have hno : s(a, a) ∉ links.map pair := by
        intro hmem
        obtain ⟨l, hl, hpair⟩ := List.mem_map.1 hmem
        have hself : l.1 = l.2.1 := isDiag_pair.1 (hpair ▸ Sym2.mk_isDiag_iff.2 rfl)
        exact (canLink_iff.1 (hlinks l hl)).1 hself
      rw [or_iff_right hno, Linked, Linked, h.addLinks.loopless, h.loopless]
    · exact linked_addLinks hknown hne

/-- **Every link has two sides.** -/
theorem WellFormed.length_sides : m.sides.length = 2 * m.edges.card := by
  have hmaps : Set.MapsTo pair (m.sides.toFinset : Set (NodeId × NodeId × Cost)) m.edges :=
    fun side hside => by
      simp only [edges, Finset.mem_coe, List.mem_toFinset, List.mem_map] at hside ⊢
      exact ⟨side, hside, rfl⟩
  have htwo : ∀ p ∈ m.edges, (m.sides.toFinset.filter (pair · = p)).card = 2 := by
    intro p hp
    induction p with
    | h a b =>
      obtain ⟨c, hc⟩ := Option.ne_none_iff_exists'.1 (h.mem_edges.1 hp)
      have hne : a ≠ b := h.ne_of_link? hc
      have hends : m.sides.toFinset.filter (pair · = s(a, b)) = {(a, b, c), (b, a, c)} := by
        ext ⟨x, y, d⟩
        simp only [Finset.mem_filter, List.mem_toFinset, mem_sides, pair, Sym2.eq_iff,
          Finset.mem_insert, Finset.mem_singleton, Prod.mk.injEq]
        constructor
        · rintro ⟨hd, ⟨rfl, rfl⟩ | ⟨rfl, rfl⟩⟩
          · exact .inl ⟨rfl, rfl, Option.some.inj (hd.symm.trans hc)⟩
          · exact .inr ⟨rfl, rfl, Option.some.inj (hd.symm.trans ((h.symm x y).trans hc))⟩
        · rintro (⟨rfl, rfl, rfl⟩ | ⟨rfl, rfl, rfl⟩)
          · exact ⟨hc, .inl ⟨rfl, rfl⟩⟩
          · exact ⟨(h.symm x y).trans hc, .inr ⟨rfl, rfl⟩⟩
      rw [hends, Finset.card_pair fun he => hne (Prod.mk.inj he).1]
  rw [← List.toFinset_card_of_nodup m.nodup_sides, Finset.card_eq_sum_card_fiberwise hmaps,
    Finset.sum_const_nat htwo, Nat.mul_comm]

/-- Links are counted once. -/
theorem WellFormed.linkCount_eq : m.linkCount = m.edges.card := by
  rw [linkCount, h.length_sides, Nat.mul_div_cancel_left _ Nat.two_pos]

end Edges

/-- A mesh has as many nodes as there are identities that it knows. -/
theorem size_eq_length {ids : List NodeId} (hids : ids.Nodup)
    (h : ∀ id, m.contains id = true ↔ id ∈ ids) : m.size = ids.length := by
  rw [← m.length_ids]
  exact ((List.perm_ext_iff_of_nodup m.sites.keys_nodup hids).2 fun id =>
    IdMap.mem_keys.trans (h id)).length_eq

end Mesh
end MeshView
