/-
# Reports of nodes and links

A report of a node or a link stores what it names and changes costs, and it takes nothing away.
`cost?_reportNode`, `held?_reportEdge` and `cost?_reportLink` say what is known afterwards.  A link
report is made of three parts, of which the first two store the ends and the third joins them; each
of them leaves alone what the earlier ones changed, so their differences join to exact differences.
-/

import MeshView.Proofs.Topology.View

namespace MeshView
namespace Topology

/-- A sound change that takes no node and no link away. -/
structure Growth (t : Topology) (c : Change) : Prop extends Sound t c where
  stored : ∀ x, t.cost? x ≠ none → c.topology.cost? x ≠ none
  linked : ∀ p, t.link? p ≠ none → c.topology.link? p ≠ none

variable {t : Topology}

theorem Growth.unchanged (h : t.WellFormed) : Growth t t.unchanged where
  toSound := .unchanged h
  stored _ := id
  linked _ := id

/-! ## Nodes -/

section Node
variable (id : NodeId) (cost : Option Cost)

/-- A node is stored, takes another cost, or is as reported already. -/
theorem reportNode_cases (t : Topology) :
    (t.contains id = false ∧ t.reportNode id cost = ⟨t.store id cost, .nodeAdded id cost⟩) ∨
    (t.contains id = true ∧ ∃ c, cost = some c ∧ t.cost? id ≠ some (some c) ∧
      t.reportNode id cost = ⟨t.onVertex id (·.setCost c), .nodeCost id c⟩) ∨
    (t.contains id = true ∧ (∀ c, cost = some c → t.cost? id = some (some c)) ∧
      t.reportNode id cost = t.unchanged) := by
  cases hv : t.vertex? id with
  | none => exact .inl ⟨contains_eq_false_iff.2 hv, by rw [reportNode, hv]⟩
  | some v =>
    have hid : t.contains id = true := contains_iff_vertex?.2 ⟨v, hv⟩
    cases cost with
    | none => exact .inr (.inr ⟨hid, nofun, by simp only [reportNode, hv]⟩)
    | some c =>
      by_cases hc : v.cost = some c
      · refine .inr (.inr ⟨hid, fun c' hc' => ?_, by simp only [reportNode, hv, hc, if_true]⟩)
        rw [cost?, hv, ← hc', ← hc]
        rfl
      · refine .inr (.inl ⟨hid, c, rfl, ?_, by simp only [reportNode, hv, hc, if_false]⟩)
        simpa [cost?, hv] using hc

variable (t) (x y : NodeId)

/-- The reported cost, if one was reported, and the known one otherwise. -/
theorem cost?_reportNode : (t.reportNode id cost).topology.cost? x =
    if id = x then some (cost.or (t.cost? x).join) else t.cost? x := by
  rcases reportNode_cases id cost t with ⟨hid, h⟩ | ⟨hid, c, rfl, -, h⟩ | ⟨hid, hc, h⟩
  · rw [h, cost?_store]
    split
    · rename_i hx
      rw [← hx, cost?_of_not_contains hid, Option.join_none, Option.or_none]
    · rfl
  · rw [h, cost?_setCost]
    split
    · rename_i hx
      obtain ⟨k, hk⟩ := Option.ne_none_iff_exists'.1 (contains_iff_cost?.1 hid)
      rw [← hx, hk]
      rfl
    · rfl
  · rw [h]
    split
    · rename_i hx
      obtain ⟨k, hk⟩ := Option.ne_none_iff_exists'.1 (contains_iff_cost?.1 hid)
      show t.cost? x = _
      rw [← hx, hk]
      cases cost with
      | none => rfl
      | some c => exact hk.symm.trans (hc c rfl)
    · rfl

theorem held?_reportNode : (t.reportNode id cost).topology.held? x y = t.held? x y := by
  rcases reportNode_cases id cost t with ⟨hid, h⟩ | ⟨-, c, rfl, -, h⟩ | ⟨-, -, h⟩
  · rw [h, held?_store cost x y hid]
  · rw [h]
    exact held?_onVertex t id x y fun _ => rfl
  · rw [h, Topology.unchanged]

theorem isFetched_reportNode :
    (t.reportNode id cost).topology.isFetched x = t.isFetched x := by
  rcases reportNode_cases id cost t with ⟨hid, h⟩ | ⟨-, c, rfl, -, h⟩ | ⟨-, -, h⟩
  · rw [h, isFetched_store cost x hid]
  · rw [h]
    exact isFetched_onVertex t id x fun _ => rfl
  · rw [h, Topology.unchanged]

variable {t}

theorem WellFormed.reportNode (h : t.WellFormed) : (t.reportNode id cost).topology.WellFormed := by
  rcases reportNode_cases id cost t with ⟨hid, he⟩ | ⟨-, c, rfl, -, he⟩ | ⟨-, -, he⟩
  · rw [he]
    exact h.store cost hid
  · rw [he]
    exact h.onVertex id (fun _ => rfl) fun _ => rfl
  · rw [he]
    exact h

theorem WellFormed.link?_reportNode (h : t.WellFormed) :
    (t.reportNode id cost).topology.link? = t.link? :=
  h.link?_congr (h.reportNode id cost) (held?_reportNode t id cost)

theorem WellFormed.reportNode_sound (h : t.WellFormed) : Sound t (t.reportNode id cost) := by
  have hwf := h.reportNode id cost
  have hlink := h.link?_reportNode id cost
  rcases reportNode_cases id cost t with ⟨hid, he⟩ | ⟨hid, c, rfl, hc, he⟩ | ⟨-, -, he⟩
  · rw [he] at hwf hlink ⊢
    have hnone : t.cost? id = none := cost?_of_not_contains hid
    refine ⟨hwf, rfl, ⟨?_, ?_⟩, fun hd => by cases hd⟩
    · refine .single_added (k := id) hnone ?_ fun x hx => ?_
      · rw [view_nodes, cost?_store, if_pos rfl]
      · rw [view_nodes, cost?_store, if_neg (Ne.symm hx), view_nodes]
    · exact .of_eq hlink
  · rw [he] at hwf hlink ⊢
    have hstored := contains_iff_cost?.1 hid
    obtain ⟨k, hk⟩ := Option.ne_none_iff_exists'.1 hstored
    refine ⟨hwf, rfl, ⟨?_, ?_⟩, fun hd => by cases hd⟩
    · refine .single_changed (k := id) hstored hc ?_ fun x hx => ?_
      · rw [view_nodes, cost?_setCost, if_pos rfl, hk, Option.map_some]
      · rw [view_nodes, cost?_setCost, if_neg (Ne.symm hx), view_nodes]
    · exact .of_eq hlink
  · rw [he]
    exact .unchanged h

theorem WellFormed.reportNode_growth (h : t.WellFormed) : Growth t (t.reportNode id cost) where
  toSound := h.reportNode_sound id cost
  stored x hx := by
    rw [cost?_reportNode]
    split
    · exact Option.some_ne_none _
    · exact hx
  linked p hp := by rwa [h.link?_reportNode]

end Node

/-! ## Links -/

section Edge
variable {a b : NodeId} (cost : Cost)

/-- A link is new, takes another cost, or stays: the other end holds it, or it has this cost. -/
theorem WellFormed.reportEdge_cases (h : t.WellFormed) (ha : t.contains a = true) :
    (t.link? s(a, b) = none ∧ t.reportEdge a b cost = ⟨t.join a b cost, .linkAdded a b cost⟩) ∨
    (∃ current, t.held? a b = some current ∧ current ≠ cost ∧
      t.reportEdge a b cost = ⟨t.join a b cost, .linkCost a b cost⟩) ∨
    ((t.held? b a ≠ none ∨ t.held? a b = some cost) ∧ t.reportEdge a b cost = t.unchanged) := by
  obtain ⟨v, hv⟩ := contains_iff_vertex?.1 ha
  have hstrong : t.held? a b = v.adjacency.strong.get? b := by rw [held?, hv, Option.bind_some]
  have hweak : t.held? b a = v.adjacency.weak.get? b := by
    rw [← h.mirrored_eq, mirrored?, hv, Option.bind_some]
  have hhas : v.adjacency.has b = true ↔ t.held? a b ≠ none ∨ t.held? b a ≠ none := by
    rw [hstrong, hweak, Adjacency.has, Bool.or_eq_true, IdMap.contains, IdMap.contains,
      Option.isSome_iff_ne_none, Option.isSome_iff_ne_none]
  by_cases hab : v.adjacency.has b = true
  · cases hs : t.held? a b with
    | none =>
      refine .inr (.inr ⟨.inl ?_, ?_⟩)
      · exact (hhas.1 hab).resolve_left fun hne => hne hs
      · simp only [reportEdge, hv, hab, ← hstrong, hs, if_true]
    | some current =>
      by_cases hc : current = cost
      · exact .inr (.inr ⟨.inr (hc ▸ rfl),
          by simp only [reportEdge, hv, hab, ← hstrong, hs, hc, if_true]⟩)
      · exact .inr (.inl ⟨current, rfl, hc,
          by simp only [reportEdge, hv, hab, ← hstrong, hs, hc, if_true, if_false]⟩)
  · refine .inl ⟨h.link?_eq_none_iff.2 ?_, by simp [reportEdge, hv, hab]⟩
    rw [hhas, not_or, not_not, not_not] at hab
    exact hab

theorem topology_reportEdge (t : Topology) (a b : NodeId) :
    (t.reportEdge a b cost).topology = t ∨
      (t.reportEdge a b cost).topology = t.join a b cost := by
  unfold reportEdge
  split
  · exact .inl rfl
  · split
    · split
      · exact .inl rfl
      · split
        · exact .inl rfl
        · exact .inr rfl
    · exact .inr rfl

theorem cost?_reportEdge (t : Topology) (a b x : NodeId) :
    (t.reportEdge a b cost).topology.cost? x = t.cost? x := by
  rcases topology_reportEdge cost t a b with h | h
  · rw [h]
  · rw [h, join, cost?_onAdjacency, cost?_onAdjacency]

theorem isFetched_reportEdge (t : Topology) (a b x : NodeId) :
    (t.reportEdge a b cost).topology.isFetched x = t.isFetched x := by
  rcases topology_reportEdge cost t a b with h | h
  · rw [h]
  · rw [h, join, isFetched_onAdjacency, isFetched_onAdjacency]

theorem WellFormed.held?_reverse (h : t.WellFormed) {c : Cost} (hab : t.held? a b = some c) :
    t.held? b a = none :=
  h.held_once a b (by simp [hab])

section Ends
variable (h : t.WellFormed) (ha : t.contains a = true) (hne : a ≠ b)
include h ha hne

/-- A link that the other end does not hold takes the reported cost. -/
theorem WellFormed.held?_reportEdge (x y : NodeId) :
    (t.reportEdge a b cost).topology.held? x y =
      if a = x ∧ b = y ∧ t.held? b a = none then some cost else t.held? x y := by
  rcases h.reportEdge_cases cost ha with ⟨hl, he⟩ | ⟨c, hc, -, he⟩ | ⟨hc, he⟩
  · have hba := (h.link?_eq_none_iff.1 hl).2
    rw [he, held?_join cost ha hba hne]
    simp only [hba, and_true]
  · have hba := h.held?_reverse hc
    rw [he, held?_join cost ha hba hne]
    simp only [hba, and_true]
  · rw [he]
    split
    · rename_i hxy
      obtain ⟨rfl, rfl, hba⟩ := hxy
      exact hc.resolve_left fun hne => hne hba
    · rfl

variable (hb : t.contains b = true)
include hb

theorem WellFormed.reportEdge_sound : Sound t (t.reportEdge a b cost) := by
  have hcost : (t.reportEdge a b cost).topology.cost? = t.cost? :=
    funext (cost?_reportEdge cost t a b)
  rcases h.reportEdge_cases cost ha with ⟨hl, he⟩ | ⟨c, hc, hne', he⟩ | ⟨-, he⟩
  · have hba := (h.link?_eq_none_iff.1 hl).2
    have hlink := h.link?_join cost ha hb hba hne
    rw [he] at hcost ⊢
    refine ⟨h.join cost ha hb hba hne, rfl, ⟨?_, ?_⟩, nofun⟩
    · exact .of_eq hcost
    · refine .single_added (k := s(a, b)) hl ?_ fun p hp => ?_
      · rw [view_links, hlink, if_pos rfl]
      · rw [view_links, hlink, if_neg (Ne.symm hp), view_links]
  · have hba := h.held?_reverse hc
    have hlink := h.link?_join cost ha hb hba hne
    have hlisted : t.link? s(a, b) = some c := h.link?_eq_some_iff.2 (.inl hc)
    rw [he] at hcost ⊢
    refine ⟨h.join cost ha hb hba hne, rfl, ⟨?_, ?_⟩, nofun⟩
    · exact .of_eq hcost
    · refine .single_changed (k := s(a, b)) ?_ ?_ ?_ fun p hp => ?_
      · rw [view_links, hlisted]
        exact Option.some_ne_none c
      · rw [view_links, hlisted]
        exact fun heq => hne' (Option.some.inj heq)
      · rw [view_links, hlink, if_pos rfl]
      · rw [view_links, hlink, if_neg (Ne.symm hp), view_links]
  · rw [he]
    exact .unchanged h

theorem WellFormed.reportEdge_growth : Growth t (t.reportEdge a b cost) where
  toSound := h.reportEdge_sound cost ha hne hb
  stored x hx := by rwa [cost?_reportEdge]
  linked p hp := by
    rcases h.reportEdge_cases cost ha with ⟨hl, he⟩ | ⟨c, hc, -, he⟩ | ⟨-, he⟩
    · rw [he, h.link?_join cost ha hb (h.link?_eq_none_iff.1 hl).2 hne]
      split
      · exact Option.some_ne_none cost
      · exact hp
    · rw [he, h.link?_join cost ha hb (h.held?_reverse hc) hne]
      split
      · exact Option.some_ne_none cost
      · exact hp
    · rwa [he]

end Ends
end Edge

/-! ## Link reports -/

/-- The first part of a link report: both ends are stored. -/
def reportEnds (t : Topology) (a b : NodeId) : Change :=
  (t.reportNode a none).andThen (·.reportNode b none)

/-- The second part: the reporting node counts as fetched, and different ends are joined. -/
def reportFetched (t : Topology) (a b : NodeId) (cost : Cost) : Change :=
  let t := t.onVertex a .markFetched
  if a = b then t.unchanged else t.reportEdge a b cost

theorem reportLink_eq (t : Topology) (a b : NodeId) (cost : Cost) :
    t.reportLink a b cost = (t.reportEnds a b).andThen (·.reportFetched a b cost) := rfl

section Ends
variable (t) (a b x y : NodeId)

theorem cost?_reportEnds : (t.reportEnds a b).topology.cost? x =
    if a = x ∨ b = x then some (t.cost? x).join else t.cost? x := by
  show ((t.reportNode a none).topology.reportNode b none).topology.cost? x = _
  rw [cost?_reportNode, cost?_reportNode, Option.none_or, Option.none_or]
  by_cases ha : a = x <;> by_cases hb : b = x <;> simp [ha, hb]

theorem held?_reportEnds : (t.reportEnds a b).topology.held? x y = t.held? x y :=
  (held?_reportNode _ b none x y).trans (held?_reportNode t a none x y)

theorem isFetched_reportEnds : (t.reportEnds a b).topology.isFetched x = t.isFetched x :=
  (isFetched_reportNode _ b none x).trans (isFetched_reportNode t a none x)

theorem contains_reportEnds (hx : a = x ∨ b = x) :
    (t.reportEnds a b).topology.contains x = true := by
  rw [contains_iff_cost?, cost?_reportEnds, if_pos hx]
  exact Option.some_ne_none _

variable {t}

/-- The second end does not change what the first one changed. -/
theorem WellFormed.reportEnds_growth (h : t.WellFormed) : Growth t (t.reportEnds a b) := by
  have ha := h.reportNode_growth a none
  have hb := ha.wellFormed.reportNode_growth b none
  refine ⟨ha.toSound.andThen hb.toSound (fun x => ?_) fun p => .inl ?_,
    fun x hx => hb.stored x (ha.stored x hx), fun p hp => hb.linked p (ha.linked p hp)⟩
  · rw [cost?_reportNode t a, cost?_reportNode _ b, cost?_reportNode t a]
    cases hx : t.cost? x <;> grind
  · rw [h.link?_reportNode]

end Ends

section Fetched
variable (t) (a b : NodeId) (cost : Cost) (x y : NodeId)

theorem cost?_reportFetched : (t.reportFetched a b cost).topology.cost? x = t.cost? x := by
  have hmark := cost?_markFetched t a x
  unfold reportFetched
  dsimp only
  split
  · exact hmark
  · rw [cost?_reportEdge, hmark]

theorem isFetched_reportFetched : (t.reportFetched a b cost).topology.isFetched x =
    if a = x then t.contains x else t.isFetched x := by
  have hmark := isFetched_markFetched t a x
  unfold reportFetched
  dsimp only
  split
  · exact hmark
  · rw [isFetched_reportEdge, hmark]

variable {t a b} (h : t.WellFormed)
include h

theorem WellFormed.markFetched (a : NodeId) : (t.onVertex a .markFetched).WellFormed :=
  h.onVertex a (fun _ => rfl) fun _ => rfl

variable (ha : t.contains a = true)
include ha

theorem WellFormed.held?_reportFetched : (t.reportFetched a b cost).topology.held? x y =
    if a = x ∧ b = y ∧ a ≠ b ∧ t.held? b a = none then some cost else t.held? x y := by
  have hwf := h.markFetched a
  have hmark := held?_markFetched t a
  unfold reportFetched
  dsimp only
  split
  · rename_i hab
    rw [if_neg fun hxy => hxy.2.2.1 hab]
    exact hmark x y
  · rename_i hab
    rw [hwf.held?_reportEdge cost (by simpa using ha) hab, hmark, hmark]
    simp only [hab, ne_eq, not_false_eq_true, true_and]

/-- Being marked as fetched changes nothing that a view or a snapshot shows. -/
theorem WellFormed.reportFetched_growth (hb : t.contains b = true) :
    Growth t (t.reportFetched a b cost) := by
  have hwf := h.markFetched a
  have hsnapshot : (t.onVertex a .markFetched).snapshot = t.snapshot :=
    h.snapshot_congr hwf (cost?_markFetched t a) (held?_markFetched t a)
  have hview : (t.onVertex a .markFetched).view = t.view :=
    hwf.view_eq_of_snapshot_eq h hsnapshot
  have hgrowth : Growth (t.onVertex a .markFetched) (t.reportFetched a b cost) := by
    unfold reportFetched
    dsimp only
    split
    · exact .unchanged hwf
    · rename_i hab
      exact hwf.reportEdge_growth cost (by simpa using ha) hab (by simpa using hb)
  refine ⟨⟨hgrowth.wellFormed, hgrowth.localId_eq, hview ▸ hgrowth.exact, fun hd =>
    (hgrowth.quiet hd).trans hsnapshot⟩, fun x hx => hgrowth.stored x ?_,
    fun p hp => hgrowth.linked p ?_⟩
  · rwa [cost?_markFetched]
  · rwa [show (t.onVertex a .markFetched).link? = t.link? from congrArg View.links hview]

end Fetched

section Link
variable (t) (a b : NodeId) (cost : Cost) (x y : NodeId)

theorem cost?_reportLink : (t.reportLink a b cost).topology.cost? x =
    if a = x ∨ b = x then some (t.cost? x).join else t.cost? x :=
  (cost?_reportFetched _ a b cost x).trans (cost?_reportEnds t a b x)

theorem isFetched_reportLink : (t.reportLink a b cost).topology.isFetched x = true ↔
    a = x ∨ t.isFetched x = true := by
  rw [reportLink_eq]
  show (Topology.reportFetched _ a b cost).topology.isFetched x = true ↔ _
  rw [isFetched_reportFetched, isFetched_reportEnds]
  split
  · rename_i hx
    simp only [hx, true_or, iff_true]
    exact contains_reportEnds t x b x (.inl rfl)
  · rename_i hx
    simp only [hx, false_or]

variable {t}

theorem WellFormed.held?_reportLink (h : t.WellFormed) :
    (t.reportLink a b cost).topology.held? x y =
      if a = x ∧ b = y ∧ a ≠ b ∧ t.held? b a = none then some cost else t.held? x y := by
  have hends := h.reportEnds_growth a b
  have ha := contains_reportEnds t a b a (.inl rfl)
  rw [reportLink_eq]
  show (Topology.reportFetched _ a b cost).topology.held? x y = _
  rw [hends.wellFormed.held?_reportFetched cost x y ha, held?_reportEnds, held?_reportEnds]

theorem WellFormed.reportLink_growth (h : t.WellFormed) : Growth t (t.reportLink a b cost) := by
  have hends := h.reportEnds_growth a b
  have ha := contains_reportEnds t a b a (.inl rfl)
  have hb := contains_reportEnds t a b b (.inr rfl)
  have hrest := hends.wellFormed.reportFetched_growth cost ha hb
  have hlink : (t.reportEnds a b).topology.link? = t.link? :=
    h.link?_congr hends.wellFormed (held?_reportEnds t a b)
  rw [reportLink_eq]
  refine ⟨hends.toSound.andThen hrest.toSound (fun x => .inr ?_) fun p => .inl ?_,
    fun x hx => hrest.stored x (hends.stored x hx),
    fun p hp => hrest.linked p (hends.linked p hp)⟩
  · rw [cost?_reportFetched]
  · rw [hlink]

/-- The link takes the reported cost, unless the other end holds it. -/
theorem WellFormed.link?_reportLink (h : t.WellFormed) :
    (t.reportLink a b cost).topology.link? s(x, y) =
      if s(a, b) = s(x, y) ∧ a ≠ b ∧ t.held? b a = none then some cost else t.link? s(x, y) := by
  have hwf := (h.reportLink_growth a b cost).wellFormed
  have hheld := h.held?_reportLink a b cost
  have honce := h.held_once
  rw [hwf.link?_mk, hwf.seen?_eq, h.link?_mk, h.seen?_eq, hheld, hheld]
  simp only [Sym2.eq_iff]
  grind

end Link

end Topology
end MeshView
