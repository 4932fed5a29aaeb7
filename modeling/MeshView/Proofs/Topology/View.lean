/-
# The view of a topology

The view of a topology has the cost of every stored node and, for every unordered pair of
identities, the cost of the link between them.  Both ends of a link list it with the same cost, so
it does not matter which of the two is asked; `link?` asks the smaller one.
-/

import MeshView.Proofs.Topology.WellFormed
import MeshView.Proofs.View

namespace MeshView
namespace Topology

/-- The cost that `a` lists for its link to `b`, strong or weak. -/
def seen? (t : Topology) (a b : NodeId) : Option Cost := (t.held? a b).or (t.mirrored? a b)

/-- The cost that the smaller of two nodes lists for their link. -/
def listed? (t : Topology) (a b : NodeId) : Option Cost :=
  if a < b then t.seen? a b else t.seen? b a

theorem listed?_comm (t : Topology) (a b : NodeId) : t.listed? a b = t.listed? b a := by
  unfold listed?
  by_cases hab : a < b
  · rw [if_pos hab, if_neg fun hba => NodeId.lt_irrefl a (NodeId.lt_trans hab hba)]
  · rw [if_neg hab]
    by_cases he : a = b
    · rw [he, ite_self]
    · rw [if_pos (NodeId.lt_of_not_lt he hab)]

/-- The cost of the link between two nodes. -/
def link? (t : Topology) : Sym2 NodeId → Option Cost := Sym2.lift ⟨t.listed?, t.listed?_comm⟩

/-- The costs of the nodes and of the links. -/
def view (t : Topology) : View := ⟨t.cost?, t.link?⟩

variable {t : Topology}

@[simp] theorem view_nodes : t.view.nodes = t.cost? := rfl

@[simp] theorem view_links : t.view.links = t.link? := rfl

/-- A node lists its strong and its weak entries. -/
theorem mem_links_iff {a b : NodeId} {c : Cost} :
    (b, c) ∈ t.links a ↔ t.held? a b = some c ∨ t.mirrored? a b = some c := by
  rw [links, held?, mirrored?]
  cases t.vertex? a with
  | none => simp
  | some v =>
    simp only [Adjacency.links, List.mem_append, Option.bind_some, IdMap.get?_eq_some_iff]

namespace WellFormed

theorem seen?_eq (h : t.WellFormed) (a b : NodeId) :
    t.seen? a b = (t.held? a b).or (t.held? b a) := by
  rw [seen?, h.mirrored_eq]

/-- Both ends list a link with the same cost. -/
theorem seen?_comm (h : t.WellFormed) (a b : NodeId) : t.seen? a b = t.seen? b a := by
  rw [h.seen?_eq, h.seen?_eq]
  cases hab : t.held? a b with
  | none => simp
  | some c =>
    rw [h.held_once a b (by simp [hab])]
    rfl

theorem link?_mk (h : t.WellFormed) (a b : NodeId) : t.link? s(a, b) = t.seen? a b := by
  show t.listed? a b = _
  rw [listed?, h.seen?_comm b a, ite_self]

theorem mem_links_iff_link? (h : t.WellFormed) {a b : NodeId} {c : Cost} :
    (b, c) ∈ t.links a ↔ t.link? s(a, b) = some c := by
  rw [mem_links_iff, h.link?_mk, seen?, Option.or_eq_some_iff, h.mirrored_eq]
  constructor
  · rintro (hc | hc)
    · exact .inl hc
    · exact .inr ⟨h.held_once b a (by simp [hc]), hc⟩
  · rintro (hc | ⟨-, hc⟩)
    · exact .inl hc
    · exact .inr hc

theorem link?_eq_some_iff (h : t.WellFormed) {a b : NodeId} {c : Cost} :
    t.link? s(a, b) = some c ↔ t.held? a b = some c ∨ t.held? b a = some c := by
  rw [← h.mem_links_iff_link?, mem_links_iff, h.mirrored_eq]

theorem link?_eq_none_iff (h : t.WellFormed) {a b : NodeId} :
    t.link? s(a, b) = none ↔ t.held? a b = none ∧ t.held? b a = none := by
  rw [h.link?_mk, h.seen?_eq, Option.or_eq_none_iff]

theorem mem_neighbours_iff (h : t.WellFormed) {a b : NodeId} {v : Vertex}
    (hv : t.vertex? a = some v) : b ∈ v.adjacency.neighbours ↔ t.link? s(a, b) ≠ none := by
  have hlinks : t.links a = v.adjacency.links := by rw [links, hv]
  rw [Adjacency.neighbours, ← hlinks, List.mem_map, Option.ne_none_iff_exists']
  constructor
  · rintro ⟨⟨n, c⟩, hn, rfl⟩
    exact ⟨c, h.mem_links_iff_link?.1 hn⟩
  · rintro ⟨c, hc⟩
    exact ⟨(b, c), h.mem_links_iff_link?.2 hc, rfl⟩

/-- No neighbour is both strong and weak. -/
theorem not_both (h : t.WellFormed) {a : NodeId} {v : Vertex} (hv : t.vertex? a = some v)
    (n : NodeId) : ¬ (n ∈ v.adjacency.strong ∧ n ∈ v.adjacency.weak) := by
  rintro ⟨hs, hw⟩
  obtain ⟨c, hs⟩ := IdMap.mem_iff.1 hs
  obtain ⟨d, hw⟩ := IdMap.mem_iff.1 hw
  have hheld : t.held? a n = some c := by rw [held?, hv, Option.bind_some, hs]
  have hback : t.held? n a = some d := by rw [← h.mirrored_eq, mirrored?, hv, Option.bind_some, hw]
  rw [h.held_once a n (by simp [hheld])] at hback
  cases hback

/-- No neighbour is listed twice. -/
theorem neighbours_nodup (h : t.WellFormed) {a : NodeId} {v : Vertex} (hv : t.vertex? a = some v) :
    v.adjacency.neighbours.Nodup := by
  rw [Adjacency.neighbours, Adjacency.links, List.map_append]
  refine v.adjacency.strong.keys_nodup.append v.adjacency.weak.keys_nodup fun n hs hw => ?_
  exact h.not_both hv n ⟨IdMap.mem_keys.1 hs, IdMap.mem_keys.1 hw⟩

/-- Only stored nodes are linked. -/
theorem contains_of_link? (h : t.WellFormed) {a b : NodeId} (hab : t.link? s(a, b) ≠ none) :
    t.contains a = true ∧ t.contains b = true := by
  rw [ne_eq, h.link?_eq_none_iff, not_and_or] at hab
  rcases hab with hab | hba
  · exact ⟨contains_of_held? hab, h.contains_right hab⟩
  · exact ⟨h.contains_right hba, contains_of_held? hba⟩

/-- The strong entries decide about the links. -/
theorem link?_congr {t' : Topology} (h : t.WellFormed) (h' : t'.WellFormed)
    (hheld : ∀ a b, t'.held? a b = t.held? a b) : t'.link? = t.link? := by
  funext p
  induction p with | _ a b
  rw [h.link?_mk, h'.link?_mk, h.seen?_eq, h'.seen?_eq, hheld, hheld]

theorem link?_join (h : t.WellFormed) {a b : NodeId} (cost : Cost) (ha : t.contains a = true)
    (hb : t.contains b = true) (hba : t.held? b a = none) (hne : a ≠ b) (p : Sym2 NodeId) :
    (t.join a b cost).link? p = if s(a, b) = p then some cost else t.link? p := by
  have h' := h.join cost ha hb hba hne
  induction p with | _ x y
  rw [h'.link?_mk, h'.seen?_eq, h.link?_mk, h.seen?_eq, held?_join cost ha hba hne,
    held?_join cost ha hba hne]
  simp only [Sym2.eq_iff]
  grind

theorem link?_unlink (h : t.WellFormed) (a b : NodeId) (p : Sym2 NodeId) :
    (t.unlink a b).topology.link? p = if s(a, b) = p then none else t.link? p := by
  have h' := h.unlink a b
  induction p with | _ x y
  rw [h'.link?_mk, h'.seen?_eq, h.link?_mk, h.seen?_eq, held?_unlink, held?_unlink,
    Sym2.eq_swap (a := y)]
  split <;> rfl

end WellFormed

/-! ## Snapshots -/

theorem WellFormed.mem_vertices_iff (h : t.WellFormed) {v : Vertex} :
    v ∈ t.vertices ↔ t.vertex? v.id = some v := by
  rw [vertices, IdMap.mem_values]
  constructor
  · rintro ⟨id, hv⟩
    have := h.id_eq hv
    exact this ▸ hv
  · intro hv
    exact ⟨v.id, hv⟩

/-- The vertices are stored under their own identities. -/
theorem WellFormed.map_id_vertices (h : t.WellFormed) :
    t.vertices.map Vertex.id = t.nodes.keys := by
  rw [vertices, IdMap.values, IdMap.keys, List.map_map]
  refine List.map_congr_left fun e he => h.id_eq ?_
  exact IdMap.get?_eq_some_iff.2 he

theorem WellFormed.mem_nodesAdded_snapshot (h : t.WellFormed) {e : NodeAdded} :
    e ∈ t.snapshot.nodesAdded ↔ t.cost? e.id = some e.cost := by
  simp only [snapshot, List.mem_map, cost?, Option.map_eq_some_iff]
  constructor
  · rintro ⟨v, hv, rfl⟩
    exact ⟨v, h.mem_vertices_iff.1 hv, rfl⟩
  · rintro ⟨v, hv, hc⟩
    have hid := h.id_eq hv
    refine ⟨v, h.mem_vertices_iff.2 (hid ▸ hv), ?_⟩
    rw [hid, hc]

theorem WellFormed.mem_linksAdded_snapshot (h : t.WellFormed) {e : LinkChange} :
    e ∈ t.snapshot.linksAdded ↔ e.cost ≠ none ∧ t.held? e.first e.second = e.cost := by
  simp only [snapshot, List.mem_flatMap, List.mem_map]
  constructor
  · rintro ⟨v, hv, n, hn, rfl⟩
    refine ⟨Option.some_ne_none _, ?_⟩
    rw [held?, h.mem_vertices_iff.1 hv]
    exact IdMap.get?_eq_some_iff.2 hn
  · rintro ⟨hc, he⟩
    obtain ⟨c, hc⟩ := Option.ne_none_iff_exists'.1 hc
    rw [hc] at he
    obtain ⟨v, hv, hn⟩ := Option.bind_eq_some_iff.1 he
    have hid := h.id_eq hv
    refine ⟨v, h.mem_vertices_iff.2 (hid ▸ hv), (e.second, c),
      IdMap.get?_eq_some_iff.1 hn, ?_⟩
    rw [hid, ← hc]

/-- Every link is named once, since only one of its ends holds it. -/
theorem WellFormed.ends_snapshot_nodup (h : t.WellFormed) :
    (t.snapshot.linksAdded.map LinkChange.ends).Nodup := by
  have hnodup : t.snapshot.linksAdded.Nodup := by
    refine List.nodup_flatMap.2 ⟨fun v _ => ?_, ?_⟩
    · refine v.adjacency.strong.keys_nodup.of_map.map fun e e' he => ?_
      obtain ⟨-, h₁, h₂⟩ := LinkChange.mk.inj he
      exact Prod.ext h₁ (Option.some.inj h₂)
    · have hids : (t.vertices.map Vertex.id).Nodup := h.map_id_vertices ▸ t.nodes.keys_nodup
      refine (List.pairwise_map.1 hids).imp fun {v w} hvw => ?_
      intro e he he'
      obtain ⟨n, _, rfl⟩ := List.mem_map.1 he
      obtain ⟨n', _, heq⟩ := List.mem_map.1 he'
      exact hvw (LinkChange.mk.inj heq).1.symm
  refine hnodup.map_on fun e he e' he' hends => ?_
  obtain ⟨hc, heq⟩ := h.mem_linksAdded_snapshot.1 he
  obtain ⟨hc', heq'⟩ := h.mem_linksAdded_snapshot.1 he'
  rcases Sym2.eq_iff.1 hends with ⟨h₁, h₂⟩ | ⟨h₁, h₂⟩
  · rw [← h₁, ← h₂, heq] at heq'
    obtain ⟨_, _, _⟩ := e
    obtain ⟨_, _, _⟩ := e'
    simp_all
  · rw [← h₁, ← h₂] at heq'
    have := h.held_once _ _ (heq.symm ▸ hc)
    exact absurd (heq'.symm.trans this) hc'

/-- **A snapshot is the difference between nothing and the topology.** -/
theorem WellFormed.snapshot_exact (h : t.WellFormed) : t.snapshot.Exact .empty t.view where
  nodes := by
    refine Listed.of_added ?_ fun id o => ?_
    · have : t.snapshot.addedNodes.map Prod.fst = t.vertices.map Vertex.id := by
        simp [Diff.addedNodes, snapshot]
      rw [this, h.map_id_vertices]
      exact t.nodes.keys_nodup
    · simp only [Diff.addedNodes, List.mem_map, h.mem_nodesAdded_snapshot]
      constructor
      · rintro ⟨e, he, heq⟩
        obtain ⟨rfl, rfl⟩ := Prod.mk.inj heq
        exact ⟨by simp [view, he], he.symm⟩
      · rintro ⟨hne, rfl⟩
        obtain ⟨c, hc⟩ := Option.ne_none_iff_exists'.1 hne
        exact ⟨⟨id, c⟩, hc, Prod.ext rfl hc.symm⟩
  links := by
    refine Listed.of_added ?_ fun p o => ?_
    · have : t.snapshot.addedLinks.map Prod.fst = t.snapshot.linksAdded.map LinkChange.ends := by
        rw [Diff.addedLinks, List.map_map]
        rfl
      rw [this]
      exact h.ends_snapshot_nodup
    · simp only [Diff.addedLinks, List.mem_map, h.mem_linksAdded_snapshot]
      constructor
      · rintro ⟨e, ⟨hc, he⟩, heq⟩
        obtain ⟨rfl, rfl⟩ := Prod.mk.inj heq
        obtain ⟨c, hc⟩ := Option.ne_none_iff_exists'.1 hc
        have : t.link? e.ends = some c := h.link?_eq_some_iff.2 (.inl (he.trans hc))
        exact ⟨by simp [view, this], hc.trans this.symm⟩
      · rintro ⟨hne, rfl⟩
        obtain ⟨c, hc⟩ := Option.ne_none_iff_exists'.1 hne
        induction p with | _ a b
        rcases h.link?_eq_some_iff.1 hc with hab | hba
        · exact ⟨⟨a, b, some c⟩, ⟨Option.some_ne_none c, hab⟩, Prod.ext rfl hc.symm⟩
        · exact ⟨⟨b, a, some c⟩, ⟨Option.some_ne_none c, hba⟩, Prod.ext Sym2.eq_swap hc.symm⟩

/-- A snapshot tells the view. -/
theorem WellFormed.view_eq_of_snapshot_eq {t' : Topology} (h : t.WellFormed) (h' : t'.WellFormed)
    (heq : t.snapshot = t'.snapshot) : t.view = t'.view := by
  rw [← h.snapshot_exact.replay_eq, ← h'.snapshot_exact.replay_eq, heq]

/-- What a snapshot tells about each node: its identity, its cost and the links that it holds. -/
def outlines (t : Topology) : List (NodeId × Option Cost × IdMap Cost) :=
  t.nodes.entries.map fun e => (e.1, e.2.cost, e.2.adjacency.strong)

theorem WellFormed.snapshot_eq (h : t.WellFormed) :
    t.snapshot = {
      nodesAdded := t.outlines.map fun e => ⟨e.1, e.2.1⟩
      linksAdded := t.outlines.flatMap fun e =>
        e.2.2.entries.map fun n => ⟨e.1, n.1, some n.2⟩ } := by
  have hid : ∀ e ∈ t.nodes.entries, e.2.id = e.1 := fun e he =>
    h.id_eq (IdMap.get?_eq_some_iff.2 he)
  simp only [snapshot, outlines, vertices, IdMap.values, List.map_map, List.flatMap_map]
  congr 1
  · exact List.map_congr_left fun e he => by simp [hid e he]
  · exact List.flatMap_congr fun e he => by simp [hid e he]

theorem outlines_congr {t' : Topology} (hcost : ∀ x, t'.cost? x = t.cost? x)
    (hheld : ∀ x y, t'.held? x y = t.held? x y) : t'.outlines = t.outlines := by
  refine IdMap.map_entries_congr (fun v : Vertex => (v.cost, v.adjacency.strong)) fun x => ?_
  have hc : (t'.vertex? x).map Vertex.cost = (t.vertex? x).map Vertex.cost := hcost x
  have hs : ∀ y, (t'.vertex? x).bind (fun v => v.adjacency.strong.get? y) =
      (t.vertex? x).bind fun v => v.adjacency.strong.get? y := hheld x
  show (t'.vertex? x).map _ = (t.vertex? x).map _
  revert hc hs
  cases t'.vertex? x with
  | none => cases t.vertex? x <;> simp
  | some v' =>
    cases t.vertex? x with
    | none => simp
    | some v =>
      intro hc hs
      have hstrong : v'.adjacency.strong = v.adjacency.strong := IdMap.ext_get? hs
      simpa [hstrong] using hc

/-- The costs and the strong entries determine the snapshot. -/
theorem WellFormed.snapshot_congr {t' : Topology} (h : t.WellFormed) (h' : t'.WellFormed)
    (hcost : ∀ x, t'.cost? x = t.cost? x) (hheld : ∀ x y, t'.held? x y = t.held? x y) :
    t'.snapshot = t.snapshot := by
  rw [h.snapshot_eq, h'.snapshot_eq, outlines_congr hcost hheld]

/-! ## What is not known yet -/

theorem WellFormed.mem_unfetched (h : t.WellFormed) {id : NodeId} :
    id ∈ t.unfetched ↔ t.contains id = true ∧ t.isFetched id = false := by
  simp only [unfetched, List.mem_map, List.mem_filter, h.mem_vertices_iff]
  constructor
  · rintro ⟨v, ⟨hv, hf⟩, rfl⟩
    refine ⟨contains_iff_vertex?.2 ⟨v, hv⟩, ?_⟩
    simpa [isFetched, hv] using hf
  · rintro ⟨hid, hf⟩
    obtain ⟨v, hv⟩ := contains_iff_vertex?.1 hid
    have hv' := h.id_eq hv
    refine ⟨v, ⟨hv' ▸ hv, ?_⟩, hv'⟩
    simpa [isFetched, hv] using hf

theorem WellFormed.mem_uncosted (h : t.WellFormed) {id : NodeId} :
    id ∈ t.uncosted ↔ t.cost? id = some none := by
  simp only [uncosted, List.mem_map, List.mem_filter, h.mem_vertices_iff, cost?,
    Option.map_eq_some_iff, Option.isNone_iff_eq_none]
  constructor
  · rintro ⟨v, ⟨hv, hc⟩, rfl⟩
    exact ⟨v, hv, hc⟩
  · rintro ⟨v, hv, hc⟩
    have hid := h.id_eq hv
    exact ⟨v, ⟨hid ▸ hv, hc⟩, hid⟩

/-! ## Sound changes -/

/-- A change that keeps the topology well-formed and lists exactly what differs; a change that
lists nothing does not even move a link from the one end to the other. -/
structure Sound (t : Topology) (c : Change) : Prop where
  wellFormed : c.topology.WellFormed
  localId_eq : c.topology.localId = t.localId
  exact : c.diff.Exact t.view c.topology.view
  quiet : c.diff = ∅ → c.topology.snapshot = t.snapshot

namespace Sound
variable {c : Change} {next : Topology → Change}

theorem unchanged (h : t.WellFormed) : Sound t t.unchanged where
  wellFormed := h
  localId_eq := rfl
  exact := .refl t.view
  quiet _ := rfl

/-- Two sound changes, if nothing changes in both. -/
theorem andThen (h : Sound t c) (h' : Sound c.topology (next c.topology))
    (hnodes : ∀ x, t.cost? x = c.topology.cost? x ∨
      c.topology.cost? x = (next c.topology).topology.cost? x)
    (hlinks : ∀ p, t.link? p = c.topology.link? p ∨
      c.topology.link? p = (next c.topology).topology.link? p) : Sound t (c.andThen next) where
  wellFormed := h'.wellFormed
  localId_eq := h'.localId_eq.trans h.localId_eq
  exact := h.exact.append h'.exact hnodes hlinks
  quiet hd := by
    have hboth : c.diff = ∅ ∧ (next c.topology).diff = ∅ := Diff.append_eq_empty_iff.1 hd
    exact (h'.quiet hboth.2).trans (h.quiet hboth.1)

/-- **The listed differences are empty exactly if the snapshot stays the same.** -/
theorem isEmpty_iff (ht : t.WellFormed) (h : Sound t c) :
    c.diff.isEmpty = true ↔ t.snapshot = c.topology.snapshot := by
  constructor
  · intro hd
    exact (h.quiet (Diff.isEmpty_iff.1 hd)).symm
  · intro heq
    exact h.exact.isEmpty_iff.2 (ht.view_eq_of_snapshot_eq h.wellFormed heq)

end Sound
end Topology
end MeshView
