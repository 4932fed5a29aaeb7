/-
# A snapshot rebuilds the topology

A snapshot lists every node, and every link once, from the end that holds it.  What the other end sees of
a link is not listed.  Told as reports, first the nodes and then the links, a snapshot rebuilds it all the
same: no link has two holders, so the reports are consistent (`WellFormed.consistent_reports`) and all of
them are reflected in the end, and nothing is stored but what they tell.  Only the mark of a node whose
links have all gone cannot be told, and it is not rebuilt (`run_snapshot_rebuilds`).
-/

import MeshView.Proofs.Topology.Order

namespace MeshView

/-- What was added, told as reports: the nodes, then the links, each by the end that is named first. -/
def Diff.reports (d : Diff) : List Report :=
  d.nodesAdded.map (fun e => .node e.id e.cost) ++
    d.linksAdded.filterMap fun e => e.cost.map (.link e.first e.second)

theorem Diff.mem_reports_iff {d : Diff} {r : Report} :
    r ∈ d.reports ↔ (∃ e ∈ d.nodesAdded, r = .node e.id e.cost) ∨
      ∃ e ∈ d.linksAdded, ∃ c, e.cost = some c ∧ r = .link e.first e.second c := by
  simp only [reports, List.mem_append, List.mem_map, List.mem_filterMap, Option.map_eq_some_iff,
    eq_comm (a := r)]

theorem Diff.grows_of_mem_reports {d : Diff} {r : Report} (hr : r ∈ d.reports) : r.Grows := by
  rcases mem_reports_iff.1 hr with ⟨e, -, rfl⟩ | ⟨e, -, c, -, rfl⟩
  · trivial
  · trivial

/-- The order of links by their ends, the end that is named first before the other one. -/
def LinkChange.Before (e e' : LinkChange) : Prop :=
  e.first < e'.first ∨ e.first = e'.first ∧ e.second < e'.second

namespace Topology
variable {t : Topology}

/-! ## What a snapshot lists -/

theorem WellFormed.snapshot_nodes_sorted (h : t.WellFormed) :
    (t.snapshot.nodesAdded.map NodeAdded.id).Pairwise (· < ·) := by
  have hids : t.snapshot.nodesAdded.map NodeAdded.id = t.vertices.map Vertex.id := by
    rw [snapshot, List.map_map]
    rfl
  rw [hids, h.map_id_vertices]
  exact t.nodes.keys_sorted

theorem WellFormed.snapshot_links_sorted (h : t.WellFormed) :
    t.snapshot.linksAdded.Pairwise LinkChange.Before := by
  have hnodes : t.outlines.Pairwise (fun e e' => e.1 < e'.1) :=
    List.pairwise_map.2 t.nodes.sorted
  rw [h.snapshot_eq]
  refine List.pairwise_flatMap.2 ⟨fun e _ => ?_, hnodes.imp fun {e e'} hlt => ?_⟩
  · exact List.pairwise_map.2 (e.2.2.sorted.imp fun hlt => .inr ⟨rfl, hlt⟩)
  · intro l hl l' hl'
    obtain ⟨n, -, rfl⟩ := List.mem_map.1 hl
    obtain ⟨n', -, rfl⟩ := List.mem_map.1 hl'
    exact .inl hlt

/-- A link is listed by the end that holds it. -/
theorem WellFormed.mem_linksAdded_iff_held? (h : t.WellFormed) {a b : NodeId} {c : Cost} :
    ⟨a, b, some c⟩ ∈ t.snapshot.linksAdded ↔ t.held? a b = some c :=
  (h.mem_linksAdded_snapshot (e := ⟨a, b, some c⟩)).trans (and_iff_right (Option.some_ne_none c))

/-- The one end or the other of every link is listed as its holder. -/
theorem WellFormed.mem_links_iff_snapshot (h : t.WellFormed) {a b : NodeId} {c : Cost} :
    (b, c) ∈ t.links a ↔
      ⟨a, b, some c⟩ ∈ t.snapshot.linksAdded ∨ ⟨b, a, some c⟩ ∈ t.snapshot.linksAdded := by
  rw [h.mem_links_iff_link?, h.link?_eq_some_iff, h.mem_linksAdded_iff_held?,
    h.mem_linksAdded_iff_held?]

/-! ## A snapshot told as reports -/

theorem WellFormed.node_mem_reports (h : t.WellFormed) {id : NodeId} {cost : Option Cost} :
    .node id cost ∈ t.snapshot.reports ↔ t.cost? id = some cost := by
  rw [Diff.mem_reports_iff]
  constructor
  · rintro (⟨e, he, heq⟩ | ⟨e, -, c, -, heq⟩)
    · cases heq
      exact h.mem_nodesAdded_snapshot.1 he
    · cases heq
  · exact fun hcost => .inl ⟨⟨id, cost⟩, h.mem_nodesAdded_snapshot.2 hcost, rfl⟩

theorem WellFormed.link_mem_reports (h : t.WellFormed) {a b : NodeId} {c : Cost} :
    .link a b c ∈ t.snapshot.reports ↔ t.held? a b = some c := by
  rw [Diff.mem_reports_iff]
  constructor
  · rintro (⟨e, -, heq⟩ | ⟨e, he, k, hk, heq⟩)
    · cases heq
    · cases heq
      exact (h.mem_linksAdded_snapshot.1 he).2.trans hk
  · exact fun hheld => .inr ⟨⟨a, b, some c⟩, h.mem_linksAdded_iff_held?.2 hheld, c, rfl, rfl⟩

/-- **What a snapshot tells is consistent**: no node is listed twice, and no link has two holders. -/
theorem WellFormed.consistent_reports (h : t.WellFormed) : Report.Consistent t.snapshot.reports where
  grows _ := Diff.grows_of_mem_reports
  agrees r hr r' hr' := by
    fun_cases Report.Agrees r r' with
    | case1 id c id' c' =>
      rintro rfl
      have hcost := h.node_mem_reports.1 hr
      exact Option.some.inj (Option.some.inj (hcost.symm.trans (h.node_mem_reports.1 hr')))
    | case2 a b c a' b' c' =>
      intro _ hends
      have hheld := h.link_mem_reports.1 hr
      have hheld' := h.link_mem_reports.1 hr'
      rcases Sym2.eq_iff.1 hends with ⟨rfl, rfl⟩ | ⟨rfl, rfl⟩
      · exact Option.some.inj (hheld.symm.trans hheld')
      · have hback := h.held_once a b (hheld ▸ Option.some_ne_none c)
        cases hback.symm.trans hheld'
    | case3 => trivial

/-! ## What is rebuilt -/

section Rebuilt
variable (h : t.WellFormed) (localId : NodeId)
include h

/-- The entries of what is rebuilt: each of them is told, and nothing else is there. -/
theorem WellFormed.held?_rebuilt (a b : NodeId) :
    ((root localId).run t.snapshot.reports).held? a b = t.held? a b := by
  have hroot := wellFormed_root localId
  have hconsistent := h.consistent_reports
  have htold : ∀ {x y k}, ((root localId).run t.snapshot.reports).held? x y = some k →
      t.held? x y = some k := fun {x y k} hxy =>
    h.link_mem_reports.1 ((hroot.of_held?_run hconsistent.grows hxy).resolve_right fun hold =>
      nomatch (held?_root localId x y).symm.trans hold)
  refine Option.ext fun c => ⟨htold, fun hab => ?_⟩
  have hheld : t.held? a b ≠ none := hab ▸ Option.some_ne_none c
  have hne : a ≠ b := fun he => hheld (he ▸ h.held?_self a)
  have hback : ((root localId).run t.snapshot.reports).held? b a = none :=
    Option.eq_none_iff_forall_ne_some.2 fun k hk =>
      nomatch (h.held_once a b hheld).symm.trans (htold hk)
  exact (hroot.reflects_run hconsistent _ (h.link_mem_reports.2 hab)).2.2 hne hback

/-- Nothing is stored but what was stored, since the ends of every link are. -/
theorem WellFormed.contains_rebuilt (hlocal : t.contains localId = true) (id : NodeId) :
    ((root localId).run t.snapshot.reports).contains id = true ↔ t.contains id = true := by
  rw [contains_run_iff (root localId) (fun _ => Diff.grows_of_mem_reports), contains_root_iff]
  constructor
  · rintro (rfl | ⟨r, hr, hnames⟩)
    · exact hlocal
    · cases r with
      | node x cost =>
        obtain rfl := hnames
        exact contains_iff_cost?.2 (h.node_mem_reports.1 hr ▸ Option.some_ne_none cost)
      | link a b c =>
        have hheld : t.held? a b ≠ none := h.link_mem_reports.1 hr ▸ Option.some_ne_none c
        rcases hnames with rfl | rfl
        · exact contains_of_held? hheld
        · exact h.contains_right hheld
      | nodeGone x => exact hnames.elim
      | linkGone a b => exact hnames.elim
  · intro hid
    obtain ⟨cost, hcost⟩ := Option.ne_none_iff_exists'.1 (contains_iff_cost?.1 hid)
    exact .inr ⟨.node id cost, h.node_mem_reports.2 hcost, rfl⟩

theorem WellFormed.cost?_rebuilt (hlocal : t.contains localId = true) (id : NodeId) :
    ((root localId).run t.snapshot.reports).cost? id = t.cost? id := by
  refine cost?_congr (Bool.eq_iff_iff.2 (h.contains_rebuilt localId hlocal id)) fun c => ?_
  have hunknown : (root localId).cost? id ≠ some (some c) := by
    rw [cost?, vertex?_root]
    split <;> simp [Vertex.bare]
  rw [(wellFormed_root localId).cost?_run_iff h.consistent_reports,
    or_iff_left fun hold => hunknown hold.2, h.node_mem_reports]

/-- The nodes that hold a link are marked, and no others. -/
theorem WellFormed.isFetched_rebuilt_iff (id : NodeId) :
    ((root localId).run t.snapshot.reports).isFetched id = true ↔ ∃ b, t.held? id b ≠ none := by
  have hunmarked : ¬ (root localId).isFetched id = true := by
    rw [isFetched, vertex?_root]
    split <;> simp [Vertex.bare]
  rw [Topology.run, isFetched_applyAll (root localId) (fun _ => Diff.grows_of_mem_reports),
    or_iff_right hunmarked]
  constructor
  · rintro ⟨r, hr, hf⟩
    cases r with
    | link a b c =>
      obtain rfl := hf
      exact ⟨b, h.link_mem_reports.1 hr ▸ Option.some_ne_none c⟩
    | _ => exact hf.elim
  · rintro ⟨b, hb⟩
    obtain ⟨c, hc⟩ := Option.ne_none_iff_exists'.1 hb
    exact ⟨.link id b c, h.link_mem_reports.2 hc, rfl⟩

end Rebuilt

/-- **A snapshot rebuilds the topology.**  In every topology that can arise, the snapshot lists the nodes
in ascending order and the links in ascending order of their ends, every undirected link once.  If the
local node is stored, then the snapshot, told as reports to the local node alone, gives the same nodes
with the same costs, and the same strong and weak entries; a node is marked in it if and only if it holds
a link; and its snapshot is the same again. -/
theorem run_snapshot_rebuilds (localId : NodeId) (history : List Report) :
    let t := (root localId).run history
    ((t.snapshot.nodesAdded.map NodeAdded.id).Pairwise (· < ·) ∧
      t.snapshot.linksAdded.Pairwise LinkChange.Before ∧
      (t.snapshot.linksAdded.map LinkChange.ends).Nodup ∧
      (∀ l ∈ t.snapshot.linksAdded, l.cost ≠ none) ∧
      ∀ a b c, (b, c) ∈ t.links a ↔
        ⟨a, b, some c⟩ ∈ t.snapshot.linksAdded ∨ ⟨b, a, some c⟩ ∈ t.snapshot.linksAdded) ∧
    (t.contains localId = true →
      let u := (root localId).run t.snapshot.reports
      u.localId = t.localId ∧
      (∀ id, u.cost? id = t.cost? id) ∧
      (∀ a b, u.held? a b = t.held? a b ∧ u.mirrored? a b = t.mirrored? a b) ∧
      (∀ id, u.isFetched id = true ↔ ∃ b, u.held? id b ≠ none) ∧
      u.snapshot = t.snapshot) := by
  intro t
  have h : t.WellFormed := wellFormed_run localId history
  have hroot := wellFormed_root localId
  refine ⟨⟨h.snapshot_nodes_sorted, h.snapshot_links_sorted, h.ends_snapshot_nodup,
    fun l hl => (h.mem_linksAdded_snapshot.1 hl).1, fun a b c => h.mem_links_iff_snapshot⟩,
    fun hlocal => ?_⟩
  intro u
  have hu : u.WellFormed := hroot.run t.snapshot.reports
  have hcost : ∀ id, u.cost? id = t.cost? id := h.cost?_rebuilt localId hlocal
  have hheld : ∀ a b, u.held? a b = t.held? a b := h.held?_rebuilt localId
  refine ⟨?_, hcost, fun a b => ⟨hheld a b, ?_⟩, fun id => ?_, h.snapshot_congr hu hcost hheld⟩
  · exact (hroot.localId_applyAll t.snapshot.reports).trans (hroot.localId_applyAll history).symm
  · rw [hu.mirrored_eq, h.mirrored_eq, hheld]
  · simp only [hheld]
    exact h.isFetched_rebuilt_iff localId id

/-- A link that its far end holds, and a node that has reported a link which is gone: it stays marked, and
what is rebuilt does not mark it. -/
theorem run_snapshot_rebuilds_unmarked :
    let t := (root ⟨0⟩).run [.link ⟨0⟩ ⟨1⟩ ⟨5⟩, .link ⟨2⟩ ⟨0⟩ ⟨7⟩, .node ⟨1⟩ (some ⟨3⟩),
      .link ⟨1⟩ ⟨2⟩ ⟨4⟩, .linkGone ⟨2⟩ ⟨1⟩]
    let u := (root ⟨0⟩).run t.snapshot.reports
    t.snapshot.reports = [.node ⟨0⟩ none, .node ⟨1⟩ (some ⟨3⟩), .node ⟨2⟩ none,
      .link ⟨0⟩ ⟨1⟩ ⟨5⟩, .link ⟨2⟩ ⟨0⟩ ⟨7⟩] ∧
    t.contains ⟨0⟩ = true ∧ (∀ a b, u.held? a b = t.held? a b ∧ u.mirrored? a b = t.mirrored? a b) ∧
    u.snapshot = t.snapshot ∧ t.isFetched ⟨1⟩ = true ∧ u.isFetched ⟨1⟩ = false := by
  intro t u
  have hlocal : t.contains ⟨0⟩ = true := by decide
  obtain ⟨-, -, hentries, -, hsnapshot⟩ := (run_snapshot_rebuilds ⟨0⟩ [.link ⟨0⟩ ⟨1⟩ ⟨5⟩,
    .link ⟨2⟩ ⟨0⟩ ⟨7⟩, .node ⟨1⟩ (some ⟨3⟩), .link ⟨1⟩ ⟨2⟩ ⟨4⟩, .linkGone ⟨2⟩ ⟨1⟩]).2 hlocal
  exact ⟨by decide, hlocal, hentries, hsnapshot, by decide, by decide⟩

end Topology
end MeshView
