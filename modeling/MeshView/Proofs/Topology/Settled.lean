/-
# Reports that change nothing

Once a report has been applied, the topology reflects it: the node is stored with the cost that was
told, the link is stored with the reported cost unless the other end holds it, and what was removed is
gone and left no node behind that the local node does not reach.  A report that the topology reflects
changes nothing, neither an entry nor a mark, and it lists no difference; `Reflects` describes exactly
these reports (`WellFormed.apply_eq_unchanged_iff`).

Reports that take nothing away do not undo each other unless they disagree about a cost.  So after any
number of consistent reports the topology reflects all of them (`WellFormed.reflects_run`), and the
reports of a neighbour list that names no neighbour twice change nothing when the list is absorbed again
(`run_apply_again`).
-/

import MeshView.Proofs.Mesh.Links
import MeshView.Proofs.Topology.Connected
import MeshView.Proofs.Topology.Fetched
import MeshView.Proofs.Topology.Removed

namespace MeshView

/-- The two reports do not give a node, or a link, two costs.  It makes no difference which end reports
a link. -/
def Report.Agrees : Report → Report → Prop
  | .node id (some c), .node id' (some c') => id = id' → c = c'
  | .link a b c, .link a' b' c' => a ≠ b → s(a, b) = s(a', b') → c = c'
  | _, _ => True

/-- Reports of nodes and links that tell one cost of each node and one cost of each link. -/
structure Report.Consistent (reports : List Report) : Prop where
  grows : ∀ r ∈ reports, r.Grows
  agrees : ∀ r ∈ reports, ∀ r' ∈ reports, r.Agrees r'

/-- What holds of some reports, holds of every choice of them. -/
theorem Report.Consistent.mono {reports reports' : List Report} (h : Consistent reports)
    (hsub : ∀ r ∈ reports', r ∈ reports) : Consistent reports' where
  grows r hr := h.grows r (hsub r hr)
  agrees r hr r' hr' := h.agrees r (hsub r hr) r' (hsub r' hr')

/-- A list that names no neighbour twice tells one cost of each link. -/
theorem NeighborList.consistent_reports {list : NeighborList}
    (hnodup : (list.neighbors.map Prod.fst).Nodup) (id : NodeId) :
    Report.Consistent (list.reports id) where
  grows _ := grows_of_mem_reports
  agrees r hr r' hr' := by
    rcases mem_reports_iff.1 hr with ⟨k, hk, rfl⟩ | ⟨n, hn, rfl⟩
    · rcases mem_reports_iff.1 hr' with ⟨k', hk', rfl⟩ | ⟨n', -, rfl⟩
      · exact fun _ => Option.some.inj (hk.symm.trans hk')
      · trivial
    · rcases mem_reports_iff.1 hr' with ⟨k', -, rfl⟩ | ⟨n', hn', rfl⟩
      · trivial
      · intro _ hends
        have hname : n.1 = n'.1 := Sym2.congr_right.1 hends
        exact congrArg Prod.snd (List.inj_on_of_nodup_map hnodup hn hn' hname)

namespace Topology

/-- The topology shows what the report tells, or the report tells the cost of a link that the other end
holds. -/
def Reflects (t : Topology) : Report → Prop
  | .node id cost => t.contains id = true ∧ ∀ c, cost = some c → t.cost? id = some (some c)
  | .link a b c => t.isFetched a = true ∧ t.contains b = true ∧
      (a ≠ b → t.held? b a = none → t.held? a b = some c)
  | .nodeGone id => t.contains id = false ∧ t.Connected
  | .linkGone a b => ¬ t.Linked a b ∧ t.Connected

variable {t : Topology}

/-! ## A report is reflected once it has been applied -/

/-- The node that is removed does not stay. -/
theorem contains_dropNode_self (h : t.WellFormed) (id : NodeId) :
    (t.dropNode id).topology.contains id = false := by
  have hgone : (t.detach id).topology.cost? id = none := by rw [cost?_detach, if_pos rfl]
  have hpruned := (h.detach_removal id).wellFormed.prune_removal.cost?_eq id
  rw [← Bool.not_eq_true, contains_iff_cost?, not_not]
  exact hpruned.elim (fun hnone => hnone) fun hsame => hsame.trans hgone

/-- The link that is removed does not stay. -/
theorem not_linked_dropLink (h : t.WellFormed) (a b : NodeId) :
    ¬ (t.dropLink a b).topology.Linked a b := by
  have hleft := h.dropLink_remainder a b
  rw [Linked, not_not, (h.dropLink_removal a b).wellFormed.link?_eq_none_iff]
  exact ⟨hleft.held?_cut a b rfl, hleft.held?_cut b a Sym2.eq_swap⟩

theorem WellFormed.reflects_apply (h : t.WellFormed) (r : Report) :
    (t.apply r).topology.Reflects r := by
  cases r with
  | node id cost =>
    refine ⟨(contains_reportNode t id cost id).2 (.inl rfl), fun c hc => ?_⟩
    show (t.reportNode id cost).topology.cost? id = _
    rw [cost?_reportNode, if_pos rfl, hc, Option.some_or]
  | link a b c =>
    refine ⟨(isFetched_reportLink t a b c a).2 (.inl rfl),
      (contains_reportLink t a b c b).2 (.inl (.inr rfl)), fun hne hback => ?_⟩
    change (t.reportLink a b c).topology.held? b a = none at hback
    show (t.reportLink a b c).topology.held? a b = some c
    rw [h.held?_reportLink, if_neg fun hends => hne hends.1] at hback
    rw [h.held?_reportLink, if_pos ⟨rfl, rfl, hne, hback⟩]
  | nodeGone id =>
    exact ⟨contains_dropNode_self h id, h.connected_removal (r := .nodeGone id) fun hr => hr⟩
  | linkGone a b =>
    exact ⟨not_linked_dropLink h a b, h.connected_removal (r := .linkGone a b) fun hr => hr⟩

/-! ## A report that is reflected changes nothing -/

/-- In a connected topology there is nothing to prune. -/
theorem Connected.prune_eq (h : t.WellFormed) (hc : t.Connected) : t.prune = t.unchanged := by
  have hnone : t.unreached = [] := by
    refine List.eq_nil_iff_forall_not_mem.2 fun id hid => ?_
    obtain ⟨hstored, hunreached⟩ := mem_unreached_iff.1 hid
    exact hunreached (h.mem_reachable_iff.2 (hc id hstored))
  rw [Topology.prune_eq, hnone, each_nil]

/-- A change of nothing lists nothing. -/
theorem WellFormed.apply_eq_unchanged (h : t.WellFormed) {r : Report}
    (hsame : (t.apply r).topology = t) : t.apply r = t.unchanged := by
  have hquiet : (t.apply r).diff = ∅ :=
    Diff.isEmpty_iff.1 (((h.apply_sound r).isEmpty_iff h).2 (congrArg snapshot hsame).symm)
  calc t.apply r = ⟨(t.apply r).topology, (t.apply r).diff⟩ := rfl
    _ = t.unchanged := by rw [hsame, hquiet, unchanged]

section Reflected
variable (h : t.WellFormed)
include h

theorem WellFormed.topology_reportNode_of_reflects {id : NodeId} {cost : Option Cost}
    (hr : t.Reflects (.node id cost)) : (t.reportNode id cost).topology = t := by
  obtain ⟨hid, hcost⟩ := hr
  refine h.eq_of_entries (h.reportNode id cost) (h.reportNode_growth id cost).localId_eq
    (fun x => ?_) (isFetched_reportNode t id cost) (held?_reportNode t id cost)
  rw [cost?_reportNode]
  split
  · rename_i hx
    rw [← hx]
    cases cost with
    | some c => exact (hcost c rfl).symm
    | none =>
      obtain ⟨k, hk⟩ := Option.ne_none_iff_exists'.1 (contains_iff_cost?.1 hid)
      rw [hk]
      rfl
  · rfl

theorem WellFormed.topology_reportLink_of_reflects {a b : NodeId} {c : Cost}
    (hr : t.Reflects (.link a b c)) : (t.reportLink a b c).topology = t := by
  obtain ⟨ha, hb, hheld⟩ := hr
  have hgrowth := h.reportLink_growth a b c
  refine h.eq_of_entries hgrowth.wellFormed hgrowth.localId_eq (fun x => ?_) (fun x => ?_)
    fun x y => ?_
  · rw [cost?_reportLink]
    split
    · rename_i hends
      have hx : t.contains x = true := by
        rcases hends with rfl | rfl
        · exact contains_of_isFetched ha
        · exact hb
      obtain ⟨k, hk⟩ := Option.ne_none_iff_exists'.1 (contains_iff_cost?.1 hx)
      rw [hk, Option.join_some]
    · rfl
  · rw [Bool.eq_iff_iff, isFetched_reportLink]
    exact or_iff_right_of_imp fun hx => hx ▸ ha
  · rw [h.held?_reportLink]
    split
    · rename_i hends
      obtain ⟨rfl, rfl, hne, hback⟩ := hends
      exact (hheld hne hback).symm
    · rfl

theorem WellFormed.topology_dropNode_of_reflects {id : NodeId} (hr : t.Reflects (.nodeGone id)) :
    (t.dropNode id).topology = t := by
  obtain ⟨hid, hc⟩ := hr
  have hdetach : (t.detach id).topology = t := by
    rw [detach, contains_eq_false_iff.1 hid, unchanged]
  show (t.detach id).topology.prune.topology = t
  rw [hdetach, hc.prune_eq h, unchanged]

theorem WellFormed.topology_dropLink_of_reflects {a b : NodeId} (hr : t.Reflects (.linkGone a b)) :
    (t.dropLink a b).topology = t := by
  obtain ⟨hab, hc⟩ := hr
  have hheld := h.link?_eq_none_iff.1 (not_not.1 hab)
  have hunlink : (t.unlink a b).topology = t := by
    refine h.eq_of_entries (h.unlink a b) (localId_unlink t a b) (cost?_unlink t a b)
      (fun x => isFetched_unlink t x a b) fun x y => ?_
    rw [held?_unlink]
    split
    · rename_i hends
      rcases Sym2.eq_iff.1 hends with ⟨rfl, rfl⟩ | ⟨rfl, rfl⟩
      · exact hheld.1.symm
      · exact hheld.2.symm
    · rfl
  show (t.unlink a b).topology.prune.topology = t
  rw [hunlink, hc.prune_eq h, unchanged]

/-- **A report changes nothing if and only if the topology reflects it.**  Nothing is listed, and no
entry and no mark differs. -/
theorem WellFormed.apply_eq_unchanged_iff (r : Report) : t.apply r = t.unchanged ↔ t.Reflects r := by
  constructor
  · intro hsame
    have hafter := h.reflects_apply r
    rwa [hsame] at hafter
  · intro hr
    refine h.apply_eq_unchanged ?_
    cases r with
    | node id cost => exact h.topology_reportNode_of_reflects hr
    | nodeGone id => exact h.topology_dropNode_of_reflects hr
    | link a b c => exact h.topology_reportLink_of_reflects hr
    | linkGone a b => exact h.topology_dropLink_of_reflects hr

theorem WellFormed.applyAll_eq_unchanged {reports : List Report}
    (hreflects : ∀ r ∈ reports, t.Reflects r) : t.applyAll reports = t.unchanged := by
  induction reports with
  | nil => rfl
  | cons r reports ih =>
    have hfirst := (h.apply_eq_unchanged_iff r).2 (hreflects r List.mem_cons_self)
    rw [Topology.applyAll, each_cons, hfirst]
    exact ih fun r' hr' => hreflects r' (List.mem_cons_of_mem _ hr')

end Reflected

/-! ## Reports that agree -/

/-- **A report does not undo another one that it agrees with.** -/
theorem WellFormed.reflects_stays (h : t.WellFormed) {r r' : Report} (hr : r.Grows) (hr' : r'.Grows)
    (hagree : r.Agrees r') (hreflects : t.Reflects r') : (t.apply r).topology.Reflects r' := by
  have hgrowth := h.apply_growth hr
  have hstays : ∀ {x}, t.contains x = true → (t.apply r).topology.contains x = true := fun hx =>
    contains_iff_cost?.2 (hgrowth.stored _ (contains_iff_cost?.1 hx))
  obtain ⟨id, cost, rfl⟩ | ⟨a, b, c, rfl⟩ := hr'.node_or_link
  · obtain ⟨hid, hcost⟩ := hreflects
    refine ⟨hstays hid, fun c hc => ?_⟩
    have hold := hcost c hc
    subst hc
    obtain ⟨x, k, rfl⟩ | ⟨x, y, k, rfl⟩ := hr.node_or_link
    · show (t.reportNode x k).topology.cost? id = _
      rw [cost?_reportNode, hold, Option.join_some]
      split
      · rename_i hx
        cases k with
        | none => rfl
        | some k => rw [hagree hx, Option.some_or]
      · rfl
    · show (t.reportLink x y k).topology.cost? id = _
      rw [cost?_reportLink, hold, Option.join_some, ite_self]
  · obtain ⟨ha, hb, hheld⟩ := hreflects
    refine ⟨(isFetched_apply t hr a).2 (.inl ha), hstays hb, fun hne hback => ?_⟩
    have hold := hheld hne (by_contra fun hba => h.held?_apply_ne_none hr hba hback)
    obtain ⟨x, k, rfl⟩ | ⟨x, y, k, rfl⟩ := hr.node_or_link
    · show (t.reportNode x k).topology.held? a b = _
      rw [held?_reportNode, hold]
    · show (t.reportLink x y k).topology.held? a b = _
      rw [h.held?_reportLink, hold]
      split
      · rename_i hends
        rw [hagree hends.2.2.1 (by rw [hends.1, hends.2.1])]
      · rfl

/-- **Consistent reports are all reflected in the end.** -/
theorem WellFormed.reflects_run (h : t.WellFormed) {reports : List Report}
    (hreports : Report.Consistent reports) : ∀ r ∈ reports, (t.run reports).Reflects r := by
  induction reports using List.reverseRecOn with
  | nil => exact fun r hr => absurd hr List.not_mem_nil
  | append_singleton reports last ih =>
    have hold : ∀ r ∈ reports, r ∈ reports ++ [last] := fun r => List.mem_append_left _
    have hlast : last ∈ reports ++ [last] := List.mem_append_right _ List.mem_cons_self
    intro r hr
    rw [run_append_one]
    rcases List.mem_append.1 hr with hr | hr
    · exact (h.run reports).reflects_stays (hreports.grows last hlast)
        (hreports.grows r (hold r hr)) (hreports.agrees last hlast r (hold r hr))
        (ih (hreports.mono hold) r hr)
    · rw [List.mem_singleton.1 hr]
      exact (h.run reports).reflects_apply last

/-- **What is told again changes nothing.**  In every topology that can arise: a report that follows
itself lists no difference and leaves the topology as it is, whatever its kind; and so does a neighbour
list that names no neighbour twice when it is absorbed a second time.  The answers of a mesh are such
lists. -/
theorem run_apply_again (localId : NodeId) (history : List Report) :
    let t := (root localId).run history
    (∀ r, let u := (t.apply r).topology; u.apply r = u.unchanged) ∧
    (∀ (list : NeighborList) (id : NodeId), (list.neighbors.map Prod.fst).Nodup →
      let u := t.run (list.reports id); u.applyAll (list.reports id) = u.unchanged) ∧
    ∀ (m : Mesh) (id : NodeId) (list : NeighborList), m.answer id = .ok list →
      (list.neighbors.map Prod.fst).Nodup := by
  intro t
  have h : t.WellFormed := wellFormed_run localId history
  refine ⟨fun r => ?_, fun list id hnodup => ?_, fun m id list => Mesh.neighbors_nodup_of_answer⟩
  · have hafter := (h.apply_sound r).wellFormed
    exact (hafter.apply_eq_unchanged_iff r).2 (h.reflects_apply r)
  · have hafter := h.run (list.reports id)
    exact hafter.applyAll_eq_unchanged (h.reflects_run (list.consistent_reports hnodup id))

/-- A list with the node itself, a node that holds the link and a new node among the neighbours. -/
theorem run_apply_again_list :
    let list : NeighborList := ⟨some ⟨9⟩, [(⟨1⟩, ⟨3⟩), (⟨0⟩, ⟨4⟩), (⟨2⟩, ⟨5⟩)]⟩
    let u := ((root ⟨0⟩).run [.link ⟨0⟩ ⟨1⟩ ⟨7⟩]).run (list.reports ⟨1⟩)
    (list.neighbors.map Prod.fst).Nodup ∧ u.applyAll (list.reports ⟨1⟩) = u.unchanged :=
  ⟨by decide, (run_apply_again ⟨0⟩ [.link ⟨0⟩ ⟨1⟩ ⟨7⟩]).2.1 _ ⟨1⟩ (by decide)⟩

end Topology
end MeshView
