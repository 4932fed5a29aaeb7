/-
# What the answers can still change

Every node has one answer that it gives whenever it is asked.  A gap is something in which a topology
differs from what the answers tell: a node that is not stored, two nodes that are not linked, a cost
that is not the one its node tells, a link held with another cost than its holder tells.  Absorbing
an answer opens no gap (`nearer_reports`), so answers can close gaps only finitely often.

One thing can go on for ever.  A list may name a neighbour twice with different costs; whoever holds
such a link changes its cost back and forth whenever its answer is absorbed.  If an answer makes a
difference and closes no gap, its node is `Restless`.
-/

import Mathlib.Data.Finite.Prod
import Mathlib.Data.Finite.Sum
import MeshView.Proofs.Topology.Fetched

namespace MeshView

/-- The answer of `a` names `b` with two costs. -/
def Wavers (answer : NodeId → Answer) (a b : NodeId) : Prop :=
  ∃ list c c', answer a = .ok list ∧ (b, c) ∈ list.neighbors ∧ (b, c') ∈ list.neighbors ∧ c ≠ c'

/-- Something in which a topology may differ from the answers. -/
inductive Gap where
  | node (id : NodeId)
  | link (a b : NodeId)
  | cost (id : NodeId)
  | held (a b : NodeId)

instance : Finite NodeId :=
  Finite.of_injective (fun id : NodeId => id.word.toFin) fun a b h => by
    cases a
    cases b
    exact congrArg NodeId.mk (UInt64.toFin_inj.1 h)

instance : Finite Gap :=
  Finite.of_injective (β := (NodeId ⊕ NodeId × NodeId) ⊕ (NodeId ⊕ NodeId × NodeId))
    (fun
      | .node id => .inl (.inl id)
      | .link a b => .inl (.inr (a, b))
      | .cost id => .inr (.inl id)
      | .held a b => .inr (.inr (a, b)))
    fun g g' h => by cases g <;> cases g' <;> simp_all

namespace Topology

/-- The gaps of a topology. -/
def gaps (answer : NodeId → Answer) (t : Topology) : Set Gap :=
  fun
    | .node id => t.contains id = false
    | .link a b => t.link? s(a, b) = none
    | .cost id => ∃ list k, answer id = .ok list ∧ list.cost = some k ∧ t.cost? id ≠ some (some k)
    | .held a b => ∃ list c, answer a = .ok list ∧ (b, c) ∈ list.neighbors ∧ ¬ Wavers answer a b ∧
        t.held? a b ≠ none ∧ t.held? a b ≠ some c

/-- The node holds a link whose cost its answer names twice. -/
def Restless (answer : NodeId → Answer) (t : Topology) (id : NodeId) : Prop :=
  ∃ b, Wavers answer id b ∧ t.held? id b ≠ none

/-- The same costs are known and the same links are held, apart from their costs. -/
structure Still (t t' : Topology) : Prop where
  cost?_eq : ∀ id, t'.cost? id = t.cost? id
  held?_iff : ∀ a b, t'.held? a b ≠ none ↔ t.held? a b ≠ none

/-- What absorbing reports that answers stand for does: no gap opens, and if none closes, the same
nodes and links are there as before; only `id` may have changed a link that it holds. -/
structure Nearer (answer : NodeId → Answer) (id : NodeId) (t : Topology) (c : Change) : Prop where
  wellFormed : c.topology.WellFormed
  subset : c.topology.gaps answer ⊆ t.gaps answer
  still : c.topology.gaps answer = t.gaps answer → t.Still c.topology
  restless : c.topology.gaps answer = t.gaps answer → c.diff ≠ ∅ → t.Restless answer id

variable {answer : NodeId → Answer} {id : NodeId} {t t' : Topology}

theorem Still.restless_iff (h : t.Still t') : t'.Restless answer id ↔ t.Restless answer id :=
  exists_congr fun b => and_congr_right fun _ => h.held?_iff id b

theorem Nearer.unchanged (h : t.WellFormed) : Nearer answer id t t.unchanged where
  wellFormed := h
  subset := subset_rfl
  still _ := ⟨fun _ => rfl, fun _ _ => Iff.rfl⟩
  restless _ hd := absurd rfl hd

theorem Nearer.andThen {c : Change} {next : Topology → Change} (h : Nearer answer id t c)
    (h' : Nearer answer id c.topology (next c.topology)) : Nearer answer id t (c.andThen next) := by
  -- if no gap closes in both together, none closes in either
  have hboth : (next c.topology).topology.gaps answer = t.gaps answer →
      c.topology.gaps answer = t.gaps answer ∧
        (next c.topology).topology.gaps answer = c.topology.gaps answer := fun heq =>
    have hfirst := h.subset.antisymm (heq ▸ h'.subset)
    ⟨hfirst, heq.trans hfirst.symm⟩
  refine ⟨h'.wellFormed, h'.subset.trans h.subset, fun heq => ?_, fun heq hd => ?_⟩
  · obtain ⟨hfirst, hsecond⟩ := hboth heq
    have hs := h.still hfirst
    have hs' := h'.still hsecond
    exact ⟨fun x => (hs'.cost?_eq x).trans (hs.cost?_eq x),
      fun a b => (hs'.held?_iff a b).trans (hs.held?_iff a b)⟩
  · obtain ⟨hfirst, hsecond⟩ := hboth heq
    by_cases hd' : c.diff = ∅
    · have hlast : (next c.topology).diff ≠ ∅ := fun hempty =>
        hd (Diff.append_eq_empty_iff.2 ⟨hd', hempty⟩)
      exact (h.still hfirst).restless_iff.1 (h'.restless hsecond hlast)
    · exact h.restless hfirst hd'

/-- A change that costs and held links do not show lists no difference. -/
theorem Growth.exists_of_diff_ne {c : Change} (ht : t.WellFormed) (h : Growth t c)
    (hd : c.diff ≠ ∅) (hcost : ∀ x, c.topology.cost? x = t.cost? x) :
    ∃ a b, c.topology.held? a b ≠ t.held? a b := by
  by_contra hsame
  push Not at hsame
  have hsnapshot := ht.snapshot_congr h.wellFormed hcost hsame
  exact hd (Diff.isEmpty_iff.1 ((h.toSound.isEmpty_iff ht).2 hsnapshot.symm))

/-- What takes nothing away opens no gap of nodes and links. -/
theorem Growth.gaps_subset {c : Change} (h : Growth t c)
    (hcost : ∀ x, Gap.cost x ∈ c.topology.gaps answer → Gap.cost x ∈ t.gaps answer)
    (hheld : ∀ a b, Gap.held a b ∈ c.topology.gaps answer → Gap.held a b ∈ t.gaps answer) :
    c.topology.gaps answer ⊆ t.gaps answer := by
  intro gap hgap
  cases gap with
  | node x =>
    refine Bool.eq_false_iff.2 fun hx => Bool.eq_false_iff.1 hgap ?_
    exact contains_iff_cost?.2 (h.stored x (contains_iff_cost?.1 hx))
  | link a b => exact by_contra fun hne => h.linked _ hne hgap
  | cost x => exact hcost x hgap
  | held a b => exact hheld a b hgap

/-- A link whose nodes were stored and linked before changes at most its cost. -/
theorem WellFormed.still_reportLink (h : t.WellFormed) (a b : NodeId) (c : Cost)
    (heq : (t.reportLink a b c).topology.gaps answer = t.gaps answer) :
    t.Still (t.reportLink a b c).topology := by
  have hcost := cost?_reportLink t a b c
  refine ⟨fun x => ?_, fun x y => ?_⟩
  · rw [hcost]
    split
    · cases hx : t.cost? x with
      | some cost => rfl
      | none =>
        -- a node that is stored just now closes a gap
        have hold : Gap.node x ∈ t.gaps answer :=
          Bool.eq_false_iff.2 fun hstored => contains_iff_cost?.1 hstored hx
        rw [← heq] at hold
        have hnew : (t.reportLink a b c).topology.contains x = true := by
          rw [contains_iff_cost?, hcost, if_pos ‹_›]
          exact Option.some_ne_none _
        exact absurd hnew (Bool.eq_false_iff.1 hold)
    · rfl
  · rw [h.held?_reportLink]
    split
    · rename_i hxy
      obtain ⟨rfl, rfl, hne, hback⟩ := hxy
      refine iff_of_true (Option.some_ne_none c) fun hnone => ?_
      -- and so does a link that is stored just now
      have hold : Gap.link a b ∈ t.gaps answer := h.link?_eq_none_iff.2 ⟨hnone, hback⟩
      rw [← heq] at hold
      change (t.reportLink a b c).topology.link? s(a, b) = none at hold
      rw [h.link?_reportLink, if_pos ⟨rfl, hne, hback⟩] at hold
      cases hold
    · rfl

section Report
variable (h : t.WellFormed) {list : NeighborList} (hanswer : answer id = .ok list)
include h hanswer

/-- A node tells its cost. -/
theorem nearer_reportNode {k : Cost} (hk : list.cost = some k) :
    Nearer answer id t (t.reportNode id (some k)) ∧
      Gap.cost id ∉ (t.reportNode id (some k)).topology.gaps answer := by
  have hgrowth := h.reportNode_growth id (some k)
  have hcost := cost?_reportNode t id (some k)
  have hheld := held?_reportNode t id (some k)
  have hclosed : Gap.cost id ∉ (t.reportNode id (some k)).topology.gaps answer := by
    rintro ⟨list', k', hlist', hk', hne⟩
    cases hanswer.symm.trans hlist'
    rw [hcost, if_pos rfl] at hne
    exact hne (congrArg some (hk.symm.trans hk'))
  have hstill : (t.reportNode id (some k)).topology.gaps answer = t.gaps answer →
      t.Still (t.reportNode id (some k)).topology := by
    intro heq
    have hknown : t.cost? id = some (some k) := by
      by_contra hne
      exact hclosed (heq ▸ (⟨list, k, hanswer, hk, hne⟩ : Gap.cost id ∈ t.gaps answer))
    refine ⟨fun x => ?_, fun a b => by rw [hheld]⟩
    rw [hcost]
    split
    · rename_i hx
      rw [← hx, hknown]
      rfl
    · rfl
  refine ⟨⟨hgrowth.wellFormed, hgrowth.gaps_subset ?_ ?_, hstill, fun heq hd => ?_⟩, hclosed⟩
  · rintro x ⟨list', k', hlist', hk', hne⟩
    refine ⟨list', k', hlist', hk', fun hx => hne ?_⟩
    rw [hcost]
    split
    · rename_i hidx
      cases hanswer.symm.trans (hidx ▸ hlist')
      exact congrArg some (hk.symm.trans hk')
    · exact hx
  · rintro a b ⟨list', c, hlist', hc, hsteady, hne, hne'⟩
    rw [hheld] at hne hne'
    exact ⟨list', c, hlist', hc, hsteady, hne, hne'⟩
  · obtain ⟨a, b, hab⟩ := hgrowth.exists_of_diff_ne h hd (hstill heq).cost?_eq
    exact absurd (hheld a b) hab

/-- A node tells a link. -/
theorem nearer_reportLink {b : NodeId} {c : Cost} (hb : (b, c) ∈ list.neighbors) :
    Nearer answer id t (t.reportLink id b c) := by
  have hgrowth := h.reportLink_growth id b c
  have hcost := cost?_reportLink t id b c
  have hheld := h.held?_reportLink id b c
  refine ⟨hgrowth.wellFormed, hgrowth.gaps_subset ?_ ?_, h.still_reportLink id b c,
    fun heq hd => ?_⟩
  · rintro x ⟨list', k', hlist', hk', hne⟩
    refine ⟨list', k', hlist', hk', fun hx => hne ?_⟩
    rw [hcost, hx]
    exact ite_self _
  · rintro x y ⟨list', c', hlist', hc', hsteady, hne, hne'⟩
    rw [hheld] at hne hne'
    split at hne'
    · rename_i hxy
      obtain ⟨rfl, rfl, -⟩ := hxy
      cases hanswer.symm.trans hlist'
      exact absurd ⟨list, c', c, hanswer, hc', hb, fun hcc => hne' (congrArg some hcc.symm)⟩ hsteady
    · rename_i hxy
      rw [if_neg hxy] at hne
      exact ⟨list', c', hlist', hc', hsteady, hne, hne'⟩
  · have hstill := h.still_reportLink id b c heq
    obtain ⟨x, y, hxy⟩ := hgrowth.exists_of_diff_ne h hd hstill.cost?_eq
    have hsame := hstill.held?_iff x y
    rw [hheld] at hxy hsame
    split at hxy
    · rename_i hjoined
      rw [if_pos hjoined] at hsame
      have hheld' := (hheld x y).trans (if_pos hjoined)
      obtain ⟨rfl, rfl, -⟩ := hjoined
      have hholds : t.held? id b ≠ none := hsame.1 (Option.some_ne_none c)
      refine ⟨b, by_contra fun hsteady => ?_, hholds⟩
      -- the cost would be the only one that the node names, so its gap would have closed
      have hold : Gap.held id b ∈ t.gaps answer :=
        ⟨list, c, hanswer, hb, hsteady, hholds, Ne.symm hxy⟩
      rw [← heq] at hold
      obtain ⟨list', c', hlist', hc', -, -, hne'⟩ := hold
      cases hanswer.symm.trans hlist'
      rw [hheld'] at hne'
      exact hsteady ⟨list, c, c', hanswer, hb, hc', fun hcc => hne' (congrArg some hcc)⟩
    · exact absurd rfl hxy

theorem nearer_applyAll {reports : List Report} (hreports : ∀ r ∈ reports, r ∈ list.reports id) :
    Nearer answer id t (t.applyAll reports) := by
  induction reports generalizing t with
  | nil => exact .unchanged h
  | cons r reports ih =>
    have hone : Nearer answer id t (t.apply r) := by
      rcases NeighborList.mem_reports_iff.1 (hreports r List.mem_cons_self) with
        ⟨k, hk, rfl⟩ | ⟨n, hn, rfl⟩
      · exact (nearer_reportNode h hanswer hk).1
      · exact nearer_reportLink h hanswer hn
    rw [applyAll, each_cons]
    exact hone.andThen (ih hone.wellFormed fun r' hr' => hreports r' (List.mem_cons_of_mem _ hr'))

/-- **Absorbing an answer opens no gap**, and if it makes a difference and closes none, its node is
restless. -/
theorem nearer_reports : Nearer answer id t (t.applyAll (list.reports id)) :=
  nearer_applyAll h hanswer fun _ hr => hr

/-- The cost that a node tells is known once its answer has been absorbed. -/
theorem cost_notMem_gaps : Gap.cost id ∉ (t.applyAll (list.reports id)).topology.gaps answer := by
  cases hk : list.cost with
  | none =>
    rintro ⟨list', k', hlist', hk', -⟩
    cases hanswer.symm.trans hlist'
    cases hk.symm.trans hk'
  | some k =>
    have hreports : list.reports id =
        .node id (some k) :: list.neighbors.map fun n => .link id n.1 n.2 := by
      rw [NeighborList.reports, hk]
      rfl
    obtain ⟨hone, hclosed⟩ := nearer_reportNode h hanswer hk
    have hlinks : ∀ r ∈ list.neighbors.map fun n => Report.link id n.1 n.2,
        r ∈ list.reports id := fun r hr => hreports ▸ List.mem_cons_of_mem _ hr
    rw [hreports, applyAll, each_cons]
    exact fun hgap => hclosed ((nearer_applyAll hone.wellFormed hanswer hlinks).subset hgap)

end Report

/-! ## Answers that go on making differences -/

/-- If reports make no difference, every held link has the cost that its holder reports. -/
theorem WellFormed.link?_of_diff_eq (h : t.WellFormed) {reports : List Report}
    (hgrows : ∀ r ∈ reports, r.Grows) (hd : (t.applyAll reports).diff = ∅) {a b : NodeId} {c : Cost}
    (hr : .link a b c ∈ reports) (hab : t.held? a b ≠ none) : t.link? s(a, b) = some c := by
  induction reports generalizing t with
  | nil => cases hr
  | cons r reports ih =>
    rw [Topology.applyAll, each_cons] at hd
    obtain ⟨hfirst, hrest⟩ := Diff.append_eq_empty_iff.1 hd
    have hgrowth := h.apply_growth (hgrows r List.mem_cons_self)
    have hview : (t.apply r).topology.view = t.view :=
      hgrowth.wellFormed.view_eq_of_snapshot_eq h (hgrowth.quiet hfirst)
    have hlink : (t.apply r).topology.link? s(a, b) = t.link? s(a, b) :=
      congrFun (congrArg View.links hview) s(a, b)
    rw [← hlink]
    rcases List.mem_cons.1 hr with rfl | hr
    · have hne : a ≠ b := fun he => hab (he ▸ h.held?_self a)
      exact (h.link?_reportLink a b c a b).trans (if_pos ⟨rfl, hne, h.held_once a b hab⟩)
    · exact ih hgrowth.wellFormed (fun r' hr' => hgrows r' (List.mem_cons_of_mem _ hr')) hrest hr
        (h.held?_apply_ne_none (hgrows r List.mem_cons_self) hab)

/-- **The answer of a node that holds a link with two costs makes a difference whenever it is
absorbed.** -/
theorem diff_ne_of_wavers (h : t.WellFormed) {list : NeighborList} (hanswer : answer id = .ok list)
    {b : NodeId} (hwavers : Wavers answer id b) (hheld : t.held? id b ≠ none) :
    (t.applyAll (list.reports id)).diff ≠ ∅ := by
  intro hd
  obtain ⟨list', c, c', hlist', hc, hc', hne⟩ := hwavers
  cases hanswer.symm.trans hlist'
  have hlink : ∀ c, (b, c) ∈ list.neighbors → t.link? s(id, b) = some c := fun c hc =>
    h.link?_of_diff_eq (fun r => NeighborList.grows_of_mem_reports) hd
      (NeighborList.mem_reports_iff.2 (.inr ⟨(b, c), hc, rfl⟩)) hheld
  exact hne (Option.some.inj ((hlink c hc).symm.trans (hlink c' hc')))

end Topology
end MeshView
