/-
# Whether backfill comes to rest

Absorbing and asking feed each other: every difference asks for all that is missing, and every answer
may make a difference.  Suppose that every node always gives the same answer.  What reached the
monitor from outside is used up first.  Then every answer that closes a gap brings the topology nearer
to the answers, and a gap never opens again.  What is left are answers of restless nodes: they make a
difference again and again, but a node whose cost is known is not asked for again, and neither is the
node whose answer makes the difference.  So nothing goes on unless there are two restless nodes that
tell no cost, costs are wanted, and each keeps asking for the other (`Rivals`).

`rank` puts these reasons in their order, and every move lowers it (`Regular.rank_lt`).
-/

import Mathlib.Data.Fintype.Card
import Mathlib.Data.Fintype.Powerset
import Mathlib.Data.Prod.Lex
import Mathlib.Order.CompletePartialOrder
import MeshView.Proofs.Monitor.Moves
import MeshView.Proofs.Topology.Gaps

namespace MeshView

/-- The answer of the node is a list without a cost. -/
def TellsNoCost (answer : NodeId → Answer) (id : NodeId) : Prop :=
  ∃ list, answer id = .ok list ∧ list.cost = none

/-- A node other than the local one that tells no cost, and that names a neighbour with two costs. -/
structure Fickle (answer : NodeId → Answer) (localId a b : NodeId) : Prop where
  ne_local : a ≠ localId
  ne_self : b ≠ a
  noCost : TellsNoCost answer a
  wavers : Wavers answer a b

/-- Two nodes are fickle about different links. -/
def Rivals (answer : NodeId → Answer) (localId : NodeId) : Prop :=
  ∃ x a y b, Fickle answer localId x a ∧ Fickle answer localId y b ∧ x ≠ y ∧ s(x, a) ≠ s(y, b)

namespace Monitor
variable {answer : NodeId → Answer} {localId : NodeId} {m m' : Monitor}

/-- Costs are wanted, and that of the node is not known. -/
def Costless (m : Monitor) (id : NodeId) : Prop :=
  m.fetchCosts = true ∧ m.topology.cost? id = some none

/-- Restless nodes under way that will not be asked for again. -/
def spent (answer : NodeId → Answer) (m : Monitor) : Set NodeId :=
  fun id => id ∈ m.backfill.waiting m.out ∧ m.topology.Restless answer id ∧ ¬ m.Costless id

/-- Restless nodes under way that will be asked for again. -/
def eager (answer : NodeId → Answer) (m : Monitor) : Set NodeId :=
  fun id => id ∈ m.backfill.waiting m.out ∧ m.topology.Restless answer id ∧ m.Costless id ∧
    TellsNoCost answer id

/-- How many items wait that came from outside. -/
def outside (m : Monitor) : Nat := m.inbound.countP fun item => item.fetchedId?.isNone

/-- How many moves are left if nothing more is asked for. -/
def effort (m : Monitor) : Nat :=
  m.inbound.length + 2 * m.backfill.running.toList.length + 3 * m.backfill.queue.length

/-- What every move lowers. -/
def rank (answer : NodeId → Answer) (m : Monitor) :
    ℕ ×ₗ Set Gap ×ₗ Set NodeId ×ₗ Set NodeId ×ₗ ℕ :=
  toLex (m.outside, toLex (m.topology.gaps answer, toLex (m.spent answer,
    toLex (m.eager answer, m.effort))))

theorem rank_lt_of (houtside : m'.outside ≤ m.outside)
    (h : m'.outside = m.outside → m'.topology.gaps answer ⊆ m.topology.gaps answer ∧
      (m'.topology.gaps answer = m.topology.gaps answer → m'.spent answer ⊆ m.spent answer ∧
        (m'.spent answer = m.spent answer → m'.eager answer ⊆ m.eager answer ∧
          (m'.eager answer = m.eager answer → m'.effort < m.effort)))) :
    m'.rank answer < m.rank answer := by
  refine Prod.Lex.toLex_lt_toLex'.2 ⟨houtside, fun heq => ?_⟩
  refine Prod.Lex.toLex_lt_toLex'.2 ⟨(h heq).1, fun heq' => ?_⟩
  refine Prod.Lex.toLex_lt_toLex'.2 ⟨((h heq).2 heq').1, fun heq'' => ?_⟩
  exact Prod.Lex.toLex_lt_toLex'.2 (((h heq).2 heq').2 heq'')

/-! ## The worker -/

/-- What passes asks for nothing, so it lowers the rank with the effort. -/
theorem Passes.rank_lt (h : Passes m m') (houtside : m'.outside ≤ m.outside)
    (heffort : m'.effort < m.effort) : m'.rank answer < m.rank answer := by
  have ht := h.topology_eq
  have hcostless : ∀ id, m'.Costless id ↔ m.Costless id := fun id => by
    rw [Costless, Costless, ht, h.fetchCosts_eq]
  refine rank_lt_of houtside fun _ => ⟨ht ▸ subset_rfl, fun _ => ⟨fun id hid => ?_, fun _ =>
    ⟨fun id hid => ?_, fun _ => heffort⟩⟩⟩
  · exact ⟨h.waiting_subset id hid.1, ht ▸ hid.2.1, fun hc => hid.2.2 ((hcostless id).2 hc)⟩
  · exact ⟨h.waiting_subset id hid.1, ht ▸ hid.2.1, (hcostless id).1 hid.2.2.1, hid.2.2.2⟩

/-! ## Absorbing an answer -/

/-- Without rivals, no two restless nodes are asked for again and again. -/
theorem eq_of_restless (hno : ¬ Rivals answer localId) {t : Topology} (ht : t.WellFormed)
    {x y : NodeId} (hx : x ≠ localId) (hy : y ≠ localId) (hrx : t.Restless answer x)
    (hry : t.Restless answer y) (hcx : TellsNoCost answer x) (hcy : TellsNoCost answer y) :
    x = y := by
  obtain ⟨a, hwx, hax⟩ := hrx
  obtain ⟨b, hwy, hby⟩ := hry
  by_contra hne
  have hself : ∀ c d, t.held? c d ≠ none → d ≠ c := fun c d hcd hdc =>
    hcd (hdc ▸ ht.held?_self d)
  refine hno ⟨x, a, y, b, ⟨hx, hself x a hax, hcx, hwx⟩, ⟨hy, hself y b hby, hcy, hwy⟩, hne, ?_⟩
  -- a link is held at one end only
  intro hlink
  rcases Sym2.eq_iff.1 hlink with ⟨hxy, -⟩ | ⟨rfl, rfl⟩
  · exact hne hxy
  · exact hby (ht.held_once _ _ hax)

section Absorb
variable {item : Inbound} {rest : List Inbound} {new : List NodeId}
  (hpumped : Pumped m item rest new m')
include hpumped

/-- If no gap closes, nobody gets or loses a cost. -/
theorem Pumped.costless_iff (hstill : m.topology.Still m'.topology) (id : NodeId) :
    m'.Costless id ↔ m.Costless id := by
  rw [Costless, Costless, hpumped.fetchCosts_eq, hstill.cost?_eq]

/-- A restless node is marked as fetched, so it is asked for only if its cost is wanted. -/
theorem Pumped.spent_subset (hafter : m'.Regular (fun id a => a = answer id) localId)
    (hstill : m.topology.Still m'.topology) : m'.spent answer ⊆ m.spent answer := by
  rintro id ⟨hid, hr, hc⟩
  rcases (hpumped.mem_waiting id).1 hid with ⟨hwaits, -⟩ | hnew
  · exact ⟨hwaits, hstill.restless_iff.1 hr, fun h => hc ((hpumped.costless_iff hstill id).2 h)⟩
  · obtain ⟨b, -, hheld⟩ := hr
    have hcandidate := (mem_candidates hafter.wellFormed id).1 (hpumped.sublist.subset hnew)
    refine absurd (hcandidate.1.resolve_left fun hunfetched => ?_) hc
    exact Bool.false_ne_true (hunfetched.2.symm.trans (hafter.holdersFetched id b hheld))

/-- Where nothing is asked for, nobody becomes eager, and one move is done. -/
theorem Pumped.eager_effort (hi : m.inbound = item :: rest) (hnone : new = [])
    (hstill : m.topology.Still m'.topology) :
    m'.eager answer ⊆ m.eager answer ∧ m'.effort < m.effort := by
  refine ⟨fun id hid => ?_, ?_⟩
  · rcases (hpumped.mem_waiting id).1 hid.1 with ⟨hwaits, -⟩ | hasked
    · exact ⟨hwaits, hstill.restless_iff.1 hid.2.1,
        (hpumped.costless_iff hstill id).1 hid.2.2.1, hid.2.2.2⟩
    · rw [hnone] at hasked
      cases hasked
  · rw [effort, effort, hpumped.inbound_eq, hpumped.running_eq, hpumped.queue_eq, hnone,
      List.append_nil, hi, List.length_cons]
    omega

end Absorb

/-- **Absorbing an answer lowers the rank.**  If it closes no gap and makes a difference, its node is
restless.  Then the node was spent and is no longer under way, or it was the only eager one. -/
theorem Regular.rank_lt_pump (h : m.Regular (fun id a => a = answer id) localId)
    (hno : m.fetchCosts = true → ¬ Rivals answer localId) {d : Delivery} {rest : List Inbound}
    (hi : m.inbound = .fetched d :: rest) : m.pump.rank answer < m.rank answer := by
  obtain ⟨new, hpumped⟩ := exists_pumped h.orderly hi
  obtain ⟨list, hanswer, hreports⟩ := h.arrived d (hi ▸ List.mem_cons_self)
  have hafter : m.pump.Regular (fun id a => a = answer id) localId := h.perform (a := .pump) nofun
  have ht : m.pump.topology = (m.topology.applyAll (list.reports d.id)).topology :=
    hpumped.topology_eq.trans (congrArg (fun r => (m.topology.applyAll r).topology) hreports)
  have hquiet : (m.topology.applyAll (list.reports d.id)).diff = ∅ → new = [] := by
    rw [← hreports]
    exact hpumped.quiet
  have hnearer := Topology.nearer_reports h.wellFormed hanswer.symm
  have hunder : d.id ∈ m.backfill.waiting m.out :=
    mem_waiting_of_mem_inbound (hi ▸ List.mem_cons_self) rfl
  have hgone := hpumped.notMem_waiting hi rfl
  have houtside : m.pump.outside = m.outside := by
    rw [outside, outside, hpumped.inbound_eq, hi, List.countP_cons]
    rfl
  refine rank_lt_of houtside.le fun _ => ⟨ht ▸ hnearer.subset, fun hgaps => ?_⟩
  rw [ht] at hgaps
  have hstill : m.topology.Still m.pump.topology := ht ▸ hnearer.still hgaps
  refine ⟨hpumped.spent_subset hafter hstill, fun hspent => ?_⟩
  by_cases hd : (m.topology.applyAll (list.reports d.id)).diff = ∅
  · exact (hpumped.eager_effort hi (hquiet hd) hstill).imp_right fun heffort _ => heffort
  have hr : m.topology.Restless answer d.id := hnearer.restless hgaps hd
  by_cases hc : m.Costless d.id
  · have hnocost : TellsNoCost answer d.id := by
      refine ⟨list, hanswer.symm, Option.eq_none_iff_forall_ne_some.2 fun k hk => ?_⟩
      refine Topology.cost_notMem_gaps h.wellFormed hanswer.symm ⟨list, k, hanswer.symm, hk, ?_⟩
      rw [← ht, hstill.cost?_eq, hc.2]
      exact fun hsome => Option.some_ne_none k (Option.some.inj hsome).symm
    have hempty : ∀ id, id ∉ m.pump.eager answer := by
      rintro id ⟨hid, hr', -, hnocost'⟩
      have hsame := eq_of_restless (hno hc.1) h.wellFormed (hafter.asked id hid)
        (h.asked d.id hunder) (hstill.restless_iff.1 hr') hr hnocost' hnocost
      exact hgone (hsame ▸ hid)
    refine ⟨fun id hid => absurd hid (hempty id), fun heager => absurd ?_ (hempty d.id)⟩
    rw [heager]
    exact ⟨hunder, hr, hc, hnocost⟩
  · have hmem : d.id ∈ m.spent answer := ⟨hunder, hr, hc⟩
    rw [← hspent] at hmem
    exact absurd hmem.1 hgone

/-! ## Every move -/

/-- **Every move lowers the rank.** -/
theorem Regular.rank_lt (h : m.Regular (fun id a => a = answer id) localId)
    (hno : m.fetchCosts = true → ¬ Rivals answer localId) (hmove : Move answer m m') :
    m'.rank answer < m.rank answer := by
  cases hmove with
  | @pump item rest hi =>
    show m.pump.rank answer < m.rank answer
    cases hitem : item.fetchedId? with
    | none =>
      have hrest : m.pump.outside < m.outside := by
        rw [outside, outside, (pump_eq hi).2.1, hi, List.countP_cons, hitem]
        exact Nat.lt_succ_self _
      exact rank_lt_of hrest.le fun heq => absurd heq hrest.ne
    | some id =>
      cases item with
      | fetched d => exact h.rank_lt_pump hno hi
      | external r => cases hitem
      | submitted ticket r => cases hitem
  | @issue id rest hr hq =>
    have heq := (h.orderly.issue hr hq).1
    refine (Passes.issue h.orderly).rank_lt le_rfl ?_
    show m.inbound.length + 2 * m.backfill.issue.running.toList.length +
      3 * m.backfill.issue.queue.length < _
    rw [effort, heq, hr, hq, List.length_cons]
    simp only [Option.toList_some, Option.toList_none, List.length_singleton, List.length_nil]
    omega
  | @finish id hr =>
    obtain ⟨hrunning, hqueue, -⟩ := m.worker_finish (answer id)
    obtain ⟨houtside, hlength⟩ : (m.finish (answer id)).outside = m.outside ∧
        (m.finish (answer id)).inbound.length ≤ m.inbound.length + 1 := by
      rcases m.inbound_finish (answer id) with hsame | ⟨d, -, hqueued⟩
      · rw [outside, hsame]
        exact ⟨rfl, Nat.le_succ _⟩
      · rw [outside, hqueued, List.countP_append, List.length_append]
        exact ⟨rfl, le_rfl⟩
    refine (Passes.finish h.orderly (answer id)).rank_lt houtside.le ?_
    rw [effort, effort, hrunning, hqueue, hr]
    simp only [Option.toList_some, Option.toList_none, List.length_singleton, List.length_nil]
    omega

/-- At most two moves are possible: one of the two activities goes on. -/
theorem Move.eq_or (hmove : Move answer m m') : m' = m.perform .pump ∨
    m' = m.perform (m.backfill.running.elim .issue fun id => .finish (answer id)) := by
  cases hmove with
  | pump hi => exact .inl rfl
  | issue hr hq => exact .inr (by rw [hr]; rfl)
  | finish hr => exact .inr (by rw [hr]; rfl)

/-- **There is a bound on the number of moves.** -/
theorem Regular.exists_limit (h : m.Regular (fun id a => a = answer id) localId)
    (hno : m.fetchCosts = true → ¬ Rivals answer localId) :
    ∃ limit, ∀ k m', Moves answer k m m' → k ≤ limit := by
  induction hrank : m.rank answer using WellFoundedLT.induction generalizing m with
  | _ r ih =>
    have hnext : ∀ a : Action, ∃ limit, Move answer m (m.perform a) →
        ∀ k m', Moves answer k (m.perform a) m' → k ≤ limit := by
      intro a
      by_cases hmove : Move answer m (m.perform a)
      · obtain ⟨limit, hlimit⟩ := ih _ (hrank ▸ h.rank_lt hno hmove) (h.move hmove)
          (by rwa [fetchCosts_perform h.orderly]) rfl
        exact ⟨limit, fun _ => hlimit⟩
      · exact ⟨0, fun h => absurd h hmove⟩
    obtain ⟨pumped, hpumped⟩ := hnext .pump
    obtain ⟨worked, hworked⟩ :=
      hnext (m.backfill.running.elim .issue fun id => .finish (answer id))
    refine ⟨max pumped worked + 1, fun k m' hmoves => ?_⟩
    cases hmoves with
    | refl => exact Nat.zero_le _
    | @step k _ _ _ hmove hrest =>
      rcases hmove.eq_or with rfl | rfl
      · exact Nat.succ_le_succ ((hpumped hmove k m' hrest).trans (le_max_left _ _))
      · exact Nat.succ_le_succ ((hworked hmove k m' hrest).trans (le_max_right _ _))

end Monitor
end MeshView
