/-
# Whether a node is known

A stored node is unknown until it counts as fetched.  No answer marks a node as such: what an answer
brings is queued like any other item and absorbed as the reports that it stands for, and the mark
comes with the first of them that is a link of the node.  So an answer that lists a neighbour makes
its node known, whichever neighbour that is, and an answer that lists none leaves the node as it was,
although it tells all there is to tell.  A failure leaves everything as it was.  The mark goes only
when the node does (`run_status`).
-/

import MeshView.Proofs.Monitor.Moves

namespace MeshView
namespace Monitor
variable {tells : NodeId → Answer → Prop} {localId : NodeId} {m : Monitor}

/-- Absorbing an item leaves the mark of every node that stays stored. -/
theorem Regular.isFetched_item (h : m.Regular tells localId) {item : Inbound}
    (hitem : item ∈ m.inbound) {id : NodeId}
    (hid : (m.topology.applyAll item.reports).topology.contains id = true)
    (hf : m.topology.isFetched id = true) :
    (m.topology.applyAll item.reports).topology.isFetched id = true := by
  cases item with
  | external r => exact h.wellFormed.isFetched_stays hid hf
  | submitted ticket r => exact h.wellFormed.isFetched_stays hid hf
  | fetched d =>
    obtain ⟨list, -, hreports⟩ := h.arrived d hitem
    have hgrows : ∀ r ∈ d.reports, r.Grows := fun r hr =>
      NeighborList.grows_of_mem_reports (hreports ▸ hr)
    exact (Topology.isFetched_applyAll _ hgrows id).2 (.inl hf)

/-- **No action makes a known node unknown**, unless it removes the node. -/
theorem Regular.isFetched_perform (h : m.Regular tells localId) {a : Action} {id : NodeId}
    (hid : (m.perform a).topology.contains id = true) (hf : m.topology.isFetched id = true) :
    (m.perform a).topology.isFetched id = true := by
  by_cases hpump : a = .pump
  · subst hpump
    change m.pump.topology.contains id = true at hid
    show m.pump.topology.isFetched id = true
    cases hi : m.inbound with
    | nil => rwa [pump, hi]
    | cons item rest =>
      rw [(pump_eq hi).2.2.1] at hid ⊢
      exact h.isFetched_item (hi ▸ List.mem_cons_self) hid hf
  · rwa [(Passes.perform h.orderly hpump).topology_eq]

/-- A known node stays known for as long as it is stored. -/
theorem Regular.isFetched_run (h : m.Regular tells localId) {later : List Action}
    (hlater : m.Answers tells later) {id : NodeId} (hf : m.topology.isFetched id = true)
    (hstored : ∀ before, before <+: later → (m.run before).topology.contains id = true) :
    (m.run later).topology.isFetched id = true := by
  induction later generalizing m with
  | nil => exact hf
  | cons a later ih =>
    have hone : (m.perform a).topology.contains id = true :=
      hstored [a] (List.cons_prefix_cons.2 ⟨rfl, List.nil_prefix⟩)
    refine ih (h.perform hlater.1) hlater.2 (h.isFetched_perform hone hf) fun before hbefore => ?_
    exact hstored (a :: before) (List.cons_prefix_cons.2 ⟨rfl, hbefore⟩)

/-- An answer that is absorbed makes its node known if it lists a neighbour, and leaves it as it was
otherwise. -/
theorem Regular.mem_unfetched_pump (h : m.Regular tells localId) {id : NodeId}
    {list : NeighborList} {rest : List Inbound}
    (hi : m.inbound = .fetched ⟨id, list.reports id⟩ :: rest)
    (hid : m.topology.contains id = true) : m.pump.topology.contains id = true ∧
      (id ∈ m.pump.topology.unfetched ↔ list.neighbors = [] ∧ id ∈ m.topology.unfetched) := by
  have hgrows : ∀ r ∈ list.reports id, r.Grows := fun r => NeighborList.grows_of_mem_reports
  have htopology : m.pump.topology = (m.topology.applyAll (list.reports id)).topology :=
    (pump_eq hi).2.2.1
  have hwf : m.pump.topology.WellFormed := htopology ▸ h.wellFormed.applyAll _
  have hstored : m.pump.topology.contains id = true :=
    htopology ▸ h.wellFormed.contains_applyAll hgrows hid
  refine ⟨hstored, ?_⟩
  rw [hwf.mem_unfetched, h.wellFormed.mem_unfetched, and_iff_right hstored, and_iff_right hid,
    htopology, ← Bool.not_eq_true, Topology.isFetched_applyAll _ hgrows,
    Topology.exists_fetches_iff, and_iff_left rfl, not_or, not_not, Bool.not_eq_true, and_comm]

/-- **What decides whether a node is known**, after any run.  An answer for the running request is
queued as a fetched list, while the monitor is open, and every fetched list that is queued is such an
answer.  Once the answer of a stored node has been absorbed, the node is still stored, and it is
unknown if and only if it was unknown before and its answer lists no neighbour.  A known node stays
known through all that happens later, for as long as it is stored.  A failure leaves the topology
and what is queued as they were. -/
theorem run_status (localId : NodeId) (settings : Settings) (actions : List Action) :
    let m := (start localId settings).run actions
    (∀ list id, m.isOpen = true → m.backfill.running = some id →
      (m.perform (.finish (.ok list))).inbound = m.inbound ++ [.fetched ⟨id, list.reports id⟩]) ∧
    (∀ d, Inbound.fetched d ∈ m.inbound → ∃ list : NeighborList, d.reports = list.reports d.id) ∧
    (∀ id (list : NeighborList) rest, m.inbound = .fetched ⟨id, list.reports id⟩ :: rest →
      m.topology.contains id = true →
      (m.perform .pump).topology.contains id = true ∧
        (id ∈ (m.perform .pump).topology.unfetched ↔
          list.neighbors = [] ∧ id ∈ m.topology.unfetched)) ∧
    (∀ id later, id ∉ m.topology.unfetched →
      (∀ before, before <+: later → (m.run before).topology.contains id = true) →
      id ∉ (m.run later).topology.unfetched) ∧
    ∀ failure, (m.perform (.finish (.error failure))).topology = m.topology ∧
      (m.perform (.finish (.error failure))).inbound = m.inbound := by
  intro m
  have hall : ∀ (m : Monitor) (actions : List Action), m.Answers (fun _ _ => True) actions :=
    answers_of_forall fun _ _ => trivial
  have h : m.Regular (fun _ _ => True) localId :=
    (regular_start _ localId settings).run (hall _ actions)
  refine ⟨fun list id hopen hrunning => ?_, fun d hd => ?_, fun id list rest => h.mem_unfetched_pump,
    fun id later hknown hstored => ?_, fun failure => ⟨rfl, rfl⟩⟩
  · show (m.finish (.ok list)).inbound = _
    rw [finish_ok_eq hopen hrunning]
  · obtain ⟨list, -, hreports⟩ := h.arrived d hd
    exact ⟨list, hreports⟩
  · have hwf := (h.run (hall m later)).wellFormed
    have hf : m.topology.isFetched id = true := by
      by_contra hf
      exact hknown (h.wellFormed.mem_unfetched.2
        ⟨hstored [] List.nil_prefix, Bool.eq_false_iff.2 hf⟩)
    rw [hwf.mem_unfetched, h.isFetched_run (hall m later) hf hstored]
    exact fun hunknown => Bool.false_ne_true hunknown.2.symm

end Monitor
end MeshView
