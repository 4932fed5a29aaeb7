/-
# What the actions of a monitor do

Absorbing an item changes the topology as its reports do; it asks for nodes only if something
changed, and then for all candidates (`mem_candidates`); it takes one identity off those under way,
if the item is a fetched list (`Pumped`).  No other action touches the topology or asks for anything:
identities that are under way move on from one place to the next, or are given up (`Passes`).
-/

import MeshView.Proofs.Backfill
import MeshView.Proofs.Monitor.Subscribers

namespace MeshView

namespace Topology
variable {t : Topology}

/-- A node that is stored just now makes a difference. -/
theorem diff_ne_of_new {t' : Topology} {d : Diff} (hreplay : t.view.replay d = t'.view)
    {id : NodeId} (hold : t.contains id = false) (hid : t'.contains id = true) : d ≠ ∅ := by
  rintro rfl
  have hcost : t.cost? id = t'.cost? id := congrFun (congrArg View.nodes hreplay) id
  rw [contains_iff_cost?.2 (hcost ▸ contains_iff_cost?.1 hid)] at hold
  cases hold

end Topology

/-- The nodes to ask, if costs are wanted or not. -/
def Topology.wanted (t : Topology) (costs : Bool) : List NodeId :=
  ((IdSet.ofIds (t.unfetched ++ if costs then t.uncosted else [])).erase t.localId).keys

/-- What is asked for: stored nodes other than the local one that were not fetched, or whose cost is
not known if costs are wanted. -/
theorem Topology.WellFormed.mem_wanted {t : Topology} (h : t.WellFormed) {costs : Bool}
    (id : NodeId) : id ∈ t.wanted costs ↔ (t.contains id = true ∧ t.isFetched id = false ∨
      costs = true ∧ t.cost? id = some none) ∧ id ≠ t.localId := by
  rw [wanted, IdMap.mem_keys]
  show (IdMap.erase _ _).contains id = true ↔ _
  rw [Backfill.contains_erase]
  show id ∈ IdSet.ofIds _ ∧ _ ↔ _
  rw [IdSet.mem_ofIds, List.mem_append, h.mem_unfetched, ← h.mem_uncosted]
  cases costs <;> simp

theorem Topology.WellFormed.contains_of_mem_wanted {t : Topology} (h : t.WellFormed) {costs : Bool}
    {id : NodeId} (hid : id ∈ t.wanted costs) : t.contains id = true := by
  rcases ((h.mem_wanted id).1 hid).1 with ⟨hstored, -⟩ | ⟨-, hc⟩
  · exact hstored
  · exact contains_iff_cost?.2 (by simp [hc])

/-- Where nothing is stored, nothing is wanted. -/
theorem Topology.WellFormed.wanted_eq_nil {t : Topology} (h : t.WellFormed) {costs : Bool}
    (hnone : ∀ id, ¬ t.contains id = true) : t.wanted costs = [] :=
  List.eq_nil_iff_forall_not_mem.2 fun id hid => hnone id (h.contains_of_mem_wanted hid)

/-- The identity that a fetched neighbour list keeps under way. -/
def Inbound.fetchedId? : Inbound → Option NodeId
  | .fetched d => some d.id
  | _ => none

namespace Monitor
variable {m : Monitor}

/-- The answers that wait to be absorbed. -/
def out (m : Monitor) : List NodeId := m.inbound.filterMap Inbound.fetchedId?

/-- A node whose answer waits to be absorbed is under way. -/
theorem mem_waiting_of_mem_inbound {m : Monitor} {item : Inbound} {id : NodeId}
    (hitem : item ∈ m.inbound) (hid : item.fetchedId? = some id) :
    id ∈ m.backfill.waiting m.out :=
  List.mem_append_left _ (List.mem_filterMap.2 ⟨item, hitem, hid⟩)

theorem candidates_eq (m : Monitor) : m.candidates = m.topology.wanted m.fetchCosts := rfl

theorem mem_candidates {m : Monitor} (h : m.topology.WellFormed) (id : NodeId) :
    id ∈ m.candidates ↔ (m.topology.contains id = true ∧ m.topology.isFetched id = false ∨
      m.fetchCosts = true ∧ m.topology.cost? id = some none) ∧ id ≠ m.topology.localId :=
  h.mem_wanted id

theorem contains_of_mem_candidates {m : Monitor} (h : m.topology.WellFormed) {id : NodeId}
    (hid : id ∈ m.candidates) : m.topology.contains id = true :=
  h.contains_of_mem_wanted hid

/-- What the network layer may still queue, and what it has queued. -/
def slots (m : Monitor) : Nat := m.permits + m.inbound.countP Inbound.isExternal

/-- Absorbing a change leaves alone what has nothing to do with topologies and requests. -/
theorem absorb_eq (m : Monitor) (c : Change) : (m.absorb c).topology = c.topology ∧
    (m.absorb c).permits = m.permits ∧ (m.absorb c).fetchCosts = m.fetchCosts ∧
    (m.absorb c).isOpen = m.isOpen := by
  unfold Monitor.absorb
  dsimp only
  split <;> exact ⟨rfl, rfl, rfl, rfl⟩

/-- If there is nothing to ask for, no request is made. -/
theorem absorb_backfill {c : Change} (hnone : { m with topology := c.topology }.candidates = []) :
    (m.absorb c).backfill = m.backfill := by
  by_cases hd : c.diff.isEmpty = true
  · have heq : m.absorb c = { m with topology := c.topology } := if_pos hd
    rw [heq]
  · have heq : m.absorb c = ({ m with topology := c.topology }.publish c.diff).requestMissing :=
      if_neg hd
    rw [heq]
    show { m with topology := c.topology }.candidates.foldl Backfill.request m.backfill = _
    rw [hnone]
    rfl

theorem conclude_eq (m : Monitor) (item : Inbound) (d : Diff) :
    (m.conclude item d).topology = m.topology ∧
      (m.conclude item d).backfill.running = m.backfill.running ∧
      (m.conclude item d).backfill.queue = m.backfill.queue ∧
      (m.conclude item d).permits = m.permits + (if item.isExternal then 1 else 0) ∧
      (m.conclude item d).fetchCosts = m.fetchCosts := by
  cases item <;> exact ⟨rfl, rfl, rfl, rfl, rfl⟩

/-- The next item is absorbed, without regard to what it reports. -/
theorem pump_eq {item : Inbound} {rest : List Inbound} (hi : m.inbound = item :: rest) :
    let c := m.topology.applyAll item.reports
    m.pump = ({ m with inbound := rest }.absorb c).conclude item c.diff ∧
      m.pump.inbound = rest ∧ m.pump.topology = c.topology ∧ m.pump.slots = m.slots ∧
      m.pump.fetchCosts = m.fetchCosts := by
  intro c
  have heq : m.pump = ({ m with inbound := rest }.absorb c).conclude item c.diff := by
    rw [Monitor.pump, hi]
  obtain ⟨ht, hp, hc, -⟩ := absorb_eq { m with inbound := rest } c
  obtain ⟨ht', -, -, hp', hc'⟩ := conclude_eq ({ m with inbound := rest }.absorb c) item c.diff
  have hrest : m.pump.inbound = rest := by rw [heq, inbound_conclude, inbound_absorb]
  rw [← heq] at ht' hp' hc'
  refine ⟨heq, hrest, ht'.trans ht, ?_, hc'.trans hc⟩
  rw [slots, slots, hrest, hp', hp, hi, List.countP_cons]
  show m.permits + _ + _ = m.permits + _
  omega

theorem isOpen_pump (m : Monitor) : m.pump.isOpen = m.isOpen := by
  cases hi : m.inbound with
  | nil => rw [pump, hi]
  | cons item rest =>
    have hconclude : ∀ (m : Monitor) (d : Diff), (m.conclude item d).isOpen = m.isOpen := by
      intro m d
      cases item <;> rfl
    rw [(pump_eq hi).1, hconclude]
    exact (absorb_eq { m with inbound := rest } _).2.2.2

/-! ## Absorbing -/

/-- What absorbing the next item does; `new` is what is asked for and not dropped. -/
structure Pumped (m : Monitor) (item : Inbound) (rest : List Inbound) (new : List NodeId)
    (m' : Monitor) : Prop where
  inbound_eq : m'.inbound = rest
  topology_eq : m'.topology = (m.topology.applyAll item.reports).topology
  fetchCosts_eq : m'.fetchCosts = m.fetchCosts
  running_eq : m'.backfill.running = m.backfill.running
  queue_eq : m'.backfill.queue = m.backfill.queue ++ new
  capacity_eq : m'.backfill.capacity = m.backfill.capacity
  issued_eq : m'.backfill.issued = m.backfill.issued
  orderly : m'.backfill.Orderly m'.out
  mem_waiting : ∀ x, x ∈ m'.backfill.waiting m'.out ↔
    (x ∈ m.backfill.waiting m.out ∧ item.fetchedId? ≠ some x) ∨ x ∈ new
  sublist : new.Sublist m'.candidates
  fresh : ∀ x ∈ new, x ∉ m.backfill.waiting m.out
  quiet : (m.topology.applyAll item.reports).diff = ∅ → new = []
  asked : (m.topology.applyAll item.reports).diff ≠ ∅ → ∀ x ∈ m'.candidates,
    x ∈ m.backfill.waiting m.out ∨ x ∈ new ∨ m.backfill.capacity ≤ m'.backfill.queue.length

theorem candidates_congr {m' : Monitor} (ht : m'.topology = m.topology)
    (hc : m'.fetchCosts = m.fetchCosts) : m'.candidates = m.candidates := by
  rw [candidates, candidates, ht, hc]

/-- Candidates are asked for if there are differences, and nothing is asked for otherwise. -/
theorem exists_asked_absorb (m : Monitor) (c : Change) : ∃ ids new,
    Backfill.Asked m.backfill ids new (m.absorb c).backfill ∧
      (m.absorb c).backfill = ids.foldl Backfill.request m.backfill ∧
      ids = if c.diff = ∅ then [] else (m.absorb c).candidates := by
  obtain ⟨ht, -, hc, -⟩ := m.absorb_eq c
  have hbackfill : (m.absorb c).backfill =
      (if c.diff = ∅ then [] else (m.absorb c).candidates).foldl Backfill.request m.backfill := by
    by_cases hd : c.diff = ∅
    · have heq : m.absorb c = { m with topology := c.topology } := if_pos (Diff.isEmpty_iff.2 hd)
      rw [if_pos hd, heq]
      rfl
    · have heq : m.absorb c = ({ m with topology := c.topology }.publish c.diff).requestMissing :=
        if_neg fun hempty => hd (Diff.isEmpty_iff.1 hempty)
      have hsame : (m.absorb c).candidates = { m with topology := c.topology }.candidates :=
        candidates_congr (m := { m with topology := c.topology }) ht hc
      rw [if_neg hd, hsame, heq]
      rfl
  obtain ⟨new, hasked⟩ := m.backfill.exists_asked
    (if c.diff = ∅ then [] else (m.absorb c).candidates)
  exact ⟨_, new, hbackfill ▸ hasked, hbackfill, rfl⟩

/-- What is concluded is no longer under way. -/
theorem orderly_conclude {item : Inbound} {out : List NodeId}
    (h : m.backfill.Orderly (item.fetchedId?.toList ++ out)) (d : Diff) :
    (m.conclude item d).backfill.Orderly out ∧
      ∀ x, x ∈ (m.conclude item d).backfill.waiting out ↔
        x ∈ m.backfill.waiting (item.fetchedId?.toList ++ out) ∧ item.fetchedId? ≠ some x := by
  cases item with
  | external r => exact ⟨h, fun x => (and_iff_left nofun).symm⟩
  | submitted ticket r => exact ⟨h, fun x => (and_iff_left nofun).symm⟩
  | fetched delivery =>
    obtain ⟨horderly, hmem⟩ := Backfill.Orderly.release [] out h
    refine ⟨horderly, fun x => (hmem x).trans (and_congr_right fun _ => ?_)⟩
    exact not_congr ⟨fun hx => congrArg some hx.symm, fun hx => (Option.some.inj hx).symm⟩

theorem out_cons (item : Inbound) (items : List Inbound) :
    (item :: items).filterMap Inbound.fetchedId? =
      item.fetchedId?.toList ++ items.filterMap Inbound.fetchedId? := by
  rw [List.filterMap_cons]
  cases item.fetchedId? <;> rfl

/-- The answer that is absorbed next is the first one that is out. -/
theorem out_eq {item : Inbound} {rest : List Inbound} (hi : m.inbound = item :: rest) :
    m.out = item.fetchedId?.toList ++ rest.filterMap Inbound.fetchedId? := by
  rw [out, hi, out_cons]

/-- **What absorbing an item does.** -/
theorem exists_pumped (h : m.backfill.Orderly m.out) {item : Inbound} {rest : List Inbound}
    (hi : m.inbound = item :: rest) : ∃ new, Pumped m item rest new m.pump := by
  obtain ⟨heq, hrest, htopology, -, hcosts⟩ := pump_eq hi
  obtain ⟨ids, new, hasked, hbackfill, hids⟩ := exists_asked_absorb { m with inbound := rest }
    (m.topology.applyAll item.reports)
  obtain ⟨-, hrunning, hqueue, -, -⟩ := conclude_eq ({ m with inbound := rest }.absorb
    (m.topology.applyAll item.reports)) item (m.topology.applyAll item.reports).diff
  obtain ⟨hcapacity, hissued⟩ : m.pump.backfill.capacity = m.backfill.capacity ∧
      m.pump.backfill.issued = m.backfill.issued := by
    rw [← hasked.capacity_eq, ← hasked.issued_eq, heq]
    cases item <;> exact ⟨rfl, rfl⟩
  have hcandidates : ({ m with inbound := rest }.absorb
      (m.topology.applyAll item.reports)).candidates = m.pump.candidates := by
    obtain ⟨ht, -, hc, -⟩ := { m with inbound := rest }.absorb_eq (m.topology.applyAll item.reports)
    exact candidates_congr (ht.trans htopology.symm) (hc.trans hcosts.symm)
  have hout : m.out = item.fetchedId?.toList ++ m.pump.out := by rw [out_eq hi, ← hrest]; rfl
  have hwaiting : m.backfill.waiting m.out =
      m.backfill.waiting (item.fetchedId?.toList ++ m.pump.out) := by rw [← hout]
  have horderly : ({ m with inbound := rest }.absorb (m.topology.applyAll item.reports)
      ).backfill.Orderly (item.fetchedId?.toList ++ m.pump.out) := by
    rw [hbackfill, ← hout]
    exact h.foldl_request ids
  obtain ⟨hconcluded, hmem⟩ := orderly_conclude horderly (m.topology.applyAll item.reports).diff
  rw [← heq] at hconcluded hmem hrunning hqueue
  have hfresh : ∀ x ∈ new, x ∉ m.backfill.waiting m.out := fun x hx hwait =>
    Bool.eq_false_iff.1 (hasked.fresh x hx) ((h.pending_iff x).2 hwait)
  rw [hcandidates] at hids
  refine ⟨new, hrest, htopology, hcosts, hrunning.trans hasked.running_eq,
    hqueue.trans hasked.queue_eq, hcapacity, hissued, hconcluded, fun x => ?_, ?_, hfresh,
    fun hd => ?_, fun hd x hx => ?_⟩
  · rw [hmem, hasked.mem_waiting, hwaiting, or_and_right]
    refine or_congr_right (and_iff_left_of_imp fun hx hid => hfresh x hx ?_)
    rw [hwaiting, hid]
    exact List.mem_cons_self
  · refine hasked.sublist.trans ?_
    rw [hids]
    split
    · exact List.nil_sublist _
    · exact .refl _
  · have hsublist := hasked.sublist
    rw [hids, if_pos hd] at hsublist
    exact List.sublist_nil.1 hsublist
  · rw [if_neg hd] at hids
    rw [hqueue, ← or_assoc]
    refine (hasked.pending_or_full x (hids ▸ hx)).imp_left fun hp => ?_
    exact ((hasked.isPending_iff x).1 hp).imp_left (h.pending_iff x).1

/-- The node whose answer was absorbed is no longer under way. -/
theorem Pumped.notMem_waiting {m' : Monitor} {item : Inbound} {rest : List Inbound}
    {new : List NodeId} (h : Pumped m item rest new m') (hi : m.inbound = item :: rest) {id : NodeId}
    (hid : item.fetchedId? = some id) : id ∉ m'.backfill.waiting m'.out := by
  intro hwaits
  rcases (h.mem_waiting id).1 hwaits with ⟨-, hne⟩ | hnew
  · exact hne hid
  · exact h.fresh id hnew (mem_waiting_of_mem_inbound (hi ▸ List.mem_cons_self) hid)

/-! ## The other actions -/

/-- The topology stays, nothing is asked for, and what is under way stays in order. -/
structure Passes (m m' : Monitor) : Prop where
  topology_eq : m'.topology = m.topology
  fetchCosts_eq : m'.fetchCosts = m.fetchCosts
  capacity_eq : m'.backfill.capacity = m.backfill.capacity
  orderly : m'.backfill.Orderly m'.out
  waiting_subset : ∀ x ∈ m'.backfill.waiting m'.out, x ∈ m.backfill.waiting m.out

/-- Nothing changes but what has nothing to do with topologies and requests. -/
theorem Passes.of_eq {m' : Monitor} (h : m.backfill.Orderly m.out)
    (ht : m'.topology = m.topology) (hc : m'.fetchCosts = m.fetchCosts)
    (hb : m'.backfill = m.backfill) (hout : m'.out = m.out) : Passes m m' := by
  refine ⟨ht, hc, by rw [hb], by rw [hb, hout]; exact h, fun x hx => ?_⟩
  rwa [hb, hout] at hx

theorem out_append (item : Inbound) (hitem : item.fetchedId? = none) :
    (m.inbound ++ [item]).filterMap Inbound.fetchedId? = m.out := by
  rw [List.filterMap_append, List.filterMap_cons, hitem]
  exact List.append_nil _

/-- While the monitor is open, an answer of the running request is queued. -/
theorem finish_ok_eq (hopen : m.isOpen = true) {id : NodeId} (hr : m.backfill.running = some id)
    (list : NeighborList) : m.finish (.ok list) = { m with
      backfill := m.backfill.finish (.ok list)
      inbound := m.inbound ++ [.fetched ⟨id, list.reports id⟩] } := by
  have hdelivery : m.backfill.delivery? (.ok list) = some ⟨id, list.reports id⟩ := by
    rw [Backfill.delivery?, hr]
    rfl
  rw [finish, hdelivery]
  exact if_pos hopen

/-- Its node stays under way. -/
theorem waiting_finish_ok (hopen : m.isOpen = true) {id : NodeId}
    (hr : m.backfill.running = some id) (list : NeighborList) :
    (m.finish (.ok list)).out = m.out ++ [id] ∧
      (m.finish (.ok list)).backfill.waiting (m.finish (.ok list)).out =
        m.backfill.waiting m.out := by
  have hout : (m.finish (.ok list)).out = m.out ++ [id] := by
    rw [finish_ok_eq hopen hr]
    exact List.filterMap_append
  refine ⟨hout, ?_⟩
  rw [hout, finish_ok_eq hopen hr, Backfill.waiting, Backfill.waiting, hr, List.append_assoc]
  rfl

section Passing
variable (h : m.backfill.Orderly m.out)
include h

theorem Passes.offer (r : Report) : Passes m (m.offer r) := by
  rw [Monitor.offer]
  split
  · exact .of_eq h rfl rfl rfl (out_append (.external r) rfl)
  · exact .of_eq h rfl rfl rfl rfl

theorem Passes.submit (r : Report) : Passes m (m.submit r) := by
  rw [Monitor.submit]
  split
  · exact .of_eq h rfl rfl rfl (out_append (.submitted m.nextTicket r) rfl)
  · exact .of_eq h rfl rfl rfl rfl

theorem Passes.subscribe : Passes m m.subscribe := by
  rw [Monitor.subscribe]
  split <;> exact .of_eq h rfl rfl rfl rfl

theorem Passes.issue : Passes m (m.perform .issue) := by
  cases hr : m.backfill.running with
  | some id =>
    refine .of_eq h rfl rfl ?_ rfl
    show m.backfill.issue = _
    simp only [Backfill.issue, hr]
  | none =>
    cases hq : m.backfill.queue with
    | nil =>
      refine .of_eq h rfl rfl ?_ rfl
      show m.backfill.issue = _
      simp only [Backfill.issue, hr, hq]
    | cons id rest =>
      obtain ⟨heq, horderly, hwaiting⟩ := h.issue hr hq
      refine ⟨rfl, rfl, ?_, horderly, fun x hx => hwaiting ▸ hx⟩
      show m.backfill.issue.capacity = _
      rw [heq]

omit h in
/-- Whatever the answer is, the worker is free for what waits. -/
theorem worker_finish (m : Monitor) (answer : Answer) :
    (m.finish answer).backfill.running = none ∧
      (m.finish answer).backfill.queue = m.backfill.queue ∧
      (m.finish answer).backfill.issued = m.backfill.issued := by
  have hworker := And.intro (m.backfill.finish_running answer)
    (And.intro (m.backfill.finish_queue answer) (m.backfill.finish_issued answer))
  unfold Monitor.finish
  dsimp only
  split
  · exact hworker
  · split <;> exact hworker

/-- The answer goes out, or the identity is given up. -/
theorem Passes.finish (answer : Answer) : Passes m (m.finish answer) := by
  cases hr : m.backfill.running with
  | none =>
    have hbackfill : m.backfill.finish answer = m.backfill := by
      cases answer with
      | ok list => rw [Backfill.finish, ← hr]
      | error failure => rw [Backfill.finish, hr]
    have hdelivery : m.backfill.delivery? answer = none := by
      cases answer with
      | ok list => rw [Backfill.delivery?, hr, Option.map_none]
      | error failure => rfl
    simp only [Monitor.finish, hdelivery]
    exact .of_eq h rfl rfl hbackfill rfl
  | some id =>
    cases answer with
    | error failure =>
      obtain ⟨horderly, hmem⟩ := h.finish_error hr failure
      refine ⟨rfl, rfl, ?_, horderly, fun x hx => ((hmem x).1 hx).1⟩
      show (m.backfill.finish _).capacity = _
      rw [Backfill.finish, hr]
    | ok list =>
      obtain ⟨horderly, hwaiting⟩ := h.finish_ok hr list
      by_cases hopen : m.isOpen = true
      · obtain ⟨hout, hsame⟩ := waiting_finish_ok hopen hr list
        have horderly' : (m.finish (.ok list)).backfill.Orderly (m.out ++ [id]) := by
          rw [finish_ok_eq hopen hr]
          exact horderly
        refine ⟨?_, ?_, ?_, hout ▸ horderly', fun x hx => hsame ▸ hx⟩ <;>
          rw [finish_ok_eq hopen hr]
        rfl
      · have heq : m.finish (.ok list) =
            { m with backfill := (m.backfill.finish (.ok list)).release id } := by
          simp only [Monitor.finish, Backfill.delivery?, hr, Option.map_some, hopen]
          rfl
        obtain ⟨hreleased, hmem⟩ := Backfill.Orderly.release m.out [] horderly
        rw [List.append_nil] at hreleased hmem
        rw [heq]
        exact ⟨rfl, rfl, rfl, hreleased, fun x hx => hwaiting ▸ ((hmem x).1 hx).1⟩

omit h in
/-- Giving up an item does to what is under way what concluding it does. -/
theorem foldl_discard (items : List Inbound) {m : Monitor}
    (h : m.backfill.Orderly (items.filterMap Inbound.fetchedId?)) :
    (items.foldl discard m).fetchCosts = m.fetchCosts ∧
      (items.foldl discard m).backfill.capacity = m.backfill.capacity ∧
      (items.foldl discard m).backfill.Orderly [] ∧
      ∀ x ∈ (items.foldl discard m).backfill.waiting [],
        x ∈ m.backfill.waiting (items.filterMap Inbound.fetchedId?) := by
  induction items generalizing m with
  | nil => exact ⟨rfl, rfl, h, fun x hx => hx⟩
  | cons item items ih =>
    rw [out_cons] at h ⊢
    have hsame : (m.discard item).backfill = (m.conclude item ∅).backfill ∧
        (m.discard item).fetchCosts = m.fetchCosts ∧
        (m.discard item).backfill.capacity = m.backfill.capacity := by
      cases item <;> exact ⟨rfl, rfl, rfl⟩
    obtain ⟨horderly, hmem⟩ := orderly_conclude h ∅
    rw [← hsame.1] at horderly hmem
    obtain ⟨hcosts, hcapacity, hend, hsubset⟩ := ih horderly
    exact ⟨hcosts.trans hsame.2.1, hcapacity.trans hsame.2.2, hend,
      fun x hx => ((hmem x).1 (hsubset x hx)).1⟩

/-- What waits is given up. -/
theorem Passes.close : Passes m m.close := by
  obtain ⟨hcosts, hcapacity, horderly, hsubset⟩ :=
    foldl_discard (m := { m with inbound := [], subscribers := [], isOpen := false }) m.inbound h
  obtain ⟨hfeed, hinbound⟩ :=
    discard_foldl { m with inbound := [], subscribers := [], isOpen := false } m.inbound
  have hout : m.close.out = [] := by
    rw [out, Monitor.close, hinbound]
    rfl
  refine ⟨congrArg Feed.topology hfeed, hcosts, hcapacity, ?_, fun x hx => ?_⟩
  · rw [hout]
    exact horderly
  · rw [hout] at hx
    exact hsubset x hx

/-- **Every action but absorbing.** -/
theorem Passes.perform {a : Action} (ha : a ≠ .pump) : Passes m (m.perform a) := by
  cases a with
  | offer r => exact .offer h r
  | submit r => exact .submit h r
  | subscribe => exact .subscribe h
  | unsubscribe s => exact .of_eq h rfl rfl rfl rfl
  | pump => exact absurd rfl ha
  | issue => exact .issue h
  | finish answer => exact .finish h answer
  | close => exact .close h

end Passing

/-- Whether costs are wanted never changes. -/
theorem fetchCosts_perform (h : m.backfill.Orderly m.out) (a : Action) :
    (m.perform a).fetchCosts = m.fetchCosts := by
  by_cases ha : a = .pump
  · subst ha
    show m.pump.fetchCosts = _
    cases hi : m.inbound with
    | nil => rw [pump, hi]
    | cons item rest => exact (pump_eq hi).2.2.2.2
  · exact (Passes.perform h ha).fetchCosts_eq

end Monitor
end MeshView
