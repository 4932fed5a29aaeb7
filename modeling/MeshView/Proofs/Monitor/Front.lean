/-
# The front of a backfill

While the mesh does not change and nothing comes from outside, a monitor goes through the nodes that
are under way in the order in which they were asked for: it takes over the answer of the first one,
and appends what it then asks for.  What it knows and who is under way, its front, is all that this
depends on, and the schedule has no say in it (`steady_exploring`).  So two monitors with the same
front end in the same topology, and monitors that want different things can be compared front by
front.
-/

import MeshView.Proofs.Monitor.Events

namespace MeshView

/-- What a change leads a monitor to ask for, if these identities are under way. -/
def Change.asked (c : Change) (costs : Bool) (waiting : List NodeId) : List NodeId :=
  if c.diff = ∅ then [] else (c.topology.wanted costs).filter fun id => id ∉ waiting

/-- What is known, and who is under way, in the order of their answers. -/
structure Front where
  topology : Topology
  ahead : List NodeId

/-- Where a change sets off, if nobody is under way yet. -/
def Change.front (c : Change) (costs : Bool) : Front := ⟨c.topology, c.asked costs []⟩

/-- The first one answers, and what follows from it is asked for. -/
def Front.next (g : Mesh) (costs : Bool) (f : Front) : Front :=
  match f.ahead with
  | [] => f
  | id :: rest =>
    let c := f.topology.applyAll (g.localView id)
    ⟨c.topology, rest ++ c.asked costs (id :: rest)⟩

namespace Front
variable {g : Mesh} {costs : Bool} {f : Front}

theorem next_of_nil (h : f.ahead = []) : f.next g costs = f := by
  rw [next, h]

theorem next_of_cons {id : NodeId} {rest : List NodeId} (h : f.ahead = id :: rest) :
    f.next g costs = ⟨(f.topology.applyAll (g.localView id)).topology,
      rest ++ (f.topology.applyAll (g.localView id)).asked costs (id :: rest)⟩ := by
  rw [next, h]

/-- **There is one front at which nobody is under way any more.** -/
theorem eq_of_iterate {i j : Nat} (hi : ((next g costs)^[i] f).ahead = [])
    (hj : ((next g costs)^[j] f).ahead = []) : (next g costs)^[i] f = (next g costs)^[j] f := by
  have hle : ∀ {i j : Nat}, i ≤ j → ((next g costs)^[i] f).ahead = [] →
      (next g costs)^[i] f = (next g costs)^[j] f := by
    intro i j hij hi
    obtain ⟨k, rfl⟩ := Nat.exists_eq_add_of_le' hij
    rw [Function.iterate_add_apply, Function.iterate_fixed (next_of_nil hi)]
  rcases le_total i j with hij | hij
  · exact hle hij hi
  · exact (hle hij hj).symm

end Front

/-- An ascending list is known by its members. -/
theorem eq_of_ascending {ids ids' : List NodeId} (h : ids.Pairwise (· < ·))
    (h' : ids'.Pairwise (· < ·)) (hmem : ∀ x, x ∈ ids ↔ x ∈ ids') : ids = ids' := by
  have hnodup : ∀ {l : List NodeId}, l.Pairwise (· < ·) → l.Nodup := fun hl =>
    hl.imp fun hab => NodeId.ne_of_lt hab
  refine List.Perm.eq_of_pairwise (fun a b _ _ hab hba => ?_) h h'
    ((List.perm_ext_iff_of_nodup (hnodup h) (hnodup h')).2 hmem)
  exact absurd (NodeId.lt_trans hab hba) (NodeId.lt_irrefl a)

theorem Topology.ascending_wanted (t : Topology) (costs : Bool) :
    (t.wanted costs).Pairwise (· < ·) := IdMap.keys_sorted _

theorem Change.ascending_asked (c : Change) (costs : Bool) (waiting : List NodeId) :
    (c.asked costs waiting).Pairwise (· < ·) := by
  rw [asked]
  split
  · exact .nil
  · exact (c.topology.ascending_wanted costs).filter _

theorem Change.mem_asked {c : Change} {costs : Bool} {waiting : List NodeId} {id : NodeId} :
    id ∈ c.asked costs waiting ↔ c.diff ≠ ∅ ∧ id ∈ c.topology.wanted costs ∧ id ∉ waiting := by
  rw [asked]
  split
  · rename_i hd
    exact iff_of_false List.not_mem_nil fun h => h.1 hd
  · rename_i hd
    rw [List.mem_filter, decide_eq_true_iff, and_iff_right hd]

namespace Monitor
variable {g : Mesh} {localId : NodeId} {costs : Bool} {f : Front} {m m' : Monitor}

/-- What the monitor knows, and who is under way. -/
def front (m : Monitor) : Front := ⟨m.topology, m.backfill.waiting m.out⟩

/-- With room left in the queue, an item leads to a request for all that is wanted and not under way. -/
theorem Pumped.new_eq {item : Inbound} {rest : List Inbound} {new : List NodeId}
    (h : Pumped m item rest new m') (hroom : m'.backfill.queue.length < m.backfill.capacity) :
    new = (m.topology.applyAll item.reports).asked m.fetchCosts (m.backfill.waiting m.out) := by
  have hcandidates : m'.candidates =
      (m.topology.applyAll item.reports).topology.wanted m.fetchCosts := by
    rw [candidates_eq, h.topology_eq, h.fetchCosts_eq]
  have hsorted : new.Pairwise (· < ·) :=
    (hcandidates ▸ Topology.ascending_wanted _ _).sublist h.sublist
  refine eq_of_ascending hsorted (Change.ascending_asked _ _ _) fun id => ?_
  rw [Change.mem_asked, ← hcandidates]
  constructor
  · intro hid
    refine ⟨fun hd => ?_, h.sublist.subset hid, h.fresh id hid⟩
    rw [h.quiet hd] at hid
    cases hid
  · rintro ⟨hd, hid, hnot⟩
    exact (h.asked hd id hid).elim (fun hwaits => absurd hwaits hnot) fun hor =>
      hor.resolve_right (by omega)

/-- What waits for its answer, once an item has been absorbed. -/
theorem Pumped.waiting_eq {item : Inbound} {rest : List Inbound} {new : List NodeId}
    (h : Pumped m item rest new m') (hi : m.inbound = item :: rest) :
    ∃ left, m.backfill.waiting m.out = item.fetchedId?.toList ++ left ∧
      m'.backfill.waiting m'.out = left ++ new := by
  refine ⟨m.backfill.waiting (rest.filterMap Inbound.fetchedId?), ?_, ?_⟩
  · rw [out_eq hi, Backfill.waiting, Backfill.waiting, List.append_assoc]
  · rw [out, h.inbound_eq, Backfill.waiting, Backfill.waiting, h.running_eq, h.queue_eq,
      List.append_assoc, List.append_assoc]

/-- What is under way is in order and stored, so it is never more than the queue has room for. -/
structure Sent (g : Mesh) (localId : NodeId) (m : Monitor) : Prop where
  informed : m.topology.Informed g localId False
  orderly : m.backfill.Orderly m.out
  asked : ∀ id ∈ m.backfill.waiting m.out, m.topology.contains id = true ∧ id ≠ localId
  room : g.size ≤ m.backfill.capacity

theorem Sent.length_queue_lt (hg : g.WellFormed) (hlocal : g.contains localId = true)
    (h : m.Sent g localId) : m.backfill.queue.length < m.backfill.capacity := by
  have hallowed : ∀ id ∈ m.backfill.waiting m.out, id ∈ g.ids.toFinset.erase localId := by
    intro id hid
    obtain ⟨hstored, hne⟩ := h.asked id hid
    have hvisible := h.informed.faithful.visible id (Topology.contains_iff_cost?.1 hstored)
    exact Mesh.mem_others.2 ⟨hne, hvisible.contains hg hlocal⟩
  exact ((h.orderly.length_queue_le hallowed).trans_lt (Mesh.card_others_lt hlocal)).trans_le h.room

/-- **Absorbing an item** takes its node off those under way and appends all that is wanted, as long as
the topology is told the truth. -/
theorem sent_pump (hg : g.WellFormed) (hlocal : g.contains localId = true) {item : Inbound}
    {rest : List Inbound} (hi : m.inbound = item :: rest) (horderly : m.backfill.Orderly m.out)
    (hinformed : (m.topology.applyAll item.reports).topology.Informed g localId False)
    (hasked : ∀ id ∈ m.backfill.waiting m.out,
      (m.topology.applyAll item.reports).topology.contains id = true ∧ id ≠ localId)
    (hroom : g.size ≤ m.backfill.capacity) :
    m.pump.Sent g localId ∧ ∃ left,
      m.backfill.waiting m.out = item.fetchedId?.toList ++ left ∧
      m.pump.front = ⟨(m.topology.applyAll item.reports).topology, left ++
        (m.topology.applyAll item.reports).asked m.fetchCosts (m.backfill.waiting m.out)⟩ := by
  obtain ⟨new, hpumped⟩ := exists_pumped horderly hi
  have hsent : m.pump.Sent g localId := by
    refine ⟨hpumped.topology_eq ▸ hinformed, hpumped.orderly, fun id hid => ?_,
      hpumped.capacity_eq ▸ hroom⟩
    rw [hpumped.topology_eq]
    rcases (hpumped.mem_waiting id).1 hid with ⟨hwaits, -⟩ | hnew
    · exact hasked id hwaits
    · have hcandidate := hpumped.sublist.subset hnew
      rw [candidates_eq, hpumped.topology_eq] at hcandidate
      have hwf := hinformed.faithful.wellFormed
      exact ⟨hwf.contains_of_mem_wanted hcandidate,
        hinformed.localId_eq ▸ ((hwf.mem_wanted id).1 hcandidate).2⟩
  obtain ⟨left, hwaiting, hwaiting'⟩ := hpumped.waiting_eq hi
  refine ⟨hsent, left, hwaiting, ?_⟩
  rw [front, hpumped.topology_eq, hwaiting',
    hpumped.new_eq (hpumped.capacity_eq ▸ hsent.length_queue_lt hg hlocal)]

/-! ## While the mesh does not change -/

/-- Nothing but answers waits, and the front is one that follows from the front at the start. -/
structure Exploring (g : Mesh) (localId : NodeId) (f : Front) (m : Monitor) : Prop extends
    Sent g localId m where
  answers : ∀ item ∈ m.inbound, ∃ id, item = .fetched ⟨id, g.localView id⟩
  isOpen : m.isOpen = true
  reached : ∃ k, (Front.next g m.fetchCosts)^[k] f = m.front

section Exploring
variable (h : m.Exploring g localId f)
include h

theorem Exploring.visible {id : NodeId} (hid : id ∈ m.backfill.waiting m.out) :
    g.Visible localId id :=
  h.informed.faithful.visible id (Topology.contains_iff_cost?.1 (h.asked id hid).1)

/-- A node that can be seen and is online tells the truth. -/
theorem Exploring.truthful (hg : g.WellFormed) (hlocal : g.contains localId = true)
    (honline : g.AllOnline) {item : Inbound} (hitem : item ∈ m.inbound) {r : Report}
    (hr : r ∈ item.reports) : Topology.Truthful g localId r := by
  obtain ⟨id, rfl⟩ := h.answers item hitem
  have hvisible : g.Visible localId id :=
    h.visible (mem_waiting_of_mem_inbound hitem rfl)
  exact ⟨id, ⟨hvisible, .inr (honline id (hvisible.contains hg hlocal))⟩, hr⟩

/-- **Absorbing an answer takes the front one step further.** -/
theorem Exploring.pump (hg : g.WellFormed) (hlocal : g.contains localId = true)
    (honline : g.AllOnline) {item : Inbound} {rest : List Inbound} (hi : m.inbound = item :: rest) :
    m.pump.Exploring g localId f := by
  have hitem : item ∈ m.inbound := hi ▸ List.mem_cons_self
  have htrue : ∀ r ∈ item.reports, Topology.Truthful g localId r := fun r =>
    h.truthful hg hlocal honline hitem
  obtain ⟨hadvance, -⟩ := h.informed.faithful.applyAll_advance hg htrue
  obtain ⟨-, hrest, -, -, hcosts⟩ := pump_eq hi
  obtain ⟨hsent, left, hwaiting, hfront⟩ := sent_pump hg hlocal hi h.orderly
    (h.informed.applyAll hg htrue)
    (fun id hid => ⟨hadvance.contains (h.asked id hid).1, (h.asked id hid).2⟩) h.room
  refine ⟨hsent, fun item' hitem' => ?_, m.isOpen_pump.trans h.isOpen, ?_⟩
  · exact h.answers item' (hi ▸ List.mem_cons_of_mem _ (hrest ▸ hitem'))
  · obtain ⟨id, rfl⟩ := h.answers item hitem
    obtain ⟨k, hk⟩ := h.reached
    have hahead : m.front.ahead = id :: left := hwaiting
    refine ⟨k + 1, ?_⟩
    rw [hcosts, Function.iterate_succ_apply', hk, Front.next_of_cons hahead, hfront, ← hahead]
    rfl

/-- No other move changes the front. -/
theorem Exploring.hand (hh : Hands g m m') : m'.Exploring g localId f := by
  refine ⟨⟨hh.topology_eq ▸ h.informed, hh.orderly, ?_, hh.capacity_eq ▸ h.room⟩,
    fun item hitem => ?_, hh.isOpen, ?_⟩
  · rw [hh.waiting_eq, hh.topology_eq]
    exact h.asked
  · exact (hh.arrives item hitem).elim (h.answers item) fun ⟨id, _, heq⟩ => ⟨id, heq⟩
  · rw [front, hh.waiting_eq, hh.topology_eq, hh.fetchCosts_eq]
    exact h.reached

end Exploring

/-- **Whatever the schedule is, a monitor goes from front to front**, and so it settles. -/
theorem steady_exploring (hg : g.WellFormed) (hlocal : g.contains localId = true)
    (honline : g.AllOnline) : Steady g localId False fun m => m.Exploring g localId f where
  hears m h := ⟨h.informed, fun _ hitem _ hr => h.truthful hg hlocal honline hitem hr, h.orderly,
    h.isOpen⟩
  move m m' h hmove := by
    have hanswers : ∀ id ∈ m.backfill.waiting m.out, g.isOnline id = true := fun id hid =>
      honline id ((h.visible hid).contains hg hlocal)
    rcases move_cases h.orderly h.isOpen hanswers hmove with ⟨item, rest, hi, rfl⟩ | hhands
    · exact h.pump hg hlocal honline hi
    · exact h.hand hhands

/-! ## Setting off -/

section Explore
variable {size : Nat} (h : m.Idle size) (hsize : g.size ≤ size) (hg : g.WellFormed)
  (hlocal : g.contains localId = true) {r : Report}
  (hinformed : (m.topology.apply r).topology.Informed g localId False)
include h hsize hg hlocal hinformed

/-- A report sets off from its own front, if it leaves nothing in the topology that is not true of the
mesh. -/
theorem Idle.pump_exploring :
    (m.offer r).pump.Exploring g localId ((m.topology.apply r).front m.fetchCosts) := by
  obtain ⟨hinbound, htopology, hbackfill, hcosts, hopen, -⟩ := h.offer r
  obtain ⟨-, -, hnil, -, -, -⟩ := h.pumpAll_offer (r := r)
  have hout : (m.offer r).out = [] := by
    rw [out, hinbound]
    rfl
  have hwaiting : (m.offer r).backfill.waiting (m.offer r).out = [] := by
    rw [hout, hbackfill, h.waiting_eq]
  obtain ⟨hsent, left, hleft, hfront⟩ := sent_pump hg hlocal hinbound
    (by rw [hout, hbackfill]; exact h.orderly) (by rw [htopology]; exact hinformed)
    (by simp [hwaiting]) (by rw [hbackfill]; exact hsize.trans h.room)
  obtain rfl : left = [] := hleft.symm.trans hwaiting
  rw [htopology, hcosts, hwaiting, List.nil_append] at hfront
  exact ⟨hsent, by simp [hnil], (m.offer r).isOpen_pump.trans hopen, 0, hfront.symm⟩

variable (honline : g.AllOnline)
include honline

/-- **The monitor comes to rest at the last front**, on any schedule. -/
theorem Idle.explore (hrests : Rests g.answer (m.offer r) m') : m'.Idle g.size ∧
    m'.fetchCosts = m.fetchCosts ∧
    ∃ k, (Front.next g m.fetchCosts)^[k] ((m.topology.apply r).front m.fetchCosts) =
      ⟨m'.topology, []⟩ := by
  obtain ⟨-, -, -, -, hslots, hcosts⟩ := h.pumpAll_offer (r := r)
  have hafter := h.rests_offer.1 hrests
  obtain ⟨h', hlearns⟩ := (steady_exploring hg hlocal honline).learns hg
    (h.pump_exploring hsize hg hlocal hinformed) hafter
  obtain ⟨hnil, hidle⟩ := hafter.2
  have hfetchCosts : m'.fetchCosts = m.fetchCosts := hlearns.fetchCosts_eq.trans hcosts
  have hout : m'.out = [] := by
    rw [out, hnil]
    rfl
  have hend : m'.Idle g.size := by
    refine ⟨?_, Backfill.load_eq_zero_iff.2 hidle, hnil, h'.room, ?_, h'.isOpen⟩
    · have horderly := h'.orderly
      rwa [hout] at horderly
    · rw [hlearns.slots_eq, hslots]
      exact h.slot
  obtain ⟨k, hk⟩ := h'.reached
  rw [hfetchCosts, front, hout, hend.waiting_eq] at hk
  exact ⟨hend, hfetchCosts, k, hk⟩

/-- The schedule of a fleet is one of those. -/
theorem Idle.settle_exploring {e : Mesh} (he : e.sites = g.sites) {rounds : Nat}
    (hrounds : g.extent < rounds) :
    ∃ m' e', (m.offer r).settle Mesh.responder (rounds + 1) e = (m', e') ∧ e'.sites = g.sites ∧
      Rests g.answer (m.offer r) m' := by
  have hstart := h.pump_exploring hsize hg hlocal hinformed
  rw [← h.pumpAll_offer.1] at hstart
  obtain ⟨m', e', heq, he', hafter⟩ := (steady_exploring hg hlocal honline).settle_of_pumpAll hg
    hlocal rounds hstart he ((g.card_missing_le _).trans_lt hrounds)
  rw [h.pumpAll_offer.1] at hafter
  exact ⟨m', e', heq, he', h.rests_offer.2 hafter⟩

end Explore

end Monitor
end MeshView
