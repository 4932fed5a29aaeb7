/-
# A monitor that follows a mesh through events

Between events a monitor is idle and its topology mirrors the mesh (`Mirroring`).  An event changes
the mesh and raises a report.  The first move absorbs the report, for there is no other; then the
topology catches the new mesh, and what it does not cover is asked for, since its cost is not known
(`Mirroring.pump_tracks`).  From there on the mesh does not change, and the monitor comes to rest as in
any unchanging mesh, on any schedule (`Mirroring.rests`).  When the local node goes away, nothing is
left to ask for.
-/

import MeshView.Proofs.Mesh.Mirror
import MeshView.Proofs.Monitor.Settling

namespace MeshView

namespace Monitor

/-- Nothing waits and nothing is under way, and there is room for every node. -/
structure Idle (size : Nat) (m : Monitor) : Prop where
  orderly : m.backfill.Orderly []
  load_eq : m.backfill.load = 0
  inbound_eq : m.inbound = []
  room : size ≤ m.backfill.capacity
  slot : 0 < m.slots
  isOpen : m.isOpen = true

theorem idle_start (localId : NodeId) {settings : Settings} {size : Nat}
    (hcapacity : size ≤ settings.fetchQueueCapacity) :
    ((start localId settings).perform .subscribe).Idle size where
  orderly := Backfill.orderly_idle _
  load_eq := rfl
  inbound_eq := rfl
  room := hcapacity.trans (Nat.le_max_left _ 1)
  slot := Nat.lt_of_lt_of_le Nat.one_pos (Nat.le_max_right settings.notificationBuffer 1)
  isOpen := rfl

/-- An idle monitor that asks for costs, and whose topology mirrors the mesh. -/
structure Mirroring (g : Mesh) (localId : NodeId) (m : Monitor) : Prop extends
    Idle g.size m where
  dropped : m.backfill.dropped = 0
  fetchCosts : m.fetchCosts = true
  mirrors : m.topology.Mirrors g
  localId_eq : m.topology.localId = localId

variable {g e : Mesh} {localId : NodeId} {m : Monitor}

/-- **With every node online, a monitor that has settled mirrors the mesh**, if the local node is
covered. -/
theorem Tracks.mirroring {strict : Prop} (h : m.Tracks g localId strict []) (hg : g.WellFormed)
    (honline : g.AllOnline) (hlocal : g.contains localId = true) (hidle : m.backfill.load = 0)
    (hsettled : m.inbound = []) (hown : m.topology.Covers g localId)
    (hcosts : m.fetchCosts = true) (hslot : 0 < m.slots) : m.Mirroring g localId where
  orderly := by
    have horderly := h.orderly
    rw [out, hsettled] at horderly
    exact horderly
  load_eq := hidle
  inbound_eq := hsettled
  room := h.room
  dropped := h.dropped
  fetchCosts := hcosts
  slot := hslot
  isOpen := h.isOpen
  mirrors := (h.complete hidle hsettled hown).mirrors hg honline hlocal h.informed.localId_eq
  localId_eq := h.informed.localId_eq

/-- **Once its local node has announced itself, a monitor mirrors the mesh**, on any schedule. -/
theorem AtRest.mirroring {m₀ : Monitor} (h : m₀.AtRest g localId) (hg : g.WellFormed)
    (honline : g.AllOnline) (hlocal : g.contains localId = true) (hcosts : m₀.fetchCosts = true)
    (hcourse : m₀.Course (g.telling (g.localView localId)) m) : m.Mirroring g localId := by
  obtain ⟨hatRest, hlearns⟩ := h.course hg hlocal (fun r hr => hr) hcourse
  exact hatRest.tracks.mirroring hg honline hlocal hatRest.idle hatRest.settled hlearns.knows
    (hlearns.fetchCosts_eq.trans hcosts) hatRest.slot

/-- A mesh that does not grow keeps enough room. -/
theorem Idle.mono {size size' : Nat} (h : m.Idle size) (hle : size' ≤ size) : m.Idle size' :=
  { h with room := hle.trans h.room }

/-- An idle monitor takes a report, and nothing else waits. -/
theorem Idle.offer {size : Nat} (h : m.Idle size) (r : Report) :
    (m.offer r).inbound = [.external r] ∧ (m.offer r).topology = m.topology ∧
      (m.offer r).backfill = m.backfill ∧ (m.offer r).fetchCosts = m.fetchCosts ∧
      (m.offer r).isOpen = true ∧ (m.offer r).slots = m.slots := by
  have hpermits := permits_pos h.slot h.inbound_eq
  refine ⟨?_, ?_, ?_, ?_, ?_, slots_offer h.isOpen hpermits r⟩
  all_goals rw [offer_eq h.isOpen hpermits r]
  · rw [h.inbound_eq]
    rfl
  · exact h.isOpen

theorem Idle.quiescent {size : Nat} (h : m.Idle size) : m.Quiescent :=
  quiescent_of_load h.inbound_eq h.load_eq

/-- Nothing is under way with an idle monitor. -/
theorem Idle.waiting_eq {size : Nat} (h : m.Idle size) : m.backfill.waiting [] = [] := by
  obtain ⟨hqueue, hrunning⟩ := Backfill.load_eq_zero_iff.1 h.load_eq
  rw [Backfill.waiting, hqueue, hrunning]
  rfl

/-! ## Absorbing the report of an event -/

section Report
variable {size : Nat} (h : m.Idle size) {r : Report}
include h

/-- The report is all that the first round absorbs. -/
theorem Idle.pumpAll_offer : (m.offer r).pumpAll = (m.offer r).pump ∧
    (m.offer r).pump = ({ m.offer r with inbound := [] }.absorb (m.topology.apply r)).conclude
      (.external r) (m.topology.apply r).diff ∧
    (m.offer r).pump.inbound = [] ∧
    (m.offer r).pump.topology = (m.topology.apply r).topology ∧
    (m.offer r).pump.slots = m.slots ∧ (m.offer r).pump.fetchCosts = m.fetchCosts := by
  obtain ⟨hinbound, htopology, -, hcosts, -, hslots⟩ := h.offer r
  obtain ⟨heq, hrest, ht, hs, hc⟩ := pump_eq hinbound
  rw [htopology] at heq ht
  refine ⟨?_, heq, hrest, ht, hs.trans hslots, hc.trans hcosts⟩
  rw [Monitor.pumpAll, hinbound]
  rfl

/-- The worker has nothing to do before, so nothing else can be done first. -/
theorem Idle.rests_offer {answer : NodeId → Answer} {m' : Monitor} :
    Rests answer (m.offer r) m' ↔ Rests answer (m.offer r).pump m' := by
  obtain ⟨hinbound, -, hbackfill, -, -, -⟩ := h.offer r
  obtain ⟨hqueue, hrunning⟩ := Backfill.load_eq_zero_iff.1 h.load_eq
  rw [← hbackfill] at hqueue hrunning
  refine Move.rests_iff (.pump hinbound) fun m'' hmove => ?_
  cases hmove with
  | pump hi => rfl
  | issue hr hq => cases hqueue.symm.trans hq
  | finish hr => cases hrunning.symm.trans hr

/-- If nothing is wanted, no request is made, and the monitor is idle again. -/
theorem Idle.pump_idle (hnone : (m.topology.apply r).topology.wanted m.fetchCosts = []) :
    (m.offer r).pump.Idle size ∧ (m.offer r).pump.backfill = m.backfill := by
  obtain ⟨-, -, hbackfill, hcosts, hopen, -⟩ := h.offer r
  obtain ⟨-, heq, hnil, -, hslots, -⟩ := h.pumpAll_offer (r := r)
  have hcandidates : { m.offer r with
      inbound := [], topology := (m.topology.apply r).topology }.candidates = [] := by
    rw [candidates_eq]
    show (m.topology.apply r).topology.wanted (m.offer r).fetchCosts = []
    rw [hcosts, hnone]
  have hsame : (m.offer r).pump.backfill = m.backfill := by
    rw [heq]
    exact (absorb_backfill (m := { m.offer r with inbound := [] }) hcandidates).trans hbackfill
  have hstays : (m.offer r).pump.isOpen = true := (m.offer r).isOpen_pump.trans hopen
  exact ⟨⟨hsame ▸ h.orderly, hsame ▸ h.load_eq, hnil, hsame ▸ h.room, hslots ▸ h.slot, hstays⟩,
    hsame⟩

/-- Then the first round is the last. -/
theorem Idle.settle_offer (hnone : (m.topology.apply r).topology.wanted m.fetchCosts = [])
    (rounds : Nat) (e : Mesh) :
    (m.offer r).settle Mesh.responder (rounds + 1) e = ((m.offer r).pump, e) := by
  have hidle := (h.pump_idle hnone).1
  rw [← h.pumpAll_offer.1] at hidle ⊢
  exact settle_of_idle hidle.load_eq hidle.inbound_eq rounds e

end Report

/-- **A monitor whose topology catches the mesh tracks it** once it has absorbed the report: a node
that is not covered has no cost, so it is asked for. -/
theorem Mirroring.pump_tracks {g' : Mesh} (h : m.Mirroring g localId) {r : Report}
    (hsize : g'.size ≤ g.size) (hg' : g'.WellFormed) (hlocal : g'.contains localId = true)
    (hcatches : m.topology.Catches (m.topology.apply r).topology g') :
    (m.offer r).pump.Tracks g' localId False [] := by
  have hidle := h.toIdle
  obtain ⟨-, -, hbackfill, hcosts, hopen, -⟩ := hidle.offer r
  have hinformed := h.localId_eq ▸ hcatches.informed
  have horder : { m.offer r with
      inbound := [], topology := (m.topology.apply r).topology }.InOrder g' localId False [] := by
    refine ⟨hinformed, ?_, fun id hid => ?_, ?_, ?_, nofun, hopen⟩
    · show (m.offer r).backfill.Orderly []
      rw [hbackfill]
      exact h.orderly
    · change id ∈ (m.offer r).backfill.waiting [] at hid
      rw [hbackfill, hidle.waiting_eq] at hid
      cases hid
    · show g'.size ≤ (m.offer r).backfill.capacity
      rw [hbackfill]
      exact hsize.trans h.room
    · show (m.offer r).backfill.dropped = 0
      rw [hbackfill]
      exact h.dropped
  have hreplay := (h.mirrors.wellFormed.apply_sound r).exact.replay_eq
  have htracks := InOrder.absorb hg' hlocal (m := { m.offer r with inbound := [] })
    (c := m.topology.apply r) horder fun id hid hne _ => by
      refine (hcatches.covered id hid).imp_right fun hnew => .inr ⟨?_, ?_⟩
      · exact Topology.diff_ne_of_new hreplay hnew.1 hid
      · refine (mem_candidates hinformed.faithful.wellFormed id).2 ⟨.inr ⟨?_, hnew.2⟩, ?_⟩
        · exact hcosts.trans h.fetchCosts
        · exact hinformed.localId_eq.symm ▸ hne
  rw [hidle.pumpAll_offer.2.1]
  exact htracks.withPermits _

/-! ## Coming to rest after an event -/

section Rests
variable {event : Event NodeId} {r : Report} {rounds : Nat} {m' : Monitor}

/-- What the topology has to know of the local node, it knows by then. -/
theorem Mirroring.pump_covers (h : m.Mirroring g localId) (hg : g.WellFormed)
    (hlocal : (g.play event).1.contains localId = true)
    (hcatches : m.topology.Catches (m.topology.apply r).topology (g.play event).1) :
    (m.offer r).pump.topology.Covers (g.play event).1 localId := by
  have htracks := h.pump_tracks (g.size_play_le event) (hg.play event) hlocal hcatches
  obtain ⟨-, -, -, htopology, -, -⟩ := h.toIdle.pumpAll_offer (r := r)
  have hstored : m.topology.contains localId = true := by
    rw [← h.localId_eq, h.mirrors.contains_local_iff hg, h.localId_eq]
    exact Mesh.contains_of_play hlocal
  have hkept := htracks.informed.stored
  rw [htopology] at hkept ⊢
  refine (hcatches.covered localId hkept).resolve_right fun hnew => ?_
  rw [hstored] at hnew
  exact Bool.noConfusion hnew.1

/-- The local node is still there: the topology catches the new mesh, and the rest is fetched. -/
theorem Mirroring.rests_known (h : m.Mirroring g localId) (hg : g.WellFormed)
    (honline : g.AllOnline) (hlocal : (g.play event).1.contains localId = true)
    (hcatches : m.topology.Catches (m.topology.apply r).topology (g.play event).1)
    (hrests : Rests (g.play event).1.answer (m.offer r) m') :
    m'.Mirroring (g.play event).1 localId := by
  have hidle := h.toIdle
  obtain ⟨-, -, -, -, hslots, hcosts⟩ := hidle.pumpAll_offer (r := r)
  have htracks := h.pump_tracks (g.size_play_le event) (hg.play event) hlocal hcatches
  have hafter := hidle.rests_offer.1 hrests
  obtain ⟨htracks', hlearns⟩ :=
    (receptive_tracks (hg.play event) hlocal).learns (hg.play event) htracks hafter
  have hown := (h.pump_covers hg hlocal hcatches).mono hlearns.keeps
  refine htracks'.mirroring (hg.play event) (honline.play event) hlocal
    (Backfill.load_eq_zero_iff.2 hafter.2.2) hafter.2.1 hown ?_ ?_
  · rw [hlearns.fetchCosts_eq, hcosts, h.fetchCosts]
  · rw [hlearns.slots_eq, hslots]
    exact h.slot

/-- Then a fleet settles, too. -/
theorem Mirroring.settle_known (h : m.Mirroring g localId) (hg : g.WellFormed)
    (hlocal : (g.play event).1.contains localId = true)
    (hcatches : m.topology.Catches (m.topology.apply r).topology (g.play event).1)
    (he : e.sites = (g.play event).1.sites) (hrounds : (g.play event).1.extent < rounds) :
    ∃ m' e', (m.offer r).settle Mesh.responder (rounds + 1) e = (m', e') ∧
      e'.sites = (g.play event).1.sites ∧ Rests (g.play event).1.answer (m.offer r) m' := by
  have htracks := h.pump_tracks (g.size_play_le event) (hg.play event) hlocal hcatches
  rw [← h.toIdle.pumpAll_offer.1] at htracks
  obtain ⟨m', e', heq, he', hafter⟩ :=
    (receptive_tracks (hg.play event) hlocal).settle_of_pumpAll (hg.play event) hlocal rounds htracks
      he (((g.play event).1.card_missing_le _).trans_lt hrounds)
  rw [h.toIdle.pumpAll_offer.1] at hafter
  exact ⟨m', e', heq, he', h.toIdle.rests_offer.2 hafter⟩

/-- The local node is gone: nothing is stored any more, and nothing is asked for. -/
theorem Mirroring.pump_gone (h : m.Mirroring g localId) (hg : g.WellFormed)
    (hgone : (g.play event).1.contains localId = false)
    (hmirrors : (m.topology.apply r).topology.Mirrors (g.play event).1) :
    (m.topology.apply r).topology.wanted m.fetchCosts = [] ∧
      (m.offer r).pump.Mirroring (g.play event).1 localId := by
  obtain ⟨-, -, -, htopology, -, hcosts⟩ := h.toIdle.pumpAll_offer (r := r)
  have hlocalId : (m.topology.apply r).topology.localId = localId :=
    (h.mirrors.wellFormed.apply_sound r).localId_eq.trans h.localId_eq
  have hnone : (m.topology.apply r).topology.wanted m.fetchCosts = [] := by
    refine hmirrors.wellFormed.wanted_eq_nil fun id hid => ?_
    rw [hmirrors.contains_iff, (hg.play event).mem_component, hlocalId, hgone] at hid
    exact Bool.false_ne_true hid.1
  obtain ⟨hidle, hbackfill⟩ := h.toIdle.pump_idle hnone
  exact ⟨hnone, hidle.mono (g.size_play_le event), hbackfill ▸ h.dropped,
    hcosts.trans h.fetchCosts, htopology.symm ▸ hmirrors,
    (congrArg Topology.localId htopology).trans hlocalId⟩

section Event
variable (h : m.Mirroring g localId) (hg : g.WellFormed) (honline : g.AllOnline)
  (hadmits : g.Admits localId event)
include h hg honline hadmits

/-- **An event leaves the monitor mirroring the changed mesh**, on any schedule. -/
theorem Mirroring.rests
    (hrests : Rests (g.play event).1.answer ((g.play event).2.elim m m.offer) m') :
    m'.Mirroring (g.play event).1 localId := by
  cases hr : (g.play event).2 with
  | none =>
    rw [hr] at hrests
    rw [h.toIdle.quiescent.rests_iff.1 hrests, Mesh.play_of_none hr]
    exact h
  | some r =>
    rw [hr] at hrests
    have hafter := h.mirrors.play hg honline (h.localId_eq.symm ▸ hadmits) hr
    rw [h.localId_eq] at hafter
    rcases hafter with ⟨hlocal, hcatches⟩ | ⟨hgone, hmirrors⟩
    · exact h.rests_known hg honline hlocal hcatches hrests
    · obtain ⟨-, hpumped⟩ := h.pump_gone hg hgone hmirrors
      have hsame := hpumped.toIdle.quiescent.rests_iff.1 (h.toIdle.rests_offer.1 hrests)
      exact hsame ▸ hpumped

/-- **The schedule of a fleet comes to rest with it**, in one round more than it takes to learn all. -/
theorem Mirroring.settle_offer (hr : (g.play event).2 = some r)
    (he : e.sites = (g.play event).1.sites) (hrounds : (g.play event).1.extent < rounds) :
    ∃ m' e', (m.offer r).settle Mesh.responder (rounds + 1) e = (m', e') ∧
      e'.sites = (g.play event).1.sites ∧ Rests (g.play event).1.answer (m.offer r) m' := by
  have hafter := h.mirrors.play hg honline (h.localId_eq.symm ▸ hadmits) hr
  rw [h.localId_eq] at hafter
  rcases hafter with ⟨hlocal, hcatches⟩ | ⟨hgone, hmirrors⟩
  · exact h.settle_known hg hlocal hcatches he hrounds
  · obtain ⟨hnone, hpumped⟩ := h.pump_gone hg hgone hmirrors
    exact ⟨_, e, h.toIdle.settle_offer hnone rounds e, he,
      h.toIdle.rests_offer.2 (hpumped.toIdle.quiescent.rests_iff.2 rfl)⟩

end Event

/-- **So do all events that are admitted when their turn comes.** -/
theorem Mirroring.course (h : m.Mirroring g localId) (hg : g.WellFormed) (honline : g.AllOnline)
    {events : List (Event NodeId)} (hadmits : g.AdmitsAll localId events)
    (hcourse : Course (g.happenings events) m m') : m'.Mirroring (g.playAll events) localId := by
  induction events generalizing g m with
  | nil =>
    cases hcourse
    exact h
  | cons event events ih =>
    cases hcourse with
    | cons hrests hcourse =>
      exact ih (h.rests hg honline hadmits.1 hrests) (hg.play event) (honline.play event) hadmits.2
        hcourse

end Rests

/-- With nothing reported the monitor stays as it is. -/
theorem Idle.settle {size : Nat} (h : m.Idle size) (rounds : Nat) (e : Mesh) :
    m.settle Mesh.responder (rounds + 1) e = (m, e) := by
  have hall : m.pumpAll = m := by
    rw [pumpAll, h.inbound_eq]
    rfl
  have hsettle := settle_of_idle (m := m) (hall.symm ▸ h.load_eq) (hall.symm ▸ h.inbound_eq) rounds e
  rwa [hall] at hsettle

end Monitor
end MeshView
