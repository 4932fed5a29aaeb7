/-
# Settling comes to rest

While the mesh does not change, everything that a monitor hears is true.  So no move forgets anything,
what waits to be absorbed waits on until it is known (`Hears.heeds`), and absorbing makes the worker's
load grow only if a fact is learnt (`Hears.lowers`).  When a monitor comes to rest, on whatever
schedule, it knows all that waited (`Steady.learns`); what else holds of it then depends on the
invariant that its moves keep, of which `Tracks` is one.  The facts of a mesh are finite.  Hence on the
schedule of a fleet an idle monitor comes to rest within one round more than there are facts that it
does not know (`Steady.settle`).
-/

import MeshView.Proofs.Monitor.Course
import MeshView.Proofs.Monitor.Schedule
import MeshView.Proofs.Monitor.Tracking

namespace MeshView
namespace Monitor
variable {g e : Mesh} {localId : NodeId} {strict : Prop} {m m' : Monitor}

/-! ## What is heard -/

/-- The monitor was told the truth, and what waits to be absorbed is true. -/
structure Hears (g : Mesh) (localId : NodeId) (strict : Prop) (m : Monitor) : Prop where
  informed : m.topology.Informed g localId strict
  truthful : ∀ item ∈ m.inbound, ∀ r ∈ item.reports, Topology.Truthful g localId r
  orderly : m.backfill.Orderly m.out
  isOpen : m.isOpen = true

/-- No fact is lost, what was reported is known, and no slot is lost or gained. -/
structure Learns (reports : List Report) (m m' : Monitor) : Prop where
  keeps : ∀ f, m.topology.knows f = true → m'.topology.knows f = true
  knows : ∀ r ∈ reports, ∀ f ∈ r.facts, m'.topology.knows f = true
  slots_eq : m'.slots = m.slots
  fetchCosts_eq : m'.fetchCosts = m.fetchCosts

theorem Learns.trans {m'' : Monitor} {reports reports' : List Report} (h : Learns reports m m')
    (h' : Learns reports' m' m'') : Learns (reports ++ reports') m m'' where
  keeps f hf := h'.keeps f (h.keeps f hf)
  knows r hr f hf := by
    rcases List.mem_append.1 hr with hr | hr
    · exact h'.keeps f (h.knows r hr f hf)
    · exact h'.knows r hr f hf
  slots_eq := h'.slots_eq.trans h.slots_eq
  fetchCosts_eq := h'.fetchCosts_eq.trans h.fetchCosts_eq

/-- What was known is known, what waited is known or waits, and no slot is lost or gained. -/
structure Heeds (m m' : Monitor) : Prop where
  keeps : ∀ f, m.topology.knows f = true → m'.topology.knows f = true
  told : ∀ r ∈ m.inbound.flatMap Inbound.reports,
    (∀ f ∈ r.facts, m'.topology.knows f = true) ∨ r ∈ m'.inbound.flatMap Inbound.reports
  slots_eq : m'.slots = m.slots
  fetchCosts_eq : m'.fetchCosts = m.fetchCosts

theorem Heeds.refl (m : Monitor) : Heeds m m := ⟨fun _ hf => hf, fun _ hr => .inr hr, rfl, rfl⟩

theorem Heeds.trans {m'' : Monitor} (h : Heeds m m') (h' : Heeds m' m'') : Heeds m m'' where
  keeps f hf := h'.keeps f (h.keeps f hf)
  told r hr := (h.told r hr).elim (fun hknown => .inl fun f hf => h'.keeps f (hknown f hf)) (h'.told r)
  slots_eq := h'.slots_eq.trans h.slots_eq
  fetchCosts_eq := h'.fetchCosts_eq.trans h.fetchCosts_eq

/-- Once nothing waits, all that waited is known. -/
theorem Heeds.learns (h : Heeds m m') (hnil : m'.inbound = []) :
    Learns (m.inbound.flatMap Inbound.reports) m m' := by
  refine ⟨h.keeps, fun r hr => (h.told r hr).resolve_right fun hwaits => ?_, h.slots_eq,
    h.fetchCosts_eq⟩
  rw [hnil] at hwaits
  cases hwaits

/-- An answer goes to the end of what waits. -/
theorem heeds_finish (hopen : m.isOpen = true) {id : NodeId} (hr : m.backfill.running = some id)
    (answer : Answer) : Heeds m (m.finish answer) := by
  cases answer with
  | error failure => exact ⟨fun _ hf => hf, fun _ hr => .inr hr, rfl, rfl⟩
  | ok list =>
    rw [finish_ok_eq hopen hr]
    refine ⟨fun _ hf => hf, fun r hr => .inr ?_, ?_, rfl⟩
    · rw [List.flatMap_append]
      exact List.mem_append_left _ hr
    · rw [slots, slots, List.countP_append]
      rfl

/-- What is under way is handed on from one place to the next, and only whole answers arrive. -/
structure Hands (g : Mesh) (m m' : Monitor) : Prop extends Passes m m' where
  waiting_eq : m'.backfill.waiting m'.out = m.backfill.waiting m.out
  arrives : ∀ item ∈ m'.inbound, item ∈ m.inbound ∨
    ∃ id, g.isOnline id = true ∧ item = .fetched ⟨id, g.localView id⟩
  slots_eq : m'.slots = m.slots
  isOpen : m'.isOpen = true

/-- **A move absorbs the next item or hands on what is under way**, if every node that is asked is
online. -/
theorem move_cases (horderly : m.backfill.Orderly m.out) (hopen : m.isOpen = true)
    (honline : ∀ id ∈ m.backfill.waiting m.out, g.isOnline id = true) (hmove : Move g.answer m m') :
    (∃ item rest, m.inbound = item :: rest ∧ m' = m.pump) ∨ Hands g m m' := by
  cases hmove with
  | pump hi => exact .inl ⟨_, _, hi, rfl⟩
  | issue hr hq =>
    exact .inr ⟨.issue horderly, (horderly.issue hr hq).2.2, fun _ hitem => .inl hitem, rfl, hopen⟩
  | @finish id hr =>
    have hwaits : id ∈ m.backfill.waiting m.out := by
      rw [Backfill.waiting, hr]
      exact List.mem_append_right _ List.mem_cons_self
    rcases g.answer_cases id with ⟨hid, list, hok, hlist⟩ | ⟨hoffline, -⟩
    · rw [hok]
      refine .inr ⟨.finish horderly _, (waiting_finish_ok hopen hr list).2, ?_,
        (heeds_finish hopen hr _).slots_eq, ?_⟩
      · show ∀ item ∈ (m.finish (.ok list)).inbound, _
        rw [finish_ok_eq hopen hr, hlist]
        intro item hitem
        exact (List.mem_append.1 hitem).imp_right fun hitem => ⟨id, hid, List.mem_singleton.1 hitem⟩
      · show (m.finish (.ok list)).isOpen = true
        rw [finish_ok_eq hopen hr]
        exact hopen
    · rw [honline id hwaits] at hoffline
      cases hoffline

/-- **No move forgets anything**, if all that is heard is true. -/
theorem Hears.heeds (hg : g.WellFormed) (h : m.Hears g localId strict) {answer : NodeId → Answer}
    (hmove : Move answer m m') : Heeds m m' := by
  cases hmove with
  | issue hr hq => exact ⟨fun _ hf => hf, fun _ hr => .inr hr, rfl, rfl⟩
  | finish hr => exact heeds_finish h.isOpen hr _
  | @pump item rest hi =>
    have htrue := h.truthful item (hi ▸ List.mem_cons_self)
    obtain ⟨hadvance, hfacts⟩ := h.informed.faithful.applyAll_advance hg htrue
    obtain ⟨-, hrest, htopology, hslots, hcosts⟩ := pump_eq hi
    refine ⟨fun f hf => ?_, fun r hr => ?_, hslots, hcosts⟩
    · show m.pump.topology.knows f = true
      rw [htopology]
      exact hadvance.keeps f hf
    · show (∀ f ∈ r.facts, m.pump.topology.knows f = true) ∨ r ∈ m.pump.inbound.flatMap _
      rw [htopology, hrest]
      rw [hi, List.flatMap_cons] at hr
      exact (List.mem_append.1 hr).imp_left (hfacts r)

/-- **Absorbing learns a fact, or the worker has no more to do than before.** -/
theorem Hears.lowers (hg : g.WellFormed) (hlocal : g.contains localId = true)
    (h : m.Hears g localId strict) {item : Inbound} {rest : List Inbound}
    (hi : m.inbound = item :: rest) : Lowers (fun t => (g.missing t).card) m m.pump := by
  obtain ⟨hadvance, -⟩ :=
    h.informed.faithful.applyAll_advance hg (h.truthful item (hi ▸ List.mem_cons_self))
  obtain ⟨new, hpumped⟩ := exists_pumped h.orderly hi
  rw [Lowers, hpumped.topology_eq]
  by_cases hd : (m.topology.applyAll item.reports).diff = ∅
  · refine .inl ⟨?_, Finset.card_le_card (g.missing_subset hadvance.confirms)⟩
    rw [Backfill.load, Backfill.load, hpumped.queue_eq, hpumped.quiet hd, List.append_nil,
      hpumped.running_eq]
  · exact .inr (Mesh.card_missing_lt hg hlocal hadvance hd)

/-! ## What settles -/

/-- An invariant under which a monitor settles while the mesh does not change. -/
structure Steady (g : Mesh) (localId : NodeId) (strict : Prop) (Inv : Monitor → Prop) : Prop where
  hears : ∀ m, Inv m → m.Hears g localId strict
  move : ∀ m m', Inv m → Move g.answer m m' → Inv m'

/-- The local node may also go on to tell about itself. -/
structure Receptive (g : Mesh) (localId : NodeId) (strict : Prop) (Inv : Monitor → Prop) : Prop
    extends Steady g localId strict Inv where
  offer : ∀ m r, Inv m → r ∈ g.localView localId → Inv (m.offer r)

namespace Steady
variable {Inv : Monitor → Prop} (hg : g.WellFormed) (hlocal : g.contains localId = true)
  (hsteady : Steady g localId strict Inv)

include hsteady

/-- What moves led to, another move leads on from. -/
theorem reached_move {m₀ : Monitor} : ∀ m m', (Inv m ∧ ∃ k, Moves g.answer k m₀ m) →
    Move g.answer m m' → Inv m' ∧ ∃ k, Moves g.answer k m₀ m' := by
  rintro m m' ⟨h, k, hmoves⟩ hmove
  exact ⟨hsteady.move m m' h hmove, k + 1, hmoves.concat hmove⟩

include hg

/-- **On any schedule**, all that waited is known when the monitor rests. -/
theorem learns (h : Inv m) (hrests : Rests g.answer m m') :
    Inv m' ∧ Learns (m.inbound.flatMap Inbound.reports) m m' := by
  obtain ⟨h', hheeds⟩ := hrests.keeps (P := fun m' => Inv m' ∧ Heeds m m')
    (fun n n' hn hmove => ⟨hsteady.move n n' hn.1 hmove,
      hn.2.trans ((hsteady.hears n hn.1).heeds hg hmove)⟩) ⟨h, .refl m⟩
  exact ⟨h', hheeds.learns hrests.2.1⟩

include hlocal

/-- **Settling terminates.**  With more rounds than there are facts to learn, an idle monitor comes to
rest. -/
theorem settle (rounds : Nat) (h : Inv m) (he : e.sites = g.sites) (hidle : m.backfill.load = 0)
    (hrounds : (g.missing m.topology).card < rounds) :
    ∃ m' e', m.settle Mesh.responder rounds e = (m', e') ∧ e'.sites = g.sites ∧
      Rests g.answer m m' := by
  obtain ⟨m', e', heq, he', ⟨-, hmoves⟩, hrest⟩ := settle_rests_of_idle hsteady.reached_move
    (fun m _ _ h => (hsteady.hears m h.1).lowers hg hlocal) rounds ⟨h, 0, .refl m⟩ he hidle hrounds
  exact ⟨m', e', heq, he', hmoves, hrest⟩

/-- Settling takes one round more if the invariant is known to hold only once what waited was
absorbed. -/
theorem settle_of_pumpAll (rounds : Nat) (h : Inv m.pumpAll) (he : e.sites = g.sites)
    (hrounds : (g.missing m.pumpAll.topology).card < rounds) :
    ∃ m' e', m.settle Mesh.responder (rounds + 1) e = (m', e') ∧ e'.sites = g.sites ∧
      Rests g.answer m.pumpAll m' := by
  obtain ⟨m', e', heq, he', ⟨-, hmoves⟩, hrest⟩ := settle_rests_of_pumpAll hsteady.reached_move
    (fun m _ _ h => (hsteady.hears m h.1).lowers hg hlocal) rounds ⟨h, 0, .refl _⟩ he hrounds
  exact ⟨m', e', heq, he', hmoves, hrest⟩

end Steady

/-! ## Offering a report -/

/-- With nothing waiting, every slot is free. -/
theorem permits_pos (hslot : 0 < m.slots) (hsettled : m.inbound = []) : 0 < m.permits := by
  rw [slots, hsettled] at hslot
  exact hslot

/-- With a permit left, a report is queued behind what waits. -/
theorem offer_eq (hopen : m.isOpen = true) (hpermits : 0 < m.permits) (r : Report) : m.offer r =
    { m with inbound := m.inbound ++ [.external r], permits := m.permits - 1 } := by
  have haccepts : m.accepts = true := by
    rw [accepts, hopen, Bool.true_and]
    exact decide_eq_true hpermits
  exact if_pos haccepts

theorem slots_offer (hopen : m.isOpen = true) (hpermits : 0 < m.permits) (r : Report) :
    (m.offer r).slots = m.slots := by
  rw [offer_eq hopen hpermits, slots, slots, List.countP_append]
  show m.permits - 1 + (_ + 1) = _
  omega

namespace Receptive
variable {Inv : Monitor → Prop} (hg : g.WellFormed) (hlocal : g.contains localId = true)
  (hsteady : Receptive g localId strict Inv)

include hsteady

/-- A monitor at rest takes a report, and nothing else waits. -/
theorem offer_inbound (h : Inv m) (hrest : m.Quiescent) (hslot : 0 < m.slots) (r : Report) :
    m.offer r = { m with inbound := [.external r], permits := m.permits - 1 } ∧
      (m.offer r).slots = m.slots := by
  have hopen := (hsteady.hears m h).isOpen
  have hpermits := permits_pos hslot hrest.1
  have heq := offer_eq hopen hpermits r
  rw [hrest.1] at heq
  exact ⟨heq, slots_offer hopen hpermits r⟩

include hg

/-- **A report of the local node about itself is known when the monitor rests again**, on any
schedule. -/
theorem rests (h : Inv m) (hrest : m.Quiescent) (hslot : 0 < m.slots) {r : Report}
    (hr : r ∈ g.localView localId) (hrests : Rests g.answer (m.offer r) m') :
    Inv m' ∧ Learns [r] m m' := by
  obtain ⟨heq, hslots⟩ := hsteady.offer_inbound h hrest hslot r
  obtain ⟨h', hlearns⟩ := hsteady.toSteady.learns hg (hsteady.offer m r h hr) hrests
  have hslots' := hlearns.slots_eq.trans hslots
  rw [heq] at hlearns
  exact ⟨h', hlearns.keeps, hlearns.knows, hslots', hlearns.fetchCosts_eq⟩

/-- **So are all that were told one after another.** -/
theorem course (h : Inv m) (hrest : m.Quiescent) (hslot : 0 < m.slots) {reports : List Report}
    (hreports : ∀ r ∈ reports, r ∈ g.localView localId)
    (hcourse : Course (g.telling reports) m m') : Inv m' ∧ Learns reports m m' := by
  induction reports generalizing m with
  | nil =>
    cases hcourse
    exact ⟨h, fun _ hf => hf, nofun, rfl, rfl⟩
  | cons r reports ih =>
    cases hcourse with
    | @cons _ _ _ n _ hrests hcourse =>
      obtain ⟨hn, hlearns⟩ := hsteady.rests hg h hrest hslot (hreports r List.mem_cons_self) hrests
      obtain ⟨h', hlearns'⟩ := ih hn hrests.2 (hlearns.slots_eq.symm ▸ hslot)
        (fun r' hr' => hreports r' (List.mem_cons_of_mem _ hr')) hcourse
      exact ⟨h', hlearns.trans hlearns'⟩

include hlocal

/-- **The schedule of a fleet comes to rest with it**, in more rounds than the mesh has facts. -/
theorem settle_offer (rounds : Nat) (h : Inv m) (hrest : m.Quiescent) (hslot : 0 < m.slots)
    {r : Report} (hr : r ∈ g.localView localId) (he : e.sites = g.sites)
    (hrounds : g.extent < rounds) :
    ∃ m' e', (m.offer r).settle Mesh.responder rounds e = (m', e') ∧ e'.sites = g.sites ∧
      Rests g.answer (m.offer r) m' := by
  obtain ⟨heq, -⟩ := hsteady.offer_inbound h hrest hslot r
  have hidle : (m.offer r).backfill.load = 0 := by
    rw [heq]
    exact Backfill.load_eq_zero_iff.2 hrest.2
  exact hsteady.toSteady.settle hg hlocal rounds (hsteady.offer m r h hr) he hidle
    ((g.card_missing_le _).trans_lt hrounds)

end Receptive

/-! ## A monitor that tracks the mesh -/

theorem Tracks.issue (h : m.Tracks g localId strict []) {id : NodeId} {rest : List NodeId}
    (hr : m.backfill.running = none) (hq : m.backfill.queue = id :: rest) :
    (m.perform .issue).Tracks g localId strict [] := by
  obtain ⟨heq, horderly, hwaiting⟩ := h.orderly.issue hr hq
  have hfields : m.backfill.issue.capacity = m.backfill.capacity ∧
      m.backfill.issue.dropped = m.backfill.dropped := by
    rw [heq]
    exact ⟨rfl, rfl⟩
  exact h.move rfl horderly (fun x hx => hwaiting ▸ hx) (fun x hx _ _ => hwaiting.symm ▸ hx)
    hfields.1 hfields.2 h.expected h.isOpen

/-- The answer of a node that is online waits to be absorbed; its node stays under way. -/
theorem Tracks.finish_ok (h : m.Tracks g localId strict []) {id : NodeId} {list : NeighborList}
    (hr : m.backfill.running = some id) (honline : g.isOnline id = true)
    (hlist : list.reports id = g.localView id) :
    (m.perform (.finish (.ok list))).Tracks g localId strict [] := by
  have heq : m.perform (.finish (.ok list)) =
      { m with
        backfill := m.backfill.finish (.ok list)
        inbound := m.inbound ++ [.fetched ⟨id, list.reports id⟩] } := finish_ok_eq h.isOpen hr list
  obtain ⟨horderly, hwaiting⟩ := h.orderly.finish_ok hr list
  have hout : [] ++ (m.inbound ++ [Inbound.fetched ⟨id, list.reports id⟩]).filterMap
      Inbound.fetchedId? = [] ++ m.out ++ [id] := List.filterMap_append
  rw [heq]
  refine h.move rfl (hout.symm ▸ horderly) (fun x hx => ?_) (fun x hx _ _ => ?_) rfl rfl
    (fun item hitem => ?_) h.isOpen
  · rw [← hwaiting, ← hout]
    exact hx
  · rw [← hwaiting, ← hout] at hx
    exact hx
  · rcases List.mem_append.1 hitem with hitem | hitem
    · exact h.expected item hitem
    · rw [List.mem_singleton.1 hitem]
      exact ⟨honline, hlist⟩

/-- A node that does not answer is given up. -/
theorem Tracks.finish_error (h : m.Tracks g localId strict []) {id : NodeId} {failure : FetchFailure}
    (hr : m.backfill.running = some id) (hoffline : g.isOnline id = false) :
    (m.perform (.finish (.error failure))).Tracks g localId strict [] := by
  have heq : m.perform (.finish (.error failure)) =
      { m with backfill := m.backfill.finish (.error failure) } := rfl
  obtain ⟨horderly, hmem⟩ := h.orderly.finish_error hr failure
  have hfields : (m.backfill.finish (.error failure)).capacity = m.backfill.capacity ∧
      (m.backfill.finish (.error failure)).dropped = m.backfill.dropped := by
    rw [Backfill.finish, hr]
    exact ⟨rfl, rfl⟩
  rw [heq]
  refine h.move rfl horderly (fun x hx => ((hmem x).1 hx).1)
    (fun x hx ho _ => (hmem x).2 ⟨hx, fun he => ?_⟩) hfields.1 hfields.2 h.expected h.isOpen
  rw [he, hoffline] at ho
  cases ho

/-- A report of the local node about itself waits to be absorbed, if there is a permit for it. -/
theorem Tracks.offer (h : m.Tracks g localId strict []) {r : Report} (hr : r ∈ g.localView localId) :
    (m.offer r).Tracks g localId strict [] := by
  rw [Monitor.offer]
  split
  · have hout : [] ++ (m.inbound ++ [Inbound.external r]).filterMap Inbound.fetchedId? =
        [] ++ m.out := congrArg _ (out_append (.external r) rfl)
    refine h.move rfl ?_ (fun id hid => hout ▸ hid) (fun id hid _ _ => hout.symm ▸ hid) rfl rfl
      (fun item hitem => ?_) h.isOpen
    · show m.backfill.Orderly ([] ++ (m.inbound ++ [Inbound.external r]).filterMap _)
      rw [hout]
      exact h.orderly
    · rcases List.mem_append.1 hitem with hitem | hitem
      · exact h.expected item hitem
      · rw [List.mem_singleton.1 hitem]
        exact hr
  · exact h

/-- **A monitor that tracks the mesh settles.** -/
theorem receptive_tracks (hg : g.WellFormed) (hlocal : g.contains localId = true) :
    Receptive g localId strict fun m => m.Tracks g localId strict [] where
  hears m h := ⟨h.informed, fun _ hitem => (h.item_reports hitem).1, h.orderly, h.isOpen⟩
  move m m' h hmove := by
    cases hmove with
    | pump hi => exact h.pump hg hlocal hi
    | issue hr hq => exact h.issue hr hq
    | @finish id hr =>
      rcases g.answer_cases id with ⟨honline, list, hok, hlist⟩ | ⟨hoffline, failure, herror⟩
      · rw [hok]
        exact h.finish_ok hr honline hlist
      · rw [herror]
        exact h.finish_error hr hoffline
  offer m r h hr := h.offer hr

/-- With nothing under way every other open node that is stored is covered. -/
theorem Tracks.covers (h : m.Tracks g localId strict []) (hidle : m.backfill.load = 0)
    (hsettled : m.inbound = []) {id : NodeId} (hid : m.topology.contains id = true)
    (hne : id ≠ localId) (honline : g.isOnline id = true) : m.topology.Covers g id := by
  refine (h.wanted id hid hne honline).resolve_right fun hunder => ?_
  obtain ⟨hqueue, hrunning⟩ := Backfill.load_eq_zero_iff.1 hidle
  rw [Backfill.waiting, out, hsettled, hqueue, hrunning] at hunder
  cases hunder

/-- **A monitor that has settled knows everything**, if the local node has told everything about
itself. -/
theorem Tracks.complete (h : m.Tracks g localId strict []) (hidle : m.backfill.load = 0)
    (hsettled : m.inbound = []) (hown : m.topology.Covers g localId) :
    m.topology.Complete g localId strict where
  faithful := h.informed.faithful
  stored := h.informed.stored
  covers id hid hopen := by
    by_cases he : id = localId
    · rwa [he]
    · exact h.covers hidle hsettled hid he (hopen.resolve_left he)

/-! ## At rest -/

/-- A monitor at rest: it follows the mesh, its worker is idle, nothing waits to be absorbed, and
the network layer may offer a report. -/
structure AtRest (g : Mesh) (localId : NodeId) (m : Monitor) : Prop where
  tracks : m.Tracks g localId True []
  idle : m.backfill.load = 0
  settled : m.inbound = []
  slot : 0 < m.slots

theorem atRest_start (g : Mesh) (localId : NodeId) (settings : Settings)
    (hcapacity : g.size ≤ settings.fetchQueueCapacity) :
    ((start localId settings).perform .subscribe).AtRest g localId where
  tracks :=
    { informed := Topology.informed_root
      orderly := Backfill.orderly_idle _
      asked := nofun
      wanted := fun _ hid hne _ => absurd (Topology.contains_root_iff.1 hid).symm hne
      room := hcapacity.trans (Nat.le_max_left _ 1)
      dropped := rfl
      expected := nofun
      isOpen := rfl }
  idle := rfl
  settled := rfl
  slot := Nat.lt_of_lt_of_le Nat.one_pos (Nat.le_max_right settings.notificationBuffer 1)

theorem AtRest.quiescent (h : m.AtRest g localId) : m.Quiescent :=
  quiescent_of_load h.settled h.idle

/-- **At rest everything is known**, if the local node has told everything about itself. -/
theorem AtRest.complete (h : m.AtRest g localId)
    (hown : ∀ r ∈ g.localView localId, ∀ f ∈ r.facts, m.topology.knows f = true) :
    m.topology.Complete g localId True :=
  h.tracks.complete h.idle h.settled hown

/-- **A report of the local node about itself leaves the monitor at rest**, on any schedule. -/
theorem AtRest.rests (hg : g.WellFormed) (hlocal : g.contains localId = true)
    (h : m.AtRest g localId) {r : Report} (hr : r ∈ g.localView localId)
    (hrests : Rests g.answer (m.offer r) m') : m'.AtRest g localId := by
  obtain ⟨htracks, hlearns⟩ := (receptive_tracks hg hlocal).rests hg h.tracks h.quiescent h.slot hr
    hrests
  exact ⟨htracks, Backfill.load_eq_zero_iff.2 hrests.2.2, hrests.2.1,
    hlearns.slots_eq.symm ▸ h.slot⟩

/-- **So do all that it tells one after another.** -/
theorem AtRest.course (hg : g.WellFormed) (hlocal : g.contains localId = true)
    (h : m.AtRest g localId) {reports : List Report}
    (hreports : ∀ r ∈ reports, r ∈ g.localView localId)
    (hcourse : Course (g.telling reports) m m') : m'.AtRest g localId ∧ Learns reports m m' := by
  obtain ⟨htracks, hlearns⟩ := (receptive_tracks hg hlocal).course hg h.tracks h.quiescent h.slot
    hreports hcourse
  have hrest := hcourse.quiescent h.quiescent
  exact ⟨⟨htracks, Backfill.load_eq_zero_iff.2 hrest.2, hrest.1, hlearns.slots_eq.symm ▸ h.slot⟩,
    hlearns⟩

end Monitor
end MeshView
