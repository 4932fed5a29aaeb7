/-
# Rivals never come to rest

Two nodes that tell no cost, each holding a link whose cost its answer changes back and forth, keep a
monitor that wants costs busy for ever: absorbing the answer of one makes a difference, and the other,
whose cost is still missing, is asked for again.  What makes this last is that there is room in the
queue for every node that is ever named (`Confined`), so no request is dropped.  `Spinning` is
preserved by every move and excludes rest.
-/

import MeshView.Proofs.Monitor.Quiescence

namespace MeshView

/-- The report takes nothing away, names none but the given nodes, and tells no cost of a node whose
own answer tells none. -/
def Report.Mild (answer : NodeId → Answer) (ids : Finset NodeId) : Report → Prop
  | .node id cost => id ∈ ids ∧ (cost ≠ none → ¬ TellsNoCost answer id)
  | .link a b _ => a ∈ ids ∧ b ∈ ids
  | .nodeGone _ => False
  | .linkGone _ _ => False

/-- All that is stored is among the nodes, and no cost is known that the answers do not tell. -/
structure Topology.Within (answer : NodeId → Answer) (ids : Finset NodeId) (t : Topology) :
    Prop where
  stored : ∀ id, t.contains id = true → id ∈ ids
  unpriced : ∀ id, TellsNoCost answer id → (t.cost? id).join = none

/-- All nodes that answer, and all that they name, are among the given ones. -/
def Mentions (answer : NodeId → Answer) (ids : Finset NodeId) : Prop :=
  ∀ id list, answer id = .ok list → id ∈ ids ∧ ∀ n ∈ list.neighbors, n.1 ∈ ids

variable {answer : NodeId → Answer} {localId : NodeId} {ids : Finset NodeId}

theorem Report.Mild.grows {r : Report} (hr : r.Mild answer ids) : r.Grows := by
  cases r with
  | node id cost => trivial
  | link a b c => trivial
  | nodeGone id => exact hr.elim
  | linkGone a b => exact hr.elim

theorem Mentions.mild (h : Mentions answer ids) {id : NodeId} {list : NeighborList}
    (hlist : answer id = .ok list) {r : Report} (hr : r ∈ list.reports id) :
    r.Mild answer ids := by
  rcases NeighborList.mem_reports_iff.1 hr with ⟨k, hk, rfl⟩ | ⟨n, hn, rfl⟩
  · refine ⟨(h id list hlist).1, fun _ hno => ?_⟩
    obtain ⟨list', hlist', hno⟩ := hno
    cases hlist.symm.trans hlist'
    cases hk.symm.trans hno
  · exact ⟨(h id list hlist).1, (h id list hlist).2 n hn⟩

namespace Topology

theorem Within.apply {t : Topology} (h : t.Within answer ids) {r : Report}
    (hr : r.Mild answer ids) : (t.apply r).topology.Within answer ids := by
  cases r with
  | node x cost =>
    have hcost := cost?_reportNode t x cost
    refine ⟨fun id hid => ?_, fun id hno => ?_⟩
    · change (t.reportNode x cost).topology.contains id = true at hid
      rw [contains_iff_cost?, hcost] at hid
      split at hid
      · exact ‹x = id› ▸ hr.1
      · exact h.stored id (contains_iff_cost?.2 hid)
    · show ((t.reportNode x cost).topology.cost? id).join = none
      rw [hcost]
      split
      · rename_i hx
        have hnone : cost = none := by_contra fun hne => hr.2 hne (hx ▸ hno)
        rw [hnone, Option.none_or]
        exact h.unpriced id hno
      · exact h.unpriced id hno
  | link a b c =>
    have hcost := cost?_reportLink t a b c
    refine ⟨fun id hid => ?_, fun id hno => ?_⟩
    · change (t.reportLink a b c).topology.contains id = true at hid
      rw [contains_iff_cost?, hcost] at hid
      split at hid
      · rename_i hends
        rcases hends with rfl | rfl
        · exact hr.1
        · exact hr.2
      · exact h.stored id (contains_iff_cost?.2 hid)
    · show ((t.reportLink a b c).topology.cost? id).join = none
      rw [hcost]
      split
      · exact h.unpriced id hno
      · exact h.unpriced id hno
  | nodeGone id => exact hr.elim
  | linkGone a b => exact hr.elim

/-- Mild reports keep a topology within the nodes, and they leave links with their holders. -/
theorem Within.applyAll {t : Topology} (h : t.Within answer ids) (ht : t.WellFormed)
    {reports : List Report} (hreports : ∀ r ∈ reports, r.Mild answer ids) :
    (t.applyAll reports).topology.Within answer ids ∧
      ∀ a b, t.held? a b ≠ none → (t.applyAll reports).topology.held? a b ≠ none := by
  have hall := each_induction (P := fun t' => t'.WellFormed ∧ t'.Within answer ids ∧
    ∀ a b, t.held? a b ≠ none → t'.held? a b ≠ none) Topology.apply t reports
    (fun t' r hr ht' => ⟨(ht'.1.apply_sound r).wellFormed, ht'.2.1.apply (hreports r hr),
      fun a b hab => ht'.1.held?_apply_ne_none (hreports r hr).grows (ht'.2.2 a b hab)⟩)
    ⟨ht, h, fun _ _ hab => hab⟩
  exact hall.2

end Topology

namespace Monitor
variable {m m' : Monitor}

/-- An open monitor that wants costs, and whose queue has room for all the nodes. -/
structure Confined (answer : NodeId → Answer) (localId : NodeId) (ids : Finset NodeId)
    (m : Monitor) : Prop extends Regular (fun id a => a = answer id) localId m where
  isOpen : m.isOpen = true
  costs : m.fetchCosts = true
  within : m.topology.Within answer ids
  under : ∀ id ∈ m.backfill.waiting m.out, id ∈ ids
  mild : ∀ item ∈ m.inbound, ∀ r ∈ item.reports, r.Mild answer ids
  room : ids.card ≤ m.backfill.capacity

/-- There is always room for one more node. -/
theorem Confined.queue_lt (h : m.Confined answer localId ids) (hlocal : localId ∈ ids) :
    m.backfill.queue.length < m.backfill.capacity := by
  have hallowed : ∀ x ∈ m.backfill.waiting m.out, x ∈ ids.erase localId := fun x hx =>
    Finset.mem_erase.2 ⟨h.asked x hx, h.under x hx⟩
  exact (h.orderly.length_queue_le hallowed).trans_lt
    ((Finset.card_erase_lt_of_mem hlocal).trans_le h.room)

theorem confined_start {settings : Settings} (hcosts : settings.fetchCosts = true)
    (hlocal : localId ∈ ids) (hroom : ids.card ≤ settings.fetchQueueCapacity) :
    (start localId settings).Confined answer localId ids where
  toRegular := regular_start _ localId settings
  isOpen := rfl
  costs := hcosts
  within := by
    refine ⟨fun id hid => Topology.contains_root_iff.1 hid ▸ hlocal, fun id _ => ?_⟩
    show ((Topology.root localId).cost? id).join = none
    rw [Topology.cost?, Topology.vertex?_root]
    split <;> rfl
  under := nofun
  mild := nofun
  room := hroom.trans (le_max_left _ _)

theorem Confined.submit (h : m.Confined answer localId ids) {r : Report}
    (hr : r.Mild answer ids) : (m.perform (.submit r)).Confined answer localId ids := by
  have hregular := h.toRegular.perform (a := .submit r) nofun
  have hpasses := Passes.submit h.orderly r
  have hsubmit : m.perform (.submit r) = { m with
      inbound := m.inbound ++ [.submitted m.nextTicket r], nextTicket := m.nextTicket + 1 } :=
    if_pos h.isOpen
  refine ⟨hregular, ?_, hpasses.fetchCosts_eq.trans h.costs, hpasses.topology_eq ▸ h.within,
    fun id hid => h.under id (hpasses.waiting_subset id hid), ?_, hpasses.capacity_eq ▸ h.room⟩
  · rw [hsubmit]
    exact h.isOpen
  · rw [hsubmit]
    intro item hitem r' hr'
    rcases List.mem_append.1 hitem with hitem | hitem
    · exact h.mild item hitem r' hr'
    · rw [List.mem_singleton.1 hitem] at hr'
      exact List.mem_singleton.1 hr' ▸ hr

section Pump
variable (h : m.Confined answer localId ids) {item : Inbound} {rest : List Inbound}
  (hi : m.inbound = item :: rest)
include h hi

theorem Confined.within_pump : m.pump.topology.Within answer ids ∧
    ∀ a b, m.topology.held? a b ≠ none → m.pump.topology.held? a b ≠ none := by
  rw [(pump_eq hi).2.2.1]
  exact h.within.applyAll h.wellFormed (h.mild item (hi ▸ List.mem_cons_self))

theorem Confined.pump : m.pump.Confined answer localId ids := by
  obtain ⟨new, hpumped⟩ := exists_pumped h.orderly hi
  obtain ⟨hwithin, -⟩ := h.within_pump hi
  have hregular : m.pump.Regular (fun id a => a = answer id) localId :=
    h.toRegular.perform (a := .pump) nofun
  refine ⟨hregular, m.isOpen_pump.trans h.isOpen, hpumped.fetchCosts_eq.trans h.costs, hwithin,
    fun x hx => ?_, ?_, hpumped.capacity_eq ▸ h.room⟩
  · rcases (hpumped.mem_waiting x).1 hx with ⟨hx, -⟩ | hx
    · exact h.under x hx
    · exact hwithin.stored x
        (contains_of_mem_candidates hregular.wellFormed (hpumped.sublist.subset hx))
  · rw [hpumped.inbound_eq]
    exact fun item' hitem => h.mild item' (hi ▸ List.mem_cons_of_mem _ hitem)

/-- Whoever is under way stays so, but for the node whose answer is absorbed. -/
theorem Confined.stays_pump {x : NodeId} (hx : x ∈ m.backfill.waiting m.out)
    (hne : item.fetchedId? ≠ some x) : x ∈ m.pump.backfill.waiting m.pump.out := by
  obtain ⟨new, hpumped⟩ := exists_pumped h.orderly hi
  exact (hpumped.mem_waiting x).2 (.inl ⟨hx, hne⟩)

/-- An item that makes a difference leads to a request to every other node that tells no cost. -/
theorem Confined.asks_noCost (hlocal : localId ∈ ids)
    (hd : (m.topology.applyAll item.reports).diff ≠ ∅) {x : NodeId} (hno : TellsNoCost answer x)
    (hx : x ≠ localId) (hstored : m.pump.topology.contains x = true)
    (hne : item.fetchedId? ≠ some x) : x ∈ m.pump.backfill.waiting m.pump.out := by
  obtain ⟨new, hpumped⟩ := exists_pumped h.orderly hi
  have hconfined := h.pump hi
  obtain ⟨c, hc⟩ := Option.ne_none_iff_exists'.1 (Topology.contains_iff_cost?.1 hstored)
  have hcost : m.pump.topology.cost? x = some none := by
    have hunpriced := hconfined.within.unpriced x hno
    rw [hc] at hunpriced ⊢
    exact congrArg some hunpriced
  have hcandidate : x ∈ m.pump.candidates := (mem_candidates hconfined.wellFormed x).2
    ⟨.inr ⟨hconfined.costs, hcost⟩, hconfined.localId_eq.symm ▸ hx⟩
  rcases hpumped.asked hd x hcandidate with hwaits | hnew | hfull
  · exact h.stays_pump hi hwaits hne
  · exact (hpumped.mem_waiting x).2 (.inr hnew)
  · refine absurd (hconfined.queue_lt hlocal) ?_
    rw [hpumped.capacity_eq]
    exact hfull.not_gt

end Pump

/-- Both links are held, and one of the two nodes is under way. -/
structure Spinning (answer : NodeId → Answer) (localId : NodeId) (ids : Finset NodeId)
    (x a y b : NodeId) (m : Monitor) : Prop extends Confined answer localId ids m where
  first : m.topology.held? x a ≠ none
  second : m.topology.held? y b ≠ none
  busy : x ∈ m.backfill.waiting m.out ∨ y ∈ m.backfill.waiting m.out

theorem Spinning.not_quiescent {x a y b : NodeId} (h : m.Spinning answer localId ids x a y b) :
    ¬ m.Quiescent := by
  rintro ⟨hi, hq, hr⟩
  have hnone : m.backfill.waiting m.out = [] := by
    rw [Backfill.waiting, out, hi, hq, hr]
    rfl
  have hbusy := h.busy
  rw [hnone] at hbusy
  exact hbusy.elim List.not_mem_nil List.not_mem_nil

/-- The worker asks for nothing and leaves the topology alone. -/
theorem Confined.passes (h : m.Confined answer localId ids) (hids : Mentions answer ids)
    (hpasses : Passes m m') (hmove : Move answer m m') (hopen : m'.isOpen = true)
    (hqueued : ∀ item ∈ m'.inbound, item ∈ m.inbound ∨ ∃ id list, answer id = .ok list ∧
      item = .fetched ⟨id, list.reports id⟩) : m'.Confined answer localId ids where
  toRegular := h.toRegular.move hmove
  isOpen := hopen
  costs := hpasses.fetchCosts_eq.trans h.costs
  within := hpasses.topology_eq ▸ h.within
  under x hx := h.under x (hpasses.waiting_subset x hx)
  mild item hitem r hr := by
    rcases hqueued item hitem with hitem | ⟨id, list, hlist, rfl⟩
    · exact h.mild item hitem r hr
    · exact hids.mild hlist hr
  room := hpasses.capacity_eq ▸ h.room

/-- The worker loses nobody whose answer is a list. -/
theorem Confined.work (h : m.Confined answer localId ids) (hids : Mentions answer ids)
    (hmove : Move answer m m') (hpump : m' ≠ m.pump) : m'.Confined answer localId ids ∧
      m'.topology = m.topology ∧ ∀ x list, answer x = .ok list → x ∈ m.backfill.waiting m.out →
        x ∈ m'.backfill.waiting m'.out := by
  cases hmove with
  | pump hi => exact absurd rfl hpump
  | issue hr hq =>
    refine ⟨h.passes hids (.issue h.orderly) (.issue hr hq) h.isOpen fun _ => .inl, rfl,
      fun x _ _ hx => ?_⟩
    exact (h.orderly.issue hr hq).2.2.symm ▸ hx
  | @finish id hr =>
    have hpasses := Passes.finish h.orderly (answer id)
    cases hanswer : answer id with
    | ok list =>
      have heq : m.perform (.finish (.ok list)) = { m with
          backfill := m.backfill.finish (.ok list)
          inbound := m.inbound ++ [.fetched ⟨id, list.reports id⟩] } := finish_ok_eq h.isOpen hr list
      rw [hanswer] at hpasses
      refine ⟨h.passes hids hpasses (hanswer ▸ .finish hr) ?_ fun item hitem => ?_,
        hpasses.topology_eq, fun x _ _ hx => (waiting_finish_ok h.isOpen hr list).2.symm ▸ hx⟩
      · rw [heq]
        exact h.isOpen
      · rw [heq] at hitem
        refine (List.mem_append.1 hitem).imp_right fun hitem => ?_
        exact ⟨id, list, hanswer, List.mem_singleton.1 hitem⟩
    | error failure =>
      rw [hanswer] at hpasses
      refine ⟨h.passes hids hpasses (hanswer ▸ .finish hr) h.isOpen fun _ => .inl, rfl,
        fun x list hx hwaits => ?_⟩
      refine ((h.orderly.finish_error hr failure).2 x).2 ⟨hwaits, ?_⟩
      rintro rfl
      cases hanswer.symm.trans hx

section Rivals
variable {x a y b : NodeId} (hlocal : localId ∈ ids) (hne : x ≠ y)
  (hx : Fickle answer localId x a) (hy : Fickle answer localId y b)
include hlocal hne hx hy

/-- Absorbing the answer of one asks for the other. -/
theorem Confined.asks (h : m.Confined answer localId ids) {item : Inbound} {rest : List Inbound}
    (hi : m.inbound = item :: rest) (hitem : item.fetchedId? = some x)
    (hheld : m.topology.held? x a ≠ none) (hstored : m.pump.topology.contains y = true) :
    y ∈ m.pump.backfill.waiting m.pump.out := by
  cases item with
  | external r => cases hitem
  | submitted ticket r => cases hitem
  | fetched d =>
    cases hitem
    obtain ⟨list, hanswer, hreports⟩ := h.arrived d (hi ▸ List.mem_cons_self)
    have hd := Topology.diff_ne_of_wavers h.wellFormed hanswer.symm hx.wavers hheld
    rw [← hreports] at hd
    exact h.asks_noCost hi hlocal hd hy.noCost hy.ne_local hstored
      fun hsame => hne (Option.some.inj hsame)

/-- **Every move keeps both going.** -/
theorem Spinning.move (hids : Mentions answer ids) (h : m.Spinning answer localId ids x a y b)
    (hmove : Move answer m m') : m'.Spinning answer localId ids x a y b := by
  by_cases hpump : m' = m.pump
  · subst hpump
    cases hi : m.inbound with
    | nil =>
      have hsame : m.pump = m := by rw [pump, hi]
      rwa [hsame]
    | cons item rest =>
      have hheld := (h.within_pump hi).2
      have hfirst := hheld x a h.first
      have hsecond := hheld y b h.second
      refine ⟨h.pump hi, hfirst, hsecond, ?_⟩
      by_cases hxitem : item.fetchedId? = some x
      · exact .inr (h.toConfined.asks hlocal hne hx hy hi hxitem h.first
          (Topology.contains_of_held? hsecond))
      · by_cases hyitem : item.fetchedId? = some y
        · exact .inl (h.toConfined.asks hlocal hne.symm hy hx hi hyitem h.second
            (Topology.contains_of_held? hfirst))
        · exact h.busy.imp (h.stays_pump hi · hxitem) (h.stays_pump hi · hyitem)
  · obtain ⟨hconfined, htopology, hkeeps⟩ := h.toConfined.work hids hmove hpump
    obtain ⟨listx, hlistx, -⟩ := hx.noCost
    obtain ⟨listy, hlisty, -⟩ := hy.noCost
    exact ⟨hconfined, htopology ▸ h.first, htopology ▸ h.second,
      h.busy.imp (hkeeps x listx hlistx) (hkeeps y listy hlisty)⟩

/-- So no moves lead to rest. -/
theorem Spinning.moves (hids : Mentions answer ids) (h : m.Spinning answer localId ids x a y b)
    {k : Nat} (hmoves : Moves answer k m m') : ¬ m'.Quiescent := by
  induction hmoves with
  | refl => exact h.not_quiescent
  | step hmove _ ih => exact ih (h.move hlocal hne hx hy hids hmove)

end Rivals

/-! ## How it starts -/

/-- A link is reported and absorbed while nothing else waits. -/
theorem Confined.report (h : m.Confined answer localId ids) (hlocal : localId ∈ ids)
    (hi : m.inbound = []) {x a : NodeId} {c : Cost} (hr : (Report.link x a c).Mild answer ids) :
    let m' := m.run [.submit (.link x a c), .pump]
    m'.Confined answer localId ids ∧ m'.inbound = [] ∧
      m'.topology = (m.topology.reportLink x a c).topology ∧
      (∀ z ∈ m.backfill.waiting m.out, z ∈ m'.backfill.waiting m'.out) ∧
      (m.topology.contains x = false → TellsNoCost answer x → x ≠ localId →
        x ∈ m'.backfill.waiting m'.out) := by
  intro m'
  have hsubmit : m.perform (.submit (.link x a c)) = { m with
      inbound := m.inbound ++ [.submitted m.nextTicket (.link x a c)]
      nextTicket := m.nextTicket + 1 } := if_pos h.isOpen
  have hqueued : (m.perform (.submit (.link x a c))).inbound =
      .submitted m.nextTicket (.link x a c) :: [] := by
    rw [hsubmit, hi]
    rfl
  have hout : (m.perform (.submit (.link x a c))).out = m.out := by
    rw [hsubmit]
    exact out_append _ rfl
  have hsame : (m.perform (.submit (.link x a c))).backfill = m.backfill ∧
      (m.perform (.submit (.link x a c))).topology = m.topology := by
    rw [hsubmit]
    exact ⟨rfl, rfl⟩
  have hsubmitted := h.submit hr
  obtain ⟨-, hnil, htopology, -⟩ := pump_eq hqueued
  rw [hsame.2] at htopology
  refine ⟨hsubmitted.pump hqueued, hnil, htopology, fun z hz => ?_, fun hnew hno hne => ?_⟩
  · refine hsubmitted.stays_pump hqueued ?_ nofun
    rwa [hsame.1, hout]
  have hstored : (m.topology.reportLink x a c).topology.contains x = true := by
    rw [Topology.contains_iff_cost?, Topology.cost?_reportLink, if_pos (.inl rfl)]
    exact Option.some_ne_none _
  have hdiff := Topology.diff_ne_of_new (h.wellFormed.replay_apply (.link x a c)) hnew hstored
  refine hsubmitted.asks_noCost hqueued hlocal ?_ hno hne (htopology ▸ hstored) nofun
  rw [hsame.2]
  exact hdiff

/-- Each of the two links is reported by its node. -/
theorem exists_spinning (hlocal : localId ∈ ids) (hids : Mentions answer ids)
    {x a y b : NodeId} (hx : Fickle answer localId x a) (hy : Fickle answer localId y b)
    (hlink : s(x, a) ≠ s(y, b)) {settings : Settings} (hcosts : settings.fetchCosts = true)
    (hroom : ids.card ≤ settings.fetchQueueCapacity) (c d : Cost) :
    ((start localId settings).run [.submit (.link x a c), .pump, .submit (.link y b d), .pump]
      ).Spinning answer localId ids x a y b := by
  have hmild : ∀ x a c, Fickle answer localId x a → (Report.link x a c).Mild answer ids := by
    intro x a c hx
    obtain ⟨list, k, -, hlist, hk, -⟩ := hx.wavers
    exact ⟨(hids x list hlist).1, (hids x list hlist).2 _ hk⟩
  obtain ⟨hfirst, hnil, htopology, -, hasked⟩ :=
    (confined_start hcosts hlocal hroom).report hlocal rfl (hmild x a c hx)
  obtain ⟨hsecond, -, htopology', hstay, -⟩ := hfirst.report hlocal hnil (hmild y b d hy)
  have hnew : (start localId settings).topology.contains x = false :=
    Bool.eq_false_iff.2 fun h => hx.ne_local (Topology.contains_root_iff.1 h).symm
  have hroot := Topology.wellFormed_root localId
  have hheld := hroot.held?_reportLink x a c
  have hheld' := (hroot.reportLink_growth x a c).wellFormed.held?_reportLink y b d
  have hboth : ((start localId settings).run
      [.submit (.link x a c), .pump, .submit (.link y b d), .pump]).topology =
      (((Topology.root localId).reportLink x a c).topology.reportLink y b d).topology :=
    htopology'.trans (congrArg (fun t => (t.reportLink y b d).topology) htopology)
  have hxa : ((Topology.root localId).reportLink x a c).topology.held? x a = some c :=
    (hheld x a).trans (if_pos ⟨rfl, rfl, hx.ne_self.symm, Topology.held?_root localId a x⟩)
  -- the second link is another one, so nobody holds it yet
  have hby : ((Topology.root localId).reportLink x a c).topology.held? b y = none := by
    rw [hheld, if_neg, Topology.held?_root]
    rintro ⟨rfl, rfl, -⟩
    exact hlink Sym2.eq_swap
  refine ⟨hsecond, ?_, ?_, .inl (hstay x (hasked hnew hx.noCost hx.ne_local))⟩
  · rw [hboth, hheld' x a]
    split
    · exact Option.some_ne_none d
    · rw [hxa]
      exact Option.some_ne_none c
  · rw [hboth, hheld' y b, if_pos ⟨rfl, rfl, hy.ne_self.symm, hby⟩]
    exact Option.some_ne_none d

/-- **Whether backfill comes to rest.**  Suppose that every node always answers in the same way.

After any actions, in whatever order they come, there is a limit to the moves that the monitor makes
by itself, and so to the requests that it issues; where it can make no move, nothing waits and
nothing runs.  The only exception are rivals while costs are wanted: two nodes other than the local
one that tell no cost and that name, each of another link, two different costs.

The exception is real.  If there are rivals, costs are wanted, and the queue has room for all nodes
that answers name, then there are actions after which no moves lead to rest. -/
theorem run_quiesces (answer : NodeId → Answer) (localId : NodeId) :
    (∀ (settings : Settings) (actions : List Action),
      (settings.fetchCosts = true → ¬ Rivals answer localId) →
      (start localId settings).Answers (fun id a => a = answer id) actions →
      let m := (start localId settings).run actions
      ∃ limit, ∀ k m', Moves answer k m m' →
        k ≤ limit ∧ m'.backfill.issued ≤ m.backfill.issued + limit ∧
          (m'.Quiescent ∨ ∃ m'', Move answer m' m'')) ∧
    (Rivals answer localId → ∀ (settings : Settings) (ids : Finset NodeId),
      settings.fetchCosts = true → localId ∈ ids → Mentions answer ids →
      ids.card ≤ settings.fetchQueueCapacity →
      ∃ actions, (start localId settings).Answers (fun id a => a = answer id) actions ∧
        ∀ k m', Moves answer k ((start localId settings).run actions) m' → ¬ m'.Quiescent) := by
  constructor
  · intro settings actions hno hactions m
    have h : m.Regular (fun id a => a = answer id) localId :=
      (regular_start _ localId settings).run hactions
    have hcosts : m.fetchCosts = settings.fetchCosts :=
      (regular_start _ localId settings).fetchCosts_run hactions
    obtain ⟨limit, hlimit⟩ := h.exists_limit (hcosts ▸ hno)
    refine ⟨limit, fun k m' hmoves => ?_⟩
    have hk := hlimit k m' hmoves
    refine ⟨hk, (h.issued_moves hmoves).trans (Nat.add_le_add_left hk _), ?_⟩
    rw [quiescent_iff, ← not_exists]
    exact (em _).symm
  · rintro ⟨x, a, y, b, hx, hy, hne, hlink⟩ settings ids hcosts hlocal hids hroom
    refine ⟨[.submit (.link x a ⟨0⟩), .pump, .submit (.link y b ⟨0⟩), .pump],
      ⟨nofun, nofun, nofun, nofun, trivial⟩, fun k m' hmoves => ?_⟩
    exact (exists_spinning hlocal hids hx hy hlink hcosts hroom ⟨0⟩ ⟨0⟩).moves hlocal hne hx hy hids
      hmoves

/-- Two nodes name the local one with two costs each and tell none of their own. -/
theorem run_never_quiescent :
    let answer : NodeId → Answer := fun id =>
      if id = ⟨1⟩ ∨ id = ⟨2⟩ then .ok ⟨none, [(⟨0⟩, ⟨1⟩), (⟨0⟩, ⟨2⟩)]⟩
      else .error (.unreachable id)
    let actions : List Action :=
      [.submit (.link ⟨1⟩ ⟨0⟩ ⟨1⟩), .pump, .submit (.link ⟨2⟩ ⟨0⟩ ⟨1⟩), .pump]
    Settings.standard.fault? = none ∧
      (start ⟨0⟩ .standard).Answers (fun id a => a = answer id) actions ∧
      ∀ k m', Moves answer k ((start ⟨0⟩ .standard).run actions) m' → ¬ m'.Quiescent := by
  intro answer actions
  have hfickle : ∀ id : NodeId, id = ⟨1⟩ ∨ id = ⟨2⟩ → Fickle answer ⟨0⟩ id ⟨0⟩ := by
    intro id hid
    have hanswer : answer id = .ok ⟨none, [(⟨0⟩, ⟨1⟩), (⟨0⟩, ⟨2⟩)]⟩ := if_pos hid
    have hne : id ≠ ⟨0⟩ := by
      rcases hid with rfl | rfl <;> decide
    exact ⟨hne, hne.symm, ⟨_, hanswer, rfl⟩, _, ⟨1⟩, ⟨2⟩, hanswer, by simp, by simp, by decide⟩
  have hids : Mentions answer {⟨0⟩, ⟨1⟩, ⟨2⟩} := by
    intro id list hlist
    by_cases hid : id = ⟨1⟩ ∨ id = ⟨2⟩
    · cases (if_pos hid).symm.trans hlist
      rcases hid with rfl | rfl <;> decide
    · cases (if_neg hid).symm.trans hlist
  have hone := hfickle ⟨1⟩ (.inl rfl)
  have htwo := hfickle ⟨2⟩ (.inr rfl)
  have hcosts : Settings.standard.fetchCosts = true := rfl
  refine ⟨by decide, ⟨nofun, nofun, nofun, nofun, trivial⟩, fun k m' hmoves => ?_⟩
  exact (exists_spinning (by decide) hids hone htwo (by decide) hcosts (by decide) ⟨1⟩ ⟨1⟩).moves
    (by decide) (by decide) hone htwo hids hmoves

end Monitor
end MeshView
