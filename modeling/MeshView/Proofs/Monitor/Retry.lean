/-
# What was dropped is asked for again

A queue that is full drops requests, and nothing remembers them.  They are made again as soon as an
item makes a difference, so the question is whether one will.  While the mesh does not change, only
the answer of a node without a cost can make none: of any other node that is under way the cost is
still unknown, so its answer makes a difference.  A full queue therefore does no harm if it holds a
node that has a cost, and it does if it has more places than there are nodes without one
(`Retries.pump`).  Either everything that is missing is under way, or something is that will make a
difference; at rest nothing is under way, so nothing is missing (`Retries.complete`).
-/

import MeshView.Proofs.Mesh.Play
import MeshView.Proofs.Monitor.Settling

namespace MeshView

/-- The nodes of the component, other than the local one, that have no cost. -/
def Mesh.costless (m : Mesh) (localId : NodeId) : List NodeId :=
  (m.component localId).keys.filter fun id => id ≠ localId ∧ m.cost? id = none

theorem Mesh.mem_costless {m : Mesh} {localId id : NodeId} :
    id ∈ m.costless localId ↔ id ∈ m.component localId ∧ id ≠ localId ∧ m.cost? id = none := by
  rw [costless, List.mem_filter, IdMap.mem_keys, decide_eq_true_iff]

/-- Among more nodes than that, one has a cost. -/
theorem Mesh.exists_costed {m : Mesh} {localId : NodeId} {ids : List NodeId} (hids : ids.Nodup)
    (hmem : ∀ id ∈ ids, id ∈ m.component localId ∧ id ≠ localId)
    (hlength : (m.costless localId).length < ids.length) : ∃ id ∈ ids, m.cost? id ≠ none := by
  by_contra hno
  have hsub : ids ⊆ m.costless localId := fun id hid =>
    mem_costless.2 ⟨(hmem id hid).1, (hmem id hid).2, by_contra fun hc => hno ⟨id, hid, hc⟩⟩
  exact absurd (hids.subperm hsub).length_le (by omega)

namespace Topology
variable {t : Topology} {g : Mesh} {localId : NodeId} {item : Inbound}

/-- Of the nodes other than the local one nothing is known but what they answered, and they answered
in whole. -/
structure Backfilled (t : Topology) (g : Mesh) (localId : NodeId) : Prop where
  told : ∀ id c, id ≠ localId → t.cost? id = some (some c) → t.isFetched id = true
  covers : ∀ id, id ≠ localId → t.isFetched id = true → t.Covers g id

theorem backfilled_root : (root localId).Backfilled g localId where
  told id c _ hc := by
    rw [cost?, vertex?_root] at hc
    split at hc <;> cases hc
  covers id hne hf := absurd (contains_root_iff.1 (contains_of_isFetched hf)).symm hne

/-- What was not fetched told nothing. -/
theorem Backfilled.unknown (h : t.Backfilled g localId) {id : NodeId} (hne : id ≠ localId)
    (hid : t.contains id = true) (hf : t.isFetched id = false) : t.cost? id = some none := by
  obtain ⟨k, hk⟩ := Option.ne_none_iff_exists'.1 (contains_iff_cost?.1 hid)
  cases k with
  | none => exact hk
  | some c =>
    rw [h.told id c hne hk] at hf
    cases hf

section Expected
variable (h : t.Informed g localId True) (hitem : item.Expected g localId)
  (htrue : ∀ r ∈ item.reports, Truthful g localId r)
include hitem htrue

/-- The cost of a node other than the local one is told by its own answer only. -/
theorem join_cost?_of_expected (t : Topology) {id : NodeId} (hne : id ≠ localId)
    (hother : item.fetchedId? ≠ some id) :
    ((t.applyAll item.reports).topology.cost? id).join = (t.cost? id).join := by
  refine join_cost?_applyAll t (fun r hr => (htrue r hr).grows) fun k hk => ?_
  obtain ⟨x, hx, hk⟩ := hitem.exists_teller hk
  rcases Mesh.mem_localView_iff.1 hk with ⟨k', -, heq⟩ | ⟨b, c, -, heq⟩
  · cases heq
    exact hx.elim hne hother
  · cases heq

include h

/-- What an answer told is known. -/
theorem covers_of_expected (hg : g.WellFormed) {id : NodeId} (hid : item.fetchedId? = some id) :
    (t.applyAll item.reports).topology.Covers g id := fun r hr =>
  (h.faithful.applyAll_advance hg htrue).2 r ((hitem.reports_eq hid).2 ▸ hr)

theorem Backfilled.applyAll (hbackfilled : t.Backfilled g localId) (hg : g.WellFormed) :
    (t.applyAll item.reports).topology.Backfilled g localId := by
  have hgrows : ∀ r ∈ item.reports, r.Grows := fun r hr => (htrue r hr).grows
  have hfaithful := (h.applyAll hg htrue).faithful
  refine ⟨fun id c hne hc => (isFetched_applyAll t hgrows id).2 ?_, fun id hne hf => ?_⟩
  · by_cases hid : item.fetchedId? = some id
    · -- the answer lists the link by which its node can be seen
      have hvisible := hfaithful.visible id (hc ▸ Option.some_ne_none _)
      obtain ⟨b, k, hb⟩ := hvisible.exists_link hg hne
      refine .inr ⟨.link id b k, ?_, rfl⟩
      rw [(hitem.reports_eq hid).2, Mesh.mem_localView_iff]
      exact .inr ⟨b, k, hb, rfl⟩
    · have hjoin := join_cost?_of_expected hitem htrue t hne hid
      rw [hc, Option.join_some] at hjoin
      exact .inl (hbackfilled.told id c hne (Option.join_eq_some_iff.1 hjoin.symm))
  · rcases (isFetched_applyAll t hgrows id).1 hf with hold | ⟨r, hr, hf⟩
    · exact (hbackfilled.covers id hne hold).mono (h.faithful.applyAll_advance hg htrue).1.keeps
    · exact covers_of_expected h hitem htrue hg (hitem.fetchedId?_of_fetches hne hr hf)

end Expected

end Topology

namespace Monitor

/-- The invariant of a monitor that follows an unchanging mesh with every node online, however short
its queue is: if not everything that is missing is under way, a node with a cost is. -/
structure Retries (g : Mesh) (localId : NodeId) (m : Monitor) : Prop where
  informed : m.topology.Informed g localId True
  backfilled : m.topology.Backfilled g localId
  orderly : m.backfill.Orderly m.out
  asked : ∀ id ∈ m.backfill.waiting m.out, id ≠ localId ∧ m.topology.cost? id = some none
  wanted : (∀ id, m.topology.contains id = true → id ≠ localId →
      m.topology.Covers g id ∨ id ∈ m.backfill.waiting m.out) ∨
    ∃ id ∈ m.backfill.waiting m.out, g.cost? id ≠ none
  room : (g.costless localId).length < m.backfill.capacity
  expected : ∀ item ∈ m.inbound, item.Expected g localId
  isOpen : m.isOpen = true

variable {g : Mesh} {localId : NodeId} {m m' : Monitor}

theorem retries_start (g : Mesh) (localId : NodeId) (settings : Settings)
    (hroom : (g.costless localId).length < max settings.fetchQueueCapacity 1) :
    ((start localId settings).perform .subscribe).Retries g localId where
  informed := Topology.informed_root
  backfilled := Topology.backfilled_root
  orderly := Backfill.orderly_idle _
  asked := nofun
  wanted := .inl fun _ hid hne => absurd (Topology.contains_root_iff.1 hid).symm hne
  room := hroom
  expected := nofun
  isOpen := rfl

namespace Retries
variable (h : m.Retries g localId)
include h

theorem visible {id : NodeId} (hid : id ∈ m.backfill.waiting m.out) : g.Visible localId id :=
  h.informed.faithful.visible id ((h.asked id hid).2 ▸ Option.some_ne_none _)

theorem truthful {item : Inbound} (hitem : item ∈ m.inbound) {r : Report} (hr : r ∈ item.reports) :
    Topology.Truthful g localId r :=
  (h.expected item hitem).truthful
    (fun _ hid => h.visible (mem_waiting_of_mem_inbound hitem hid)) hr

theorem hears : m.Hears g localId True :=
  ⟨h.informed, fun _ hitem _ hr => h.truthful hitem hr, h.orderly, h.isOpen⟩

/-- What moves on from one place to the next stays wanted. -/
theorem move (hp : Passes m m') (hsame : m'.backfill.waiting m'.out = m.backfill.waiting m.out)
    (hexpected : ∀ item ∈ m'.inbound, item.Expected g localId) (hopen : m'.isOpen = true) :
    m'.Retries g localId where
  informed := hp.topology_eq ▸ h.informed
  backfilled := hp.topology_eq ▸ h.backfilled
  orderly := hp.orderly
  asked := by
    rw [hsame, hp.topology_eq]
    exact h.asked
  wanted := by
    rw [hsame, hp.topology_eq]
    exact h.wanted
  room := hp.capacity_eq ▸ h.room
  expected := hexpected
  isOpen := hopen

/-- A report of the local node about itself waits to be absorbed, if there is a permit for it. -/
theorem offer {r : Report} (hr : r ∈ g.localView localId) : (m.offer r).Retries g localId := by
  have hp := Passes.offer h.orderly r
  rw [Monitor.offer] at hp ⊢
  split
  · rename_i haccepts
    rw [if_pos haccepts] at hp
    refine h.move hp (congrArg _ (out_append (.external r) rfl)) (fun item hitem => ?_) h.isOpen
    rcases List.mem_append.1 hitem with hitem | hitem
    · exact h.expected item hitem
    · rw [List.mem_singleton.1 hitem]
      exact hr
  · exact h

/-- Every node that is under way is online, so its whole list goes out. -/
theorem hand (hh : Hands g m m') : m'.Retries g localId := by
  refine h.move hh.toPasses hh.waiting_eq (fun item hitem => ?_) hh.isOpen
  rcases hh.arrives item hitem with hitem | ⟨id, hid, rfl⟩
  · exact h.expected item hitem
  · exact ⟨hid, rfl⟩

end Retries

/-- A queue that is longer than there are nodes without a cost holds a node with one. -/
theorem exists_costed_of_length (hg : g.WellFormed) (hlocal : g.contains localId = true)
    (honline : g.AllOnline) (hfaithful : m.topology.Faithful g localId True)
    (horderly : m.backfill.Orderly m.out)
    (hasked : ∀ id ∈ m.backfill.waiting m.out, id ≠ localId ∧ m.topology.cost? id = some none)
    (hlength : (g.costless localId).length < m.backfill.queue.length) :
    ∃ id ∈ m.backfill.waiting m.out, g.cost? id ≠ none := by
  have hsub : m.backfill.queue.Sublist (m.backfill.waiting m.out) :=
    (List.sublist_append_right _ _).trans (List.sublist_append_right _ _)
  have hreached : ∀ id ∈ m.backfill.queue, id ∈ g.component localId ∧ id ≠ localId := by
    intro id hid
    obtain ⟨hne, hnone⟩ := hasked id (hsub.subset hid)
    exact ⟨(hg.visible_iff_mem_component hlocal honline id).1
      (hfaithful.visible id (hnone ▸ Option.some_ne_none _)), hne⟩
  obtain ⟨id, hid, hc⟩ := Mesh.exists_costed (horderly.nodup.sublist hsub) hreached hlength
  exact ⟨id, hsub.subset hid, hc⟩

section Pump
variable (hg : g.WellFormed) (h : m.Retries g localId) {item : Inbound} {rest : List Inbound}
  {new : List NodeId} (hi : m.inbound = item :: rest) (hpumped : Pumped m item rest new m.pump)
include hg h hi hpumped

/-- What is under way after an item was absorbed is stored without its cost. -/
theorem Retries.asked_pump : ∀ id ∈ m.pump.backfill.waiting m.pump.out,
    id ≠ localId ∧ m.pump.topology.cost? id = some none := by
  have hitem : item ∈ m.inbound := hi ▸ List.mem_cons_self
  have htrue : ∀ r ∈ item.reports, Topology.Truthful g localId r := fun _ => h.truthful hitem
  have hgrows : ∀ r ∈ item.reports, r.Grows := fun r hr => (htrue r hr).grows
  have hinformed := h.informed.applyAll hg htrue
  have hbackfilled := h.backfilled.applyAll h.informed (h.expected item hitem) htrue hg
  intro id hid
  rw [hpumped.topology_eq]
  rcases (hpumped.mem_waiting id).1 hid with ⟨hid, hother⟩ | hid
  · obtain ⟨hne, hnone⟩ := h.asked id hid
    have hstays := h.informed.faithful.wellFormed.contains_applyAll hgrows
      (Topology.contains_iff_cost?.2 (hnone ▸ Option.some_ne_none _))
    have hjoin := Topology.join_cost?_of_expected (h.expected item hitem) htrue m.topology hne hother
    rw [hnone, Option.join_some] at hjoin
    exact ⟨hne, Topology.cost?_eq_some_none hstays hjoin⟩
  · have hcandidate := hpumped.sublist.subset hid
    rw [mem_candidates (hpumped.topology_eq.symm ▸ hinformed.faithful.wellFormed),
      hpumped.topology_eq, hinformed.localId_eq] at hcandidate
    obtain ⟨⟨hstored, hunfetched⟩ | ⟨-, hnone⟩, hne⟩ := hcandidate
    · exact ⟨hne, hbackfilled.unknown hne hstored hunfetched⟩
    · exact ⟨hne, hnone⟩

/-- An item that makes no difference leaves everything as wanted as it was: a node that has a cost
would have told it. -/
theorem Retries.wanted_of_quiet (hd : (m.topology.applyAll item.reports).diff = ∅) :
    (∀ id, m.pump.topology.contains id = true → id ≠ localId →
        m.pump.topology.Covers g id ∨ id ∈ m.pump.backfill.waiting m.pump.out) ∨
      ∃ id ∈ m.pump.backfill.waiting m.pump.out, g.cost? id ≠ none := by
  have hitem : item ∈ m.inbound := hi ▸ List.mem_cons_self
  have htrue : ∀ r ∈ item.reports, Topology.Truthful g localId r := fun _ => h.truthful hitem
  have hgrows : ∀ r ∈ item.reports, r.Grows := fun r hr => (htrue r hr).grows
  have hcovers : ∀ id, item.fetchedId? = some id →
      (m.topology.applyAll item.reports).topology.Covers g id := fun _ =>
    Topology.covers_of_expected h.informed (h.expected item hitem) htrue hg
  have hkeeps := (h.informed.faithful.applyAll_advance hg htrue).1.keeps
  have hcost : ∀ id, (m.topology.applyAll item.reports).topology.cost? id = m.topology.cost? id := by
    have hreplay := (h.informed.faithful.wellFormed.applyAll_accrual hgrows).replay_eq
    rw [hd] at hreplay
    exact fun id => (congrFun (congrArg View.nodes hreplay) id).symm
  rw [hpumped.topology_eq]
  simp only [hpumped.mem_waiting]
  refine h.wanted.imp (fun hw id hid hne => ?_) fun ⟨id, hid, hc⟩ => ?_
  · have hold : m.topology.contains id = true :=
      Topology.contains_iff_cost?.2 (hcost id ▸ Topology.contains_iff_cost?.1 hid)
    by_cases hanswer : item.fetchedId? = some id
    · exact .inl (hcovers id hanswer)
    · exact (hw id hold hne).imp (.mono hkeeps) fun hwaits => .inl ⟨hwaits, hanswer⟩
  · refine ⟨id, .inl ⟨hid, fun hanswer => ?_⟩, hc⟩
    obtain ⟨k, hk⟩ := Option.ne_none_iff_exists'.1 hc
    obtain ⟨c, hknown⟩ := (hcovers id hanswer).cost? hk
    rw [hcost, (h.asked id hid).2] at hknown
    cases hknown

/-- With room for it, an item that makes a difference leads to a request for all that is missing. -/
theorem Retries.wanted_of_room (hd : (m.topology.applyAll item.reports).diff ≠ ∅)
    (hroom : m.pump.backfill.queue.length < m.backfill.capacity) (id : NodeId)
    (hid : m.pump.topology.contains id = true) (hne : id ≠ localId) :
    m.pump.topology.Covers g id ∨ id ∈ m.pump.backfill.waiting m.pump.out := by
  have hitem : item ∈ m.inbound := hi ▸ List.mem_cons_self
  have htrue : ∀ r ∈ item.reports, Topology.Truthful g localId r := fun _ => h.truthful hitem
  have hinformed := h.informed.applyAll hg htrue
  have hbackfilled := h.backfilled.applyAll h.informed (h.expected item hitem) htrue hg
  rw [← hpumped.topology_eq] at hinformed hbackfilled
  by_cases hf : m.pump.topology.isFetched id = true
  · exact .inl (hbackfilled.covers id hne hf)
  · have hcandidate : id ∈ m.pump.candidates := by
      rw [mem_candidates hinformed.faithful.wellFormed, hinformed.localId_eq]
      exact ⟨.inl ⟨hid, Bool.eq_false_iff.2 hf⟩, hne⟩
    rcases hpumped.asked hd id hcandidate with hwaits | hnew | hfull
    · by_cases hanswer : item.fetchedId? = some id
      · rw [hpumped.topology_eq]
        exact .inl (Topology.covers_of_expected h.informed (h.expected item hitem) htrue hg hanswer)
      · exact .inr ((hpumped.mem_waiting id).2 (.inl ⟨hwaits, hanswer⟩))
    · exact .inr ((hpumped.mem_waiting id).2 (.inr hnew))
    · omega

end Pump

/-- **Absorbing an item keeps the invariant.** -/
theorem Retries.pump (hg : g.WellFormed) (hlocal : g.contains localId = true)
    (honline : g.AllOnline) (h : m.Retries g localId) {item : Inbound} {rest : List Inbound}
    (hi : m.inbound = item :: rest) : m.pump.Retries g localId := by
  have hitem : item ∈ m.inbound := hi ▸ List.mem_cons_self
  have htrue : ∀ r ∈ item.reports, Topology.Truthful g localId r := fun _ => h.truthful hitem
  obtain ⟨new, hpumped⟩ := exists_pumped h.orderly hi
  have hasked := h.asked_pump hg hi hpumped
  have hinformed : m.pump.topology.Informed g localId True :=
    hpumped.topology_eq ▸ h.informed.applyAll hg htrue
  refine ⟨hinformed, ?_, hpumped.orderly, hasked, ?_, hpumped.capacity_eq ▸ h.room, ?_, ?_⟩
  · rw [hpumped.topology_eq]
    exact h.backfilled.applyAll h.informed (h.expected item hitem) htrue hg
  · by_cases hd : (m.topology.applyAll item.reports).diff = ∅
    · exact h.wanted_of_quiet hg hi hpumped hd
    · by_cases hroom : m.pump.backfill.queue.length < m.backfill.capacity
      · exact .inl (h.wanted_of_room hg hi hpumped hd hroom)
      · have hfull := h.room.trans_le (Nat.le_of_not_lt hroom)
        exact .inr (exists_costed_of_length hg hlocal honline hinformed.faithful hpumped.orderly
          hasked hfull)
  · rw [hpumped.inbound_eq]
    exact fun item' hitem' => h.expected item' (hi ▸ List.mem_cons_of_mem _ hitem')
  · exact m.isOpen_pump.trans h.isOpen

/-- **A monitor with room for one node more than have no cost settles.** -/
theorem receptive_retries (hg : g.WellFormed) (hlocal : g.contains localId = true)
    (honline : g.AllOnline) : Receptive g localId True fun m => m.Retries g localId where
  hears _ h := h.hears
  move m m' h hmove := by
    have hanswers : ∀ id ∈ m.backfill.waiting m.out, g.isOnline id = true := fun id hid =>
      honline id ((h.visible hid).contains hg hlocal)
    rcases move_cases h.orderly h.isOpen hanswers hmove with ⟨item, rest, hi, rfl⟩ | hhands
    · exact h.pump hg hlocal honline hi
    · exact h.hand hhands
  offer _ _ h hr := h.offer hr

/-- **At rest nothing is missing**, if the local node has told everything about itself. -/
theorem Retries.complete (h : m.Retries g localId) (hrest : m.Quiescent)
    (hown : m.topology.Covers g localId) : m.topology.Complete g localId True where
  faithful := h.informed.faithful
  stored := h.informed.stored
  covers id hid _ := by
    obtain ⟨hnil, hqueue, hrunning⟩ := hrest
    have hnone : m.backfill.waiting m.out = [] := by
      rw [Backfill.waiting, out, hnil, hqueue, hrunning]
      rfl
    have hwanted := h.wanted
    rw [hnone] at hwanted
    by_cases he : id = localId
    · exact he ▸ hown
    · rcases hwanted with hall | ⟨x, hx, -⟩
      · exact (hall id hid he).resolve_right List.not_mem_nil
      · cases hx

end Monitor
end MeshView
