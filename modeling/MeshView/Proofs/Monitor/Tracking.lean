/-
# A monitor that follows an unchanging mesh

While the mesh does not change, everything that reaches a monitor is true: the local node's own
reports and the answers of online nodes.  `Tracks` is the invariant.  The topology is faithful;
whatever is under way is stored and not the local node; and every other stored node that is online
is covered or under way.  Absorbing an item keeps it (`Tracks.pump`): only an item that changes
something asks for more, and it then asks for all that is missing.
-/

import MeshView.Monitor.Settle
import MeshView.Proofs.Mesh.Knowledge
import MeshView.Proofs.Monitor.Actions

namespace MeshView

/-- The item is what an unchanging mesh sends: a report of the local node about itself, or the
whole answer of a node that is online. -/
def Inbound.Expected (g : Mesh) (localId : NodeId) : Inbound → Prop
  | .external r => r ∈ g.localView localId
  | .submitted _ _ => False
  | .fetched d => g.isOnline d.id = true ∧ d.reports = g.localView d.id

namespace Inbound.Expected
variable {g : Mesh} {localId : NodeId} {item : Inbound} (h : item.Expected g localId)
include h

/-- A fetched list is the whole answer of its node. -/
theorem reports_eq {id : NodeId} (hid : item.fetchedId? = some id) :
    g.isOnline id = true ∧ item.reports = g.localView id := by
  cases item with
  | external r => cases hid
  | submitted ticket r => cases hid
  | fetched d =>
    cases hid
    exact h

/-- Whatever is reported, a node tells about itself: the local one, or the one that answers. -/
theorem exists_teller {r : Report} (hr : r ∈ item.reports) :
    ∃ id, (id = localId ∨ item.fetchedId? = some id) ∧ r ∈ g.localView id := by
  cases item with
  | external r' => exact ⟨localId, .inl rfl, List.mem_singleton.1 hr ▸ h⟩
  | submitted ticket r' => exact h.elim
  | fetched d => exact ⟨d.id, .inr rfl, h.2 ▸ hr⟩

/-- If the node that answers can be seen, what it tells is true. -/
theorem truthful (hvisible : ∀ id, item.fetchedId? = some id → g.Visible localId id) {r : Report}
    (hr : r ∈ item.reports) : Topology.Truthful g localId r := by
  obtain ⟨id, rfl | hid, hr⟩ := h.exists_teller hr
  · exact ⟨id, ⟨.root, .inl rfl⟩, hr⟩
  · exact ⟨id, ⟨hvisible id hid, .inr (h.reports_eq hid).1⟩, hr⟩

/-- Only the answer of a node other than the local one makes it count as fetched. -/
theorem fetchedId?_of_fetches {id : NodeId} (hne : id ≠ localId) {r : Report}
    (hr : r ∈ item.reports) (hf : r.Fetches id) : item.fetchedId? = some id := by
  obtain ⟨x, hx, hr⟩ := h.exists_teller hr
  obtain rfl := Topology.eq_of_fetches hr hf
  exact hx.resolve_left hne

end Inbound.Expected

namespace Monitor

/-- What is under way is in order and belongs there; `hand` is the answer that is being absorbed, if
any. -/
structure InOrder (g : Mesh) (localId : NodeId) (strict : Prop) (hand : List NodeId)
    (m : Monitor) : Prop where
  informed : m.topology.Informed g localId strict
  orderly : m.backfill.Orderly (hand ++ m.out)
  asked : ∀ id ∈ m.backfill.waiting (hand ++ m.out),
    m.topology.contains id = true ∧ id ≠ localId
  room : g.size ≤ m.backfill.capacity
  dropped : m.backfill.dropped = 0
  expected : ∀ item ∈ m.inbound, item.Expected g localId
  isOpen : m.isOpen = true

/-- The invariant of a monitor that follows an unchanging mesh: what is not covered is under way. -/
structure Tracks (g : Mesh) (localId : NodeId) (strict : Prop) (hand : List NodeId)
    (m : Monitor) : Prop extends InOrder g localId strict hand m where
  wanted : ∀ id, m.topology.contains id = true → id ≠ localId → g.isOnline id = true →
    m.topology.Covers g id ∨ id ∈ m.backfill.waiting (hand ++ m.out)

section Step
variable {g : Mesh} {localId : NodeId} {strict : Prop} {hand : List NodeId} {m : Monitor}

/-- Moving identities from one place to another keeps the invariant, and so does giving up one whose
node does not answer or is covered. -/
theorem Tracks.move (h : m.Tracks g localId strict hand) {hand' : List NodeId} {m' : Monitor}
    (ht : m'.topology = m.topology) (horderly : m'.backfill.Orderly (hand' ++ m'.out))
    (hsub : ∀ id ∈ m'.backfill.waiting (hand' ++ m'.out), id ∈ m.backfill.waiting (hand ++ m.out))
    (hstay : ∀ id ∈ m.backfill.waiting (hand ++ m.out), g.isOnline id = true →
      ¬ m.topology.Covers g id → id ∈ m'.backfill.waiting (hand' ++ m'.out))
    (hcapacity : m'.backfill.capacity = m.backfill.capacity)
    (hdropped : m'.backfill.dropped = m.backfill.dropped)
    (hexpected : ∀ item ∈ m'.inbound, item.Expected g localId) (hopen : m'.isOpen = true) :
    m'.Tracks g localId strict hand' where
  informed := ht ▸ h.informed
  orderly := horderly
  asked id hid := ht ▸ h.asked id (hsub id hid)
  wanted id hid hne ho := by
    rw [ht] at hid ⊢
    by_cases hcovers : m.topology.Covers g id
    · exact .inl hcovers
    · exact .inr (hstay id ((h.wanted id hid hne ho).resolve_left hcovers) ho hcovers)
  room := hcapacity ▸ h.room
  dropped := hdropped.trans h.dropped
  expected := hexpected
  isOpen := hopen

/-! ## Absorbing -/

/-- Asking for all that is missing.  There is room for it, since only nodes of the mesh other than
the local one are asked for, each once. -/
theorem InOrder.requestMissing (hg : g.WellFormed) (hlocal : g.contains localId = true)
    (h : m.InOrder g localId strict hand)
    (hwanted : ∀ id, m.topology.contains id = true → id ≠ localId → g.isOnline id = true →
      m.topology.Covers g id ∨ id ∈ m.backfill.waiting (hand ++ m.out) ∨ id ∈ m.candidates) :
    m.requestMissing.Tracks g localId strict hand := by
  have hwf := h.informed.faithful.wellFormed
  have hask : ∀ id ∈ m.candidates, m.topology.contains id = true ∧ id ≠ localId := fun id hid =>
    ⟨contains_of_mem_candidates hwf hid, h.informed.localId_eq ▸ ((mem_candidates hwf id).1 hid).2⟩
  have hallowed : ∀ id, m.topology.contains id = true ∧ id ≠ localId →
      id ∈ g.ids.toFinset.erase localId := fun id hid => Mesh.mem_others.2
    ⟨hid.2, (h.informed.faithful.visible id (Topology.contains_iff_cost?.1 hid.1)).contains hg hlocal⟩
  have hroom : (g.ids.toFinset.erase localId).card < m.backfill.capacity :=
    (Mesh.card_others_lt hlocal).trans_le h.room
  have hrequested := h.orderly.requestAll hroom (fun id hid => hallowed id (h.asked id hid))
    fun id hid => hallowed id (hask id hid)
  have hmem := hrequested.mem_waiting
  refine ⟨⟨h.informed, hrequested.orderly, fun id hid => ?_,
    hrequested.capacity_eq.symm ▸ h.room, hrequested.dropped_eq.trans h.dropped, h.expected,
    h.isOpen⟩, fun id hid hne ho => ?_⟩
  · exact ((hmem id).1 hid).elim (h.asked id) (hask id)
  · exact (hwanted id hid hne ho).imp_right (hmem id).2

/-- Taking over a topology, and asking for what is missing if there are differences. -/
theorem InOrder.absorb (hg : g.WellFormed) (hlocal : g.contains localId = true) {c : Change}
    (h : { m with topology := c.topology }.InOrder g localId strict hand)
    (hwanted : ∀ id, c.topology.contains id = true → id ≠ localId → g.isOnline id = true →
      c.topology.Covers g id ∨ id ∈ m.backfill.waiting (hand ++ m.out) ∨
        c.diff ≠ ∅ ∧ id ∈ { m with topology := c.topology }.candidates) :
    (m.absorb c).Tracks g localId strict hand := by
  by_cases hd : c.diff = ∅
  · have heq : m.absorb c = { m with topology := c.topology } := if_pos (Diff.isEmpty_iff.2 hd)
    rw [heq]
    refine ⟨h, fun id hid hne ho => ?_⟩
    exact (hwanted id hid hne ho).imp_right fun hor => hor.resolve_right fun hboth => hboth.1 hd
  · have heq : m.absorb c = ({ m with topology := c.topology }.publish c.diff).requestMissing :=
      if_neg fun hempty => hd (Diff.isEmpty_iff.1 hempty)
    have hpublished : ({ m with topology := c.topology }.publish c.diff).InOrder g localId strict
        hand := ⟨h.informed, h.orderly, h.asked, h.room, h.dropped, h.expected, h.isOpen⟩
    rw [heq]
    exact hpublished.requestMissing hg hlocal fun id hid hne ho =>
      (hwanted id hid hne ho).imp_right fun hor => hor.imp_right And.right

/-- Absorbing true reports keeps the invariant. -/
theorem Tracks.absorb (hg : g.WellFormed) (hlocal : g.contains localId = true)
    (h : m.Tracks g localId strict hand) {reports : List Report}
    (htrue : ∀ r ∈ reports, Topology.Truthful g localId r)
    (hwhole : ∀ id, id ≠ localId → (∃ r ∈ reports, r.Fetches id) → reports = g.localView id) :
    (m.absorb (m.topology.applyAll reports)).Tracks g localId strict hand := by
  let c := m.topology.applyAll reports
  have hc : c.topology.Informed g localId strict := h.informed.applyAll hg htrue
  have hgrows : ∀ r ∈ reports, r.Grows := fun r hr => (htrue r hr).grows
  obtain ⟨hadvance, hfacts⟩ := h.informed.faithful.applyAll_advance hg htrue
  have horder : { m with topology := c.topology }.InOrder g localId strict hand :=
    ⟨hc, h.orderly, fun id hid => ⟨hadvance.contains (h.asked id hid).1, (h.asked id hid).2⟩,
      h.room, h.dropped, h.expected, h.isOpen⟩
  -- a node that is stored just now was fetched in whole or not at all
  have hnew : ∀ id, c.topology.contains id = true → id ≠ localId →
      m.topology.contains id = false → c.topology.Covers g id ∨
        c.diff ≠ ∅ ∧ id ∈ { m with topology := c.topology }.candidates := by
    intro id hid hne hold
    by_cases hf : c.topology.isFetched id = true
    · rcases (Topology.isFetched_applyAll m.topology hgrows id).1 hf with hbefore | hreported
      · rw [Topology.contains_of_isFetched hbefore] at hold
        cases hold
      · exact .inl fun r hr f hff => hfacts r (hwhole id hne hreported ▸ hr) f hff
    · have hreplay := (h.informed.faithful.wellFormed.applyAll_accrual hgrows).replay_eq
      exact .inr ⟨Topology.diff_ne_of_new hreplay hold hid,
        (mem_candidates hc.faithful.wellFormed id).2
          ⟨.inl ⟨hid, by simpa using hf⟩, hc.localId_eq.symm ▸ hne⟩⟩
  refine horder.absorb hg hlocal fun id hid hne ho => ?_
  cases hold : m.topology.contains id with
  | true => exact (h.wanted id hold hne ho).imp (.mono hadvance.keeps) .inl
  | false => exact (hnew id hid hne hold).imp_right .inr

/-- An answer that was absorbed is released; its node is covered by then. -/
theorem Tracks.release {id : NodeId} (h : m.Tracks g localId strict [id])
    (hcovers : m.topology.Covers g id) :
    { m with backfill := m.backfill.release id }.Tracks g localId strict [] := by
  have hinhand : m.backfill.Orderly (id :: m.out) := h.orderly
  obtain ⟨horderly, hmem⟩ := Backfill.Orderly.release [] m.out hinhand
  refine h.move rfl horderly (fun x hx => ((hmem x).1 hx).1) (fun x hx _ hopen => ?_) rfl rfl
    h.expected h.isOpen
  exact (hmem x).2 ⟨hx, fun he => hopen (he ▸ hcovers)⟩

/-- What is absorbed is true, and nobody but the local node reports itself in parts. -/
theorem Tracks.item_reports (h : m.Tracks g localId strict []) {item : Inbound}
    (hitem : item ∈ m.inbound) : (∀ r ∈ item.reports, Topology.Truthful g localId r) ∧
      ∀ id, id ≠ localId → (∃ r ∈ item.reports, r.Fetches id) → item.reports = g.localView id := by
  have hexpected := h.expected item hitem
  refine ⟨fun r hr => hexpected.truthful (fun id hid => ?_) hr, fun id hne ⟨r, hr, hf⟩ => ?_⟩
  · have hstored := (h.asked id (mem_waiting_of_mem_inbound hitem hid)).1
    exact h.informed.faithful.visible id (Topology.contains_iff_cost?.1 hstored)
  · exact (hexpected.reports_eq (hexpected.fetchedId?_of_fetches hne hr hf)).2

/-- The next item is taken in hand. -/
theorem Tracks.take (h : m.Tracks g localId strict []) {item : Inbound} {rest : List Inbound}
    (hi : m.inbound = item :: rest) :
    { m with inbound := rest }.Tracks g localId strict item.fetchedId?.toList := by
  have hout : item.fetchedId?.toList ++ rest.filterMap Inbound.fetchedId? = [] ++ m.out :=
    (out_eq hi).symm
  have hsame : m.backfill.waiting (item.fetchedId?.toList ++ rest.filterMap Inbound.fetchedId?) =
      m.backfill.waiting ([] ++ m.out) := by rw [hout]
  refine h.move rfl ?_ (fun id hid => hsame ▸ hid) (fun id hid _ _ => hsame.symm ▸ hid) rfl rfl
    (fun item' hitem => h.expected item' (hi ▸ List.mem_cons_of_mem _ hitem)) h.isOpen
  exact hout.symm ▸ h.orderly

theorem Tracks.withPermits (h : m.Tracks g localId strict hand) (permits : Nat) :
    { m with permits := permits }.Tracks g localId strict hand :=
  ⟨⟨h.informed, h.orderly, h.asked, h.room, h.dropped, h.expected, h.isOpen⟩, h.wanted⟩

/-- What follows once an item has been absorbed. -/
theorem Tracks.conclude {item : Inbound} (h : m.Tracks g localId strict item.fetchedId?.toList)
    (hitem : item.Expected g localId)
    (hcovers : ∀ id, item.reports = g.localView id → m.topology.Covers g id) (d : Diff) :
    (m.conclude item d).Tracks g localId strict [] := by
  cases item with
  | external r => exact h.withPermits _
  | submitted ticket r => exact hitem.elim
  | fetched delivery => exact Tracks.release h (hcovers _ hitem.2)

/-- **Absorbing an item keeps the invariant.** -/
theorem Tracks.pump (hg : g.WellFormed) (hlocal : g.contains localId = true)
    (h : m.Tracks g localId strict []) {item : Inbound} {rest : List Inbound}
    (hi : m.inbound = item :: rest) : m.pump.Tracks g localId strict [] := by
  have hitem : item ∈ m.inbound := hi ▸ List.mem_cons_self
  obtain ⟨htrue, hwhole⟩ := h.item_reports hitem
  obtain ⟨-, hfacts⟩ := h.informed.faithful.applyAll_advance hg htrue
  have hafter := (h.take hi).absorb hg hlocal htrue hwhole
  obtain ⟨habsorbed, -⟩ := absorb_eq { m with inbound := rest } (m.topology.applyAll item.reports)
  rw [(pump_eq hi).1]
  refine hafter.conclude (h.expected item hitem) (fun id hview r hr f hf => ?_) _
  rw [habsorbed]
  exact hfacts r (hview ▸ hr) f hf

end Step

end Monitor
end MeshView
