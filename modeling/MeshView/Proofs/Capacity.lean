/-
# The length of the queue does not matter, if it is long enough

Two monitors announce the same node of the same mesh, with queues of different lengths.  If each
queue has more places than the component has nodes without a cost, both end with the same view
(`announce_same_view`), whatever was dropped on the way: an item that makes a difference makes the
monitor ask again for all that it still lacks.  With a shorter queue this may be in vain.  If the
queue is filled by nodes without a cost, their answers may make no difference, and then what was
dropped is never asked for again (`announce_views_differ`).
-/

import MeshView.Proofs.Fleet
import MeshView.Proofs.Monitor.Retry

namespace MeshView
namespace Fleet

/-- **The view does not depend on the length of the queue.**  All nodes of a mesh are online, and one of
them announces itself report by report to a monitor whose queue has more places than the component
has nodes without a cost, the announcing one not counted.  After every report the monitor absorbs, asks
and gets its answers in any order until it rests; a fleet that settles is one way to do so, and there is
a limit to the moves that it takes.  Two such monitors end with the same view, which is the component
with all its links and costs.  What is dropped on the way is asked for again: if an item makes a
difference, then whatever is still missing was under way when the item was absorbed, or it is under way
afterwards, unless the queue is full then. -/
theorem announce_same_view (edits : List Mesh.Edit) (localId : NodeId)
    (settings settings' : Settings) (name : String) (latency rounds : Nat)
    (hlocal : (Mesh.build edits).contains localId = true) (honline : (Mesh.build edits).AllOnline)
    (hroom : ((Mesh.build edits).costless localId).length < max settings.fetchQueueCapacity 1)
    (hroom' : ((Mesh.build edits).costless localId).length < max settings'.fetchQueueCapacity 1)
    (hrounds : (Mesh.build edits).extent < rounds) :
    let g := Mesh.build edits
    let f := (within rounds g latency).start name localId settings
    let f' := (within rounds g latency).start name localId settings'
    let m₀ := (Monitor.start localId settings).perform .subscribe
    let m₀' := (Monitor.start localId settings').perform .subscribe
    (∀ sent, sent <+: g.localView localId →
      (f.emitAll sent).Reached name m₀ (g.telling sent) ∧
      (f'.emitAll sent).Reached name m₀' (g.telling sent) ∧
      ∀ m m', m₀.Course (g.telling sent) m → m₀'.Course (g.telling sent) m' →
        m.Quiescent ∧ m'.Quiescent ∧
        ∀ r, Monitor.Settles g.answer (m.offer r) ∧ Monitor.Settles g.answer (m'.offer r)) ∧
    (∀ m m', m₀.Course (g.telling (g.localView localId)) m →
      m₀'.Course (g.telling (g.localView localId)) m' →
      m.topology.view = m'.topology.view ∧
      (∀ id, m.topology.contains id = true ↔ id ∈ g.component localId) ∧
      ∀ id ∈ g.component localId, m.topology.cost? id = some (g.cost? id) ∧
        ∀ b c, (b, c) ∈ m.topology.links id ↔ (b, c) ∈ g.neighbors id) ∧
    ∀ (actions : List Monitor.Action) (item : Inbound) (rest : List Inbound),
      let m := (Monitor.start localId settings).run actions
      m.inbound = item :: rest → (m.topology.applyAll item.reports).diff ≠ ∅ →
      ∀ id ∈ m.pump.candidates, m.backfill.isPending id = true ∨
        m.pump.backfill.isPending id = true ∨ m.backfill.capacity ≤ m.pump.backfill.queue.length := by
  intro g f f' m₀ m₀'
  have hg : g.WellFormed := Mesh.wellFormed_build edits
  have hreceptive := Monitor.receptive_retries hg hlocal honline
  have hstart := Monitor.retries_start g localId settings hroom
  have hstart' := Monitor.retries_start g localId settings' hroom'
  have hfleet : ∀ settings, ((Monitor.start localId settings).perform .subscribe).Retries g localId →
      ∀ sent, sent <+: g.localView localId →
        (((within rounds g latency).start name localId settings).emitAll sent).Reached name
          ((Monitor.start localId settings).perform .subscribe) (g.telling sent) := by
    intro settings hinv sent hs
    have hkeeping := keeping_start (fun m => m.Retries g localId) g localId name settings hinv
      rounds latency
    obtain ⟨m, h, hcourse⟩ := hkeeping.emitAll hg hlocal hreceptive hrounds fun r hr => hs.subset hr
    exact ⟨m, h.members_eq, hcourse⟩
  refine ⟨fun sent hs => ⟨hfleet settings hstart sent hs, hfleet settings' hstart' sent hs,
    fun m m' hcourse hcourse' => ?_⟩, fun m m' hcourse hcourse' => ?_, ?_⟩
  · exact ⟨hcourse.quiescent ⟨rfl, rfl, rfl⟩, hcourse'.quiescent ⟨rfl, rfl, rfl⟩, fun r =>
      ⟨hcourse.settles (g, some r), hcourse'.settles (g, some r)⟩⟩
  · have hslot : ∀ settings, 0 < ((Monitor.start localId settings).perform .subscribe).slots :=
      fun settings => Nat.lt_of_lt_of_le Nat.one_pos (Nat.le_max_right settings.notificationBuffer 1)
    obtain ⟨h, hlearns⟩ := hreceptive.course hg hstart ⟨rfl, rfl, rfl⟩ (hslot settings)
      (fun r hr => hr) hcourse
    obtain ⟨h', hlearns'⟩ := hreceptive.course hg hstart' ⟨rfl, rfl, rfl⟩ (hslot settings')
      (fun r hr => hr) hcourse'
    have hcomplete := h.complete (hcourse.quiescent ⟨rfl, rfl, rfl⟩) hlearns.knows
    have hcomplete' := h'.complete (hcourse'.quiescent ⟨rfl, rfl, rfl⟩) hlearns'.knows
    exact ⟨hcomplete.view_eq hg hcomplete', hcomplete.of_allOnline hg hlocal honline⟩
  · intro actions item rest m hi hd id hid
    -- what is asked for does not depend on what was answered before
    have hregular : m.Regular (fun _ _ => True) localId :=
      (Monitor.regular_start _ localId settings).run
        (Monitor.answers_of_forall (fun _ _ => trivial) _ actions)
    obtain ⟨new, hpumped⟩ := Monitor.exists_pumped hregular.orderly hi
    rcases hpumped.asked hd id hid with hwaits | hnew | hfull
    · exact .inl ((hregular.orderly.pending_iff id).2 hwaits)
    · refine .inr (.inl ((hpumped.orderly.pending_iff id).2 ?_))
      exact (hpumped.mem_waiting id).2 (.inr hnew)
    · exact .inr (.inr hfull)

/-- A hub between the local node and two others, one of which has no cost while the other leads on:
with a queue of two places all is found, as with one of five. -/
theorem announce_same_view_hub :
    let l := NodeId.ofAddress "l"
    let c := NodeId.ofAddress "c"
    let x := NodeId.ofAddress "x"
    let v := NodeId.ofAddress "v"
    let y := NodeId.ofAddress "y"
    let g := Mesh.build [.addNode "l" (some ⟨1⟩), .addNode "c" (some ⟨1⟩), .addNode "x" none,
      .addNode "v" (some ⟨1⟩), .addNode "y" (some ⟨1⟩), .addLink l c ⟨1⟩, .addLink c x ⟨1⟩,
      .addLink c v ⟨1⟩, .addLink v y ⟨1⟩]
    g.costless l = [x] ∧ ∃ m m',
      (((within 30 g 0).start "watch" l { Settings.standard with fetchQueueCapacity := 2 }).announce
        l).members = [⟨"watch", m, true⟩] ∧
      (((within 30 g 0).start "watch" l { Settings.standard with fetchQueueCapacity := 5 }).announce
        l).members = [⟨"watch", m', true⟩] ∧
      m.topology.contains y = true ∧ m.topology.view = m'.topology.view := by
  intro l c x v y g
  obtain ⟨hlocal, hcostless, hextent, honline, hy⟩ : g.contains l = true ∧ g.costless l = [x] ∧
      g.extent < 30 ∧ (∀ id ∈ g.ids, g.isOnline id = true) ∧ y ∈ g.component l := by
    decide +kernel
  have hlength : (g.costless l).length = 1 := congrArg List.length hcostless
  obtain ⟨hsent, hsame, -⟩ := announce_same_view
    [.addNode "l" (some ⟨1⟩), .addNode "c" (some ⟨1⟩), .addNode "x" none,
      .addNode "v" (some ⟨1⟩), .addNode "y" (some ⟨1⟩), .addLink l c ⟨1⟩, .addLink c x ⟨1⟩,
      .addLink c v ⟨1⟩, .addLink v y ⟨1⟩] l
    { Settings.standard with fetchQueueCapacity := 2 }
    { Settings.standard with fetchQueueCapacity := 5 } "watch" 0 30 hlocal
    (fun id hid => honline id (IdMap.mem_keys.2 hid)) (hlength.trans_lt (by decide))
    (hlength.trans_lt (by decide)) hextent
  obtain ⟨hreached, hreached', -⟩ := hsent _ List.prefix_rfl
  obtain ⟨m, hm, hcourse⟩ := hreached
  obtain ⟨m', hm', hcourse'⟩ := hreached'
  obtain ⟨hview, hnodes, -⟩ := hsame m m' hcourse hcourse'
  rw [announce_start, announce_start]
  exact ⟨hcostless, m, m', hm, hm', (hnodes y).2 hy, hview⟩

/-- In the same mesh a queue of one place loses the node that leads on: the request for it is dropped,
and the answer of the node without a cost makes no difference. -/
theorem announce_views_differ :
    let l := NodeId.ofAddress "l"
    let c := NodeId.ofAddress "c"
    let x := NodeId.ofAddress "x"
    let v := NodeId.ofAddress "v"
    let y := NodeId.ofAddress "y"
    let g := Mesh.build [.addNode "l" (some ⟨1⟩), .addNode "c" (some ⟨1⟩), .addNode "x" none,
      .addNode "v" (some ⟨1⟩), .addNode "y" (some ⟨1⟩), .addLink l c ⟨1⟩, .addLink c x ⟨1⟩,
      .addLink c v ⟨1⟩, .addLink v y ⟨1⟩]
    let views (capacity : Nat) := (((within 30 g 0).start "watch" l
      { Settings.standard with fetchQueueCapacity := capacity }).announce l).members.map
        fun member => (member.monitor.topology.contains y, member.monitor.inbound,
          member.monitor.backfill.queue, member.monitor.backfill.running)
    (∀ id ∈ g.ids, g.isOnline id = true) ∧ views 1 = [(false, [], [], none)] ∧
      views 5 = [(true, [], [], none)] := by
  decide +kernel

end Fleet
end MeshView
