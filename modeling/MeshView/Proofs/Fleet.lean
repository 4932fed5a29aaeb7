/-
# Backfill converges to the mesh

A monitor starts at rest, and while the mesh does not change it rests again after every report that
the local node emits about itself, on any schedule (`Monitor.AtRest.course`).  When the local node has
announced itself in full, every open node that is stored is covered: the local node by its own reports,
and any other because nothing is under way any more.  So the topology is exactly what can be seen of
the mesh (`emitAll_converges`).

A fleet with one member is its monitor: emitting a report offers it to the monitor, and a round of the
fleet is a round of the monitor.  So what a fleet does is one such schedule (`Keeping.emitAll`).
-/

import MeshView.Fleet
import MeshView.Proofs.Monitor.Settling

namespace MeshView

namespace Fleet

/-! ## Where settling is cut off -/

theorem rounds_settleFor (rounds : Nat) (f : Fleet) : (settleFor rounds f).rounds = f.rounds := by
  induction rounds generalizing f with
  | zero => rfl
  | succ rounds ih =>
    rw [settleFor]
    dsimp only
    split
    · rfl
    · exact ih _

theorem rounds_settle (f : Fleet) : f.settle.rounds = f.rounds := rounds_settleFor f.rounds f

theorem rounds_offer (f : Fleet) (r : Report) (index : Nat) :
    (f.offer r index).rounds = f.rounds := by
  rw [offer]
  split
  · rfl
  · split
    · show (if _ then f.settle else f).rounds = _
      split
      · exact f.rounds_settle
      · rfl
    · rfl

theorem rounds_emit (f : Fleet) (r : Report) : (f.emit r).rounds = f.rounds := by
  have hfold : ∀ (indices : List Nat) (f : Fleet),
      (indices.foldl (·.offer r) f).rounds = f.rounds := by
    intro indices
    induction indices with
    | nil => exact fun _ => rfl
    | cons index indices ih => exact fun f => (ih _).trans (f.rounds_offer r index)
  exact hfold _ f

theorem rounds_emitAll (f : Fleet) (reports : List Report) :
    (f.emitAll reports).rounds = f.rounds := by
  induction reports generalizing f with
  | nil => rfl
  | cons r reports ih => exact (ih _).trans ((f.emit r).rounds_settle.trans (f.rounds_emit r))

/-! ## A fleet of one -/

section Single
variable {f : Fleet} {name : String} {m : Monitor}

theorem emit_single (hf : f.members = [⟨name, m, true⟩]) (hopen : m.isOpen = true)
    (hpermits : 0 < m.permits) (r : Report) (hafter : (m.offer r).isOpen = true) :
    (f.emit r).members = [⟨name, m.offer r, true⟩] ∧ (f.emit r).mesh = f.mesh := by
  have hfull : (m.isOpen && decide (m.permits = 0)) = false := by
    rw [hopen, Bool.true_and, decide_eq_false_iff_not]
    omega
  have hoffer : f.offer r 0 = f.perform 0 (.offer r) := by
    simp only [Fleet.offer, hf, List.getElem?_cons_zero, if_true, hfull]
    rfl
  have hperform : (f.perform 0 (.offer r)).members = [⟨name, m.offer r, true⟩] := by
    rw [perform, hf]
    rfl
  have hrange : (List.range f.members.length).foldl (·.offer r) f = f.offer r 0 := by
    rw [hf]
    rfl
  refine ⟨?_, ?_⟩
  · rw [emit, hrange, hoffer, hperform]
    simp only [List.map_cons, List.map_nil, hafter, Bool.and_self]
  · rw [emit, hrange, hoffer]
    rfl

theorem settleFor_single (rounds : Nat) (hf : f.members = [⟨name, m, true⟩]) :
    (settleFor rounds f).members = [⟨name, (m.settle Mesh.responder rounds f.mesh).1, true⟩] ∧
      (settleFor rounds f).mesh = (m.settle Mesh.responder rounds f.mesh).2 := by
  induction rounds generalizing f m with
  | zero => exact ⟨hf, rfl⟩
  | succ rounds ih =>
    rcases hround : m.round Mesh.responder f.mesh with ⟨m', e'⟩
    have hone : round f.members f.mesh =
        ([⟨name, m', true⟩], e', Member.news ⟨name, m', true⟩ m ++ []) := by
      simp only [hf, round, hround]
    by_cases hnil : m'.inbound.isEmpty = true
    · simp only [settleFor, hone, isSettled, List.all_cons, List.all_nil, hnil, Monitor.settle,
        hround, Bool.and_self, if_true, and_self]
    · simp only [settleFor, hone, isSettled, List.all_cons, List.all_nil, hnil, Monitor.settle,
        hround, Bool.false_and]
      exact ih rfl

/-- A report is offered to the only member, which then settles. -/
theorem settle_emit_single (hf : f.members = [⟨name, m, true⟩]) (hopen : m.isOpen = true)
    (hpermits : 0 < m.permits) (r : Report) (hafter : (m.offer r).isOpen = true) :
    (f.emit r).settle.members =
        [⟨name, ((m.offer r).settle Mesh.responder f.rounds f.mesh).1, true⟩] ∧
      (f.emit r).settle.mesh = ((m.offer r).settle Mesh.responder f.rounds f.mesh).2 := by
  obtain ⟨hmembers, hmesh⟩ := emit_single hf hopen hpermits r hafter
  rw [← hmesh, ← f.rounds_emit r]
  exact settleFor_single (f.emit r).rounds hmembers

end Single

/-- One member with an invariant under a name, at rest. -/
structure Keeping (g : Mesh) (Inv : Monitor → Prop) (name : String) (f : Fleet) (m : Monitor) :
    Prop where
  members_eq : f.members = [⟨name, m, true⟩]
  sites_eq : f.mesh.sites = g.sites
  holds : Inv m
  quiescent : m.Quiescent
  slot : 0 < m.slots

section Keeping
variable {g : Mesh} {localId : NodeId} {strict : Prop} {Inv : Monitor → Prop} {name : String}
  {f : Fleet} {m : Monitor}

theorem keeping_start (Inv : Monitor → Prop) (g : Mesh) (localId : NodeId) (name : String)
    (settings : Settings) (hinv : Inv ((Monitor.start localId settings).perform .subscribe))
    (rounds latency : Nat) :
    Keeping g Inv name ((within rounds g latency).start name localId settings)
      ((Monitor.start localId settings).perform .subscribe) where
  members_eq := rfl
  sites_eq := rfl
  holds := hinv
  quiescent := ⟨rfl, rfl, rfl⟩
  slot := Nat.lt_of_lt_of_le Nat.one_pos (Nat.le_max_right settings.notificationBuffer 1)

/-- **With a report of the local node about itself the fleet comes to rest again.** -/
theorem Keeping.emit (hg : g.WellFormed) (hlocal : g.contains localId = true)
    (hsteady : Monitor.Receptive g localId strict Inv) (h : Keeping g Inv name f m)
    (hrounds : g.extent < f.rounds) {r : Report} (hr : r ∈ g.localView localId) :
    ∃ m', Keeping g Inv name (f.emit r).settle m' ∧ Monitor.Rests g.answer (m.offer r) m' := by
  obtain ⟨m', e', heq, he', hrests⟩ := hsteady.settle_offer hg hlocal f.rounds h.holds
    h.quiescent h.slot hr h.sites_eq hrounds
  obtain ⟨h', hlearns⟩ := hsteady.rests hg h.holds h.quiescent h.slot hr hrests
  have hoffered := (hsteady.hears _ (hsteady.offer m r h.holds hr)).isOpen
  obtain ⟨hsingle, hmesh⟩ := settle_emit_single h.members_eq (hsteady.hears m h.holds).isOpen
    (Monitor.permits_pos h.slot h.quiescent.1) r hoffered
  rw [heq] at hsingle hmesh
  exact ⟨m', ⟨hsingle, (congrArg Mesh.sites hmesh).trans he', h', hrests.2,
    hlearns.slots_eq.symm ▸ h.slot⟩, hrests⟩

theorem Keeping.emitAll (hg : g.WellFormed) (hlocal : g.contains localId = true)
    (hsteady : Monitor.Receptive g localId strict Inv) (h : Keeping g Inv name f m)
    (hrounds : g.extent < f.rounds) {reports : List Report}
    (hreports : ∀ r ∈ reports, r ∈ g.localView localId) :
    ∃ m', Keeping g Inv name (f.emitAll reports) m' ∧ m.Course (g.telling reports) m' := by
  induction reports generalizing f m with
  | nil => exact ⟨m, h, .nil m⟩
  | cons r reports ih =>
    obtain ⟨m', h', hrests⟩ := h.emit hg hlocal hsteady hrounds (hreports r List.mem_cons_self)
    have hrounds' : g.extent < (f.emit r).settle.rounds := by
      rwa [rounds_settle, rounds_emit]
    obtain ⟨m'', h'', hcourse⟩ :=
      ih h' hrounds' fun r' hr' => hreports r' (List.mem_cons_of_mem _ hr')
    exact ⟨m'', h'', .cons hrests hcourse⟩

end Keeping

/-- The mesh that is announced is the one that the monitor was started on. -/
theorem announce_start (g : Mesh) (name : String) (localId : NodeId) (settings : Settings)
    (rounds latency : Nat) :
    ((within rounds g latency).start name localId settings).announce localId =
      ((within rounds g latency).start name localId settings).emitAll (g.localView localId) := rfl

/-- The only member of the fleet, of this name, came about from a monitor in these steps. -/
def Reached (f : Fleet) (name : String) (m₀ : Monitor) (steps : List (Mesh × Option Report)) : Prop :=
  ∃ m, f.members = [⟨name, m, true⟩] ∧ m₀.Course steps m

/-- **Backfill converges to the mesh.**  A monitor is started on any mesh for a node of it, with a
request queue that has room for all nodes, and the node announces itself report by report.  After every
report the monitor absorbs, asks and gets its answers in any order until it rests; a fleet, which settles
within more rounds than the mesh has facts, is one way to do so.  There is a limit to the moves that this
takes.  In between nothing waits, nothing is under way, and no request was dropped.  In the end the
monitor stores exactly the visible nodes; it lists exactly the links of the mesh that have an open end
among them, at both ends and with their costs; and of the visible nodes it knows the costs of the open
ones and no others.  If every node is online, that is the component of the local node with all its links
and costs. -/
theorem emitAll_converges (edits : List Mesh.Edit) (localId : NodeId) (settings : Settings)
    (name : String) (latency rounds : Nat) (hlocal : (Mesh.build edits).contains localId = true)
    (hcapacity : (Mesh.build edits).size ≤ settings.fetchQueueCapacity)
    (hrounds : (Mesh.build edits).extent < rounds) :
    let g := Mesh.build edits
    let f := (within rounds g latency).start name localId settings
    let m₀ := (Monitor.start localId settings).perform .subscribe
    (∀ sent, sent <+: g.localView localId →
      (f.emitAll sent).Reached name m₀ (g.telling sent) ∧
      ∀ m, m₀.Course (g.telling sent) m →
        m.inbound = [] ∧ m.backfill.queue = [] ∧ m.backfill.running = none ∧
        m.backfill.dropped = 0 ∧ ∀ r, Monitor.Settles g.answer (m.offer r)) ∧
    ∀ m, m₀.Course (g.telling (g.localView localId)) m →
      (∀ id, m.topology.contains id = true ↔ g.Visible localId id) ∧
      (∀ a b c, (b, c) ∈ m.topology.links a ↔
        (b, c) ∈ g.neighbors a ∧ (g.Tells localId a ∨ g.Tells localId b)) ∧
      (∀ id, g.Visible localId id → (g.Open localId id → m.topology.cost? id = some (g.cost? id)) ∧
        (¬ g.Open localId id → m.topology.cost? id = some none)) ∧
      ((∀ id, g.contains id = true → g.isOnline id = true) →
        (∀ id, m.topology.contains id = true ↔ id ∈ g.component localId) ∧
        ∀ id ∈ g.component localId, m.topology.cost? id = some (g.cost? id) ∧
          ∀ b c, (b, c) ∈ m.topology.links id ↔ (b, c) ∈ g.neighbors id) := by
  intro g f m₀
  have hg : g.WellFormed := Mesh.wellFormed_build edits
  have hstart : m₀.AtRest g localId := Monitor.atRest_start g localId settings hcapacity
  have hfleet := keeping_start (fun m => m.Tracks g localId True []) g localId name settings
    hstart.tracks rounds latency
  refine ⟨fun sent hs => ⟨?_, fun m hcourse => ?_⟩, fun m hcourse => ?_⟩
  · obtain ⟨m, h, hcourse⟩ := hfleet.emitAll hg hlocal (Monitor.receptive_tracks hg hlocal) hrounds
      fun r hr => hs.subset hr
    exact ⟨m, h.members_eq, hcourse⟩
  · obtain ⟨h, -⟩ := hstart.course hg hlocal (fun r hr => hs.subset hr) hcourse
    obtain ⟨hqueue, hrunning⟩ := Backfill.load_eq_zero_iff.1 h.idle
    exact ⟨h.settled, hqueue, hrunning, h.tracks.dropped,
      fun r => hcourse.settles (g, some r)⟩
  · obtain ⟨h, hlearns⟩ := hstart.course hg hlocal (fun r hr => hr) hcourse
    have hcomplete := h.complete hlearns.knows
    have hlisted : ∀ a b c, (b, c) ∈ m.topology.links a ↔
        (b, c) ∈ g.neighbors a ∧ (g.Tells localId a ∨ g.Tells localId b) := by
      intro a b c
      rw [hcomplete.faithful.wellFormed.mem_links_iff_link?, hcomplete.link?_eq_some_iff hg,
        Mesh.mem_neighbors_iff]
    refine ⟨hcomplete.contains_iff, hlisted, fun id hid =>
      ⟨hcomplete.cost?_of_open hid, hcomplete.cost?_of_not_open hid⟩,
      fun honline => ⟨fun id => ?_, fun id hid => ?_⟩⟩
    · rw [hcomplete.contains_iff, hg.visible_iff_mem_component hlocal honline]
    · have hvisible : g.Visible localId id :=
        (hg.visible_iff_mem_component hlocal honline id).2 hid
      have hopen : g.Open localId id := .inr (honline id (hvisible.contains hg hlocal))
      refine ⟨hcomplete.cost?_of_open hvisible hopen, fun b c => ?_⟩
      rw [hlisted]
      exact and_iff_left (.inl ⟨hvisible, hopen⟩)

/-- Three nodes in a row, of which the last one is offline: it is stored with its link and without
its cost. -/
theorem emitAll_converges_row :
    let a := NodeId.ofAddress "a"
    let b := NodeId.ofAddress "b"
    let c := NodeId.ofAddress "c"
    let g := Mesh.build [.addNode "a" (some ⟨1⟩), .addNode "b" (some ⟨2⟩), .addNode "c" (some ⟨3⟩),
      .addLink a b ⟨5⟩, .addLink b c ⟨7⟩, .setOnline c false]
    ∃ m, (((within 20 g 0).start "watch" a .standard).emitAll (g.localView a)).members =
        [⟨"watch", m, true⟩] ∧
      m.topology.contains c = true ∧ (b, ⟨7⟩) ∈ m.topology.links c ∧
      m.topology.cost? b = some (some ⟨2⟩) ∧ m.topology.cost? c = some none := by
  intro a b c g
  have hab : g.link? a b ≠ none := by decide +kernel
  have hbc : g.link? b c ≠ none := by decide +kernel
  have hb : g.Visible a b := .step .root (.inl rfl) hab
  have hopen : g.Open a b := .inr (by decide +kernel)
  have hc : g.Visible a c := .step hb hopen hbc
  have hclosed : ¬ g.Open a c := by
    rintro (h | h)
    · exact absurd h (by decide +kernel)
    · exact absurd h (by decide +kernel)
  obtain ⟨hsent, hconverges⟩ := emitAll_converges
    [.addNode "a" (some ⟨1⟩), .addNode "b" (some ⟨2⟩), .addNode "c" (some ⟨3⟩),
      .addLink a b ⟨5⟩, .addLink b c ⟨7⟩, .setOnline c false] a .standard "watch" 0 20
    (by decide +kernel) (by decide +kernel) (by decide +kernel)
  obtain ⟨⟨m, hm, hcourse⟩, -⟩ := hsent _ List.prefix_rfl
  obtain ⟨hnodes, hlinks, hcosts, -⟩ := hconverges m hcourse
  refine ⟨m, hm, (hnodes c).2 hc, (hlinks c b ⟨7⟩).2 ⟨by decide +kernel, .inr ⟨hb, hopen⟩⟩, ?_,
    (hcosts c hc).2 hclosed⟩
  rw [(hcosts b hb).1 hopen]
  decide +kernel

end Fleet
end MeshView
