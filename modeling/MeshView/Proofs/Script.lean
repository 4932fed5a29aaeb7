/-
# Scripted runs stay converged

A scenario that builds has a well-formed mesh with every node online and the local node in it.  Once
the local node has announced itself, its monitor mirrors that mesh.  From there on every event that
is played leaves the monitor mirroring the changed mesh (`Watching.play`), whatever was played
before: components split and merge, nodes go and come back, and the local node may go for good.
So after each event of a script the nodes and the links of the view are those of the component of
the local node (`playAll_mirrors`).

Settling is cut off after a number of rounds.  It takes one round for the report and one more for
each fact that is learnt; the mesh never grows, so its size at the start bounds all of them.
-/

import MeshView.Proofs.Fleet
import MeshView.Proofs.Monitor.Events
import MeshView.Proofs.Scenario

namespace MeshView

/-! ## A fleet of one under events -/

namespace Fleet

/-- One member that mirrors the mesh under a name. -/
structure Watching (g : Mesh) (localId : NodeId) (name : String) (f : Fleet) (m : Monitor) :
    Prop where
  members_eq : f.members = [⟨name, m, true⟩]
  sites_eq : f.mesh.sites = g.sites
  mirroring : m.Mirroring g localId

section Watching
variable {g : Mesh} {localId : NodeId} {name : String} {f : Fleet} {m : Monitor}

/-- What an event does to a fleet before it settles. -/
theorem play_eq (f : Fleet) (event : Event NodeId) : (f.play event).1 =
    let f' := { f with mesh := (f.mesh.play event).1 }
    match (f.mesh.play event).2 with
    | some r => f'.emit r
    | none => f' := by
  unfold Fleet.play
  rcases f.mesh.play event with ⟨mesh, report⟩
  cases report <;> rfl

theorem rounds_play (f : Fleet) (event : Event NodeId) :
    (f.play event).1.settle.rounds = f.rounds := by
  rw [rounds_settle, play_eq]
  cases (f.mesh.play event).2 with
  | none => rfl
  | some r => exact rounds_emit _ r

/-- Rounds that are enough for a mesh are enough for it after an event. -/
theorem rounds_play_gt {g : Mesh} {f : Fleet} (hrounds : (g.size + 1) ^ 2 < f.rounds)
    (event : Event NodeId) :
    ((g.play event).1.size + 1) ^ 2 < (f.play event).1.settle.rounds := by
  rw [rounds_play]
  exact (Nat.pow_le_pow_left (Nat.succ_le_succ (g.size_play_le event)) 2).trans_lt hrounds

/-- **An event leaves the fleet mirroring the changed mesh.** -/
theorem Watching.play (hg : g.WellFormed) (honline : g.AllOnline)
    (h : Watching g localId name f m) {event : Event NodeId} (hadmits : g.Admits localId event)
    (hrounds : (g.size + 1) ^ 2 < f.rounds) :
    ∃ m', Watching (g.play event).1 localId name (f.play event).1.settle m' ∧
      Monitor.Rests (g.play event).1.answer ((g.play event).2.elim m m.offer) m' := by
  obtain ⟨hsites, hreport⟩ := Mesh.play_sites h.sites_eq event
  have hidle := h.mirroring.toIdle
  have hextent := (hg.play event).extent_lt (g.size_play_le event)
  obtain ⟨n, hn⟩ : ∃ n, f.rounds = n + 1 := ⟨f.rounds - 1, by omega⟩
  rw [play_eq, hreport]
  cases hr : (g.play event).2 with
  | none =>
    obtain ⟨hmembers, hmesh⟩ := settleFor_single (f := { f with mesh := (f.mesh.play event).1 })
      f.rounds h.members_eq
    rw [hn, hidle.settle n] at hmembers hmesh
    rw [← hn] at hmembers hmesh
    refine ⟨m, ⟨hmembers, (congrArg Mesh.sites hmesh).trans hsites, ?_⟩,
      hidle.quiescent.rests_iff.2 rfl⟩
    rw [Mesh.play_of_none hr]
    exact h.mirroring
  | some r =>
    have hpermits := Monitor.permits_pos hidle.slot hidle.inbound_eq
    obtain ⟨-, -, -, -, hopen, -⟩ := hidle.offer r
    obtain ⟨hmembers, hmesh⟩ :=
      settle_emit_single (f := { f with mesh := (f.mesh.play event).1 }) h.members_eq hidle.isOpen
        hpermits r hopen
    have hsettles : (g.play event).1.extent < n := by omega
    obtain ⟨m', e', heq, he', hrests⟩ :=
      h.mirroring.settle_offer hg honline hadmits hr hsites hsettles
    dsimp only at hmembers hmesh
    rw [← hn] at heq
    rw [heq] at hmembers hmesh
    refine ⟨m', ⟨hmembers, (congrArg Mesh.sites hmesh).trans he', ?_⟩, hrests⟩
    exact h.mirroring.rests hg honline hadmits (hr.symm ▸ hrests)

theorem Watching.playAll (hg : g.WellFormed) (honline : g.AllOnline)
    (h : Watching g localId name f m) {events : List (Event NodeId)}
    (hadmits : g.AdmitsAll localId events) (hrounds : (g.size + 1) ^ 2 < f.rounds) :
    ∃ m', Watching (g.playAll events) localId name (f.playAll events).1 m' ∧
      m.Course (g.happenings events) m' := by
  induction events generalizing g f m with
  | nil => exact ⟨m, h, .nil m⟩
  | cons event events ih =>
    obtain ⟨n, hn, hrests⟩ := h.play hg honline hadmits.1 hrounds
    obtain ⟨m', h', hcourse⟩ :=
      ih (hg.play event) (honline.play event) hn hadmits.2 (rounds_play_gt hrounds event)
    exact ⟨m', h', .cons hrests hcourse⟩

end Watching

/-- After its announcement the local node of a scenario is watched. -/
theorem watching_announce {g : Mesh} (hg : g.WellFormed) (honline : g.AllOnline) {localId : NodeId}
    (hlocal : g.contains localId = true) {settings : Settings} (hcosts : settings.fetchCosts = true)
    (hcapacity : g.size ≤ settings.fetchQueueCapacity) (name : String) (latency : Nat)
    {rounds : Nat} (hrounds : g.extent < rounds) :
    ∃ m, Watching g localId name
        (((within rounds g latency).start name localId settings).announce localId) m ∧
      ((Monitor.start localId settings).perform .subscribe).Course
        (g.telling (g.localView localId)) m := by
  have hstart := Monitor.atRest_start g localId settings hcapacity
  have hfleet := keeping_start (fun m => m.Tracks g localId True []) g localId name settings
    hstart.tracks rounds latency
  obtain ⟨m, hkeeping, hcourse⟩ := hfleet.emitAll hg hlocal (Monitor.receptive_tracks hg hlocal)
    hrounds fun r hr => hr
  exact ⟨m, ⟨hkeeping.members_eq, hkeeping.sites_eq,
    hstart.mirroring hg honline hlocal hcosts hcourse⟩, hcourse⟩

/-- **Scripted runs stay converged.**  A scenario is built and its local node announces itself to a
monitor that asks for costs and has room for a request to every node.  Then events are played, of
which those that report a node or a link concern the component of the local node as it is then;
removals are free.  After each of them the monitor absorbs, asks and gets its answers in any order until
it rests; a fleet that settles is one way to do so.  There is a limit to the moves that this takes.
Then nothing waits, and nothing is under way.  The nodes that are stored are the component of the local
node, and the links are those of the mesh inside it. -/
theorem playAll_mirrors (s : Scenario) {stage : Stage} (hbuild : s.build = .ok stage)
    (settings : Settings) (hcosts : settings.fetchCosts = true)
    (hcapacity : stage.mesh.size ≤ settings.fetchQueueCapacity) (name : String)
    (latency rounds : Nat) (hrounds : (stage.mesh.size + 1) ^ 2 < rounds)
    (events : List (Event NodeId)) (hadmits : stage.mesh.AdmitsAll stage.localId events) :
    let f := ((within rounds stage.mesh latency).start name stage.localId settings).announce
      stage.localId
    let m₀ := (Monitor.start stage.localId settings).perform .subscribe
    let announced := stage.mesh.telling (stage.mesh.localView stage.localId)
    ∀ played, played <+: events →
      let g := stage.mesh.playAll played
      let steps := announced ++ stage.mesh.happenings played
      (f.playAll played).1.mesh.sites = g.sites ∧ (f.playAll played).1.Reached name m₀ steps ∧
      ∀ m, m₀.Course steps m →
        m.inbound = [] ∧ m.backfill.queue = [] ∧ m.backfill.running = none ∧
        (∀ event, Monitor.Settles (g.play event).1.answer ((g.play event).2.elim m m.offer)) ∧
        (∀ id, m.topology.contains id = true ↔ id ∈ g.component stage.localId) ∧
        ∀ a b, (∃ c, (b, c) ∈ m.topology.links a) ↔ a ∈ g.component stage.localId ∧
          b ∈ g.component stage.localId ∧ ∃ c, (b, c) ∈ g.neighbors a := by
  intro f m₀ announced played hplayed g steps
  obtain ⟨hmesh, hlocalId⟩ := Scenario.of_build hbuild
  have hg : stage.mesh.WellFormed := hmesh ▸ s.wellFormed_mesh
  have honline : stage.mesh.AllOnline := hmesh ▸ s.allOnline_mesh
  have hlocal : stage.mesh.contains stage.localId = true := by
    rw [hmesh, hlocalId]
    exact s.contains_local
  have hextent : stage.mesh.extent < rounds := (hg.extent_lt le_rfl).trans hrounds
  have hstart := Monitor.atRest_start stage.mesh stage.localId settings hcapacity
  have hadmitted := hadmits.of_prefix hplayed
  obtain ⟨n, hn, hannounced⟩ :=
    watching_announce hg honline hlocal hcosts hcapacity name latency hextent
  obtain ⟨m', hwatching, hplays⟩ :=
    hn.playAll hg honline hadmitted ((rounds_emitAll _ _).symm ▸ hrounds)
  refine ⟨hwatching.sites_eq, ⟨m', hwatching.members_eq, hannounced.append hplays⟩,
    fun m hcourse => ?_⟩
  obtain ⟨n, hfirst, hsecond⟩ := hcourse.exists_between
  have hm : m.Mirroring g stage.localId :=
    (hstart.mirroring hg honline hlocal hcosts hfirst).course hg honline hadmitted hsecond
  obtain ⟨hqueue, hrunning⟩ := Backfill.load_eq_zero_iff.1 hm.load_eq
  have hnodes : ∀ id, m.topology.contains id = true ↔ id ∈ g.component stage.localId := by
    intro id
    rw [hm.mirrors.contains_iff, hm.localId_eq]
  refine ⟨hm.inbound_eq, hqueue, hrunning,
    fun event => hcourse.settles (g.play event), hnodes, fun a b => ?_⟩
  rw [← hnodes, ← hnodes]
  have hlisted : (∃ c, (b, c) ∈ m.topology.links a) ↔ m.topology.Linked a b := by
    simp only [hm.mirrors.wellFormed.mem_links_iff_link?, Topology.Linked,
      Option.ne_none_iff_exists']
  have hneighbors : (∃ c, (b, c) ∈ g.neighbors a) ↔ g.Linked a b := by
    simp only [Mesh.mem_neighbors_iff, Mesh.Linked, Option.ne_none_iff_exists']
  rw [hlisted, hneighbors]
  constructor
  · intro hlink
    obtain ⟨ha, hb⟩ := hm.mirrors.wellFormed.contains_of_link? hlink
    exact ⟨ha, hb, (hm.mirrors.linked_iff a b ha).1 hlink⟩
  · rintro ⟨ha, -, hlink⟩
    exact (hm.mirrors.linked_iff a b ha).2 hlink

/-- A new link reaches the last of three nodes; then the local node goes, and nothing is left. -/
theorem playAll_mirrors_third :
    let a := NodeId.ofAddress "a"
    let b := NodeId.ofAddress "b"
    let c := NodeId.ofAddress "c"
    let s : Scenario := ⟨"a", [⟨"a", some ⟨1⟩⟩, ⟨"b", some ⟨2⟩⟩, ⟨"c", some ⟨3⟩⟩],
      [⟨"a", "b", ⟨5⟩⟩], []⟩
    let f := ((within 20 s.mesh 0).start "watch" a .standard).announce a
    (∃ m, (f.playAll [.link c b ⟨7⟩]).1.members = [⟨"watch", m, true⟩] ∧
      m.topology.contains c = true ∧ ∃ cost, (c, cost) ∈ m.topology.links b) ∧
    ∃ m, (f.playAll [.link c b ⟨7⟩, .nodeGone a]).1.members = [⟨"watch", m, true⟩] ∧
      ∀ id, m.topology.contains id = false := by
  intro a b c s
  obtain ⟨hknown, hsize, hadmits⟩ : s.unknown? = none ∧ s.mesh.size = 3 ∧
      s.mesh.AdmitsAll a [.link c b ⟨7⟩, .nodeGone a] := by
    decide +kernel
  have hbuild : s.build = .ok ⟨s.mesh, a, []⟩ := by
    rw [Scenario.build, hknown]
    rfl
  have hplay := playAll_mirrors s hbuild .standard rfl
  dsimp only at hplay ⊢
  have hmirrors := hplay (by rw [hsize]; decide) "watch" 0 20 (by rw [hsize]; decide) _ hadmits
  obtain ⟨-, ⟨m, hm, hcourse⟩, hrest⟩ := hmirrors [.link c b ⟨7⟩] ⟨[.nodeGone a], rfl⟩
  obtain ⟨-, ⟨m', hm', hcourse'⟩, hrest'⟩ := hmirrors _ List.prefix_rfl
  obtain ⟨-, -, -, -, hnodes, hlinks⟩ := hrest m hcourse
  obtain ⟨-, -, -, -, hnodes', -⟩ := hrest' m' hcourse'
  obtain ⟨⟨hb, hc, hbc⟩, hgone⟩ : (let g := s.mesh.playAll [.link c b ⟨7⟩]
      b ∈ g.component a ∧ c ∈ g.component a ∧ (c, (⟨7⟩ : Cost)) ∈ g.neighbors b) ∧
      ((s.mesh.playAll [.link c b ⟨7⟩, .nodeGone a]).component a).keys = [] := by
    decide +kernel
  refine ⟨⟨m, hm, (hnodes c).2 hc, (hlinks b c).2 ⟨hb, hc, _, hbc⟩⟩, m', hm', fun id => ?_⟩
  refine Bool.eq_false_iff.2 fun hid => ?_
  have hkeys := IdMap.mem_keys.2 ((hnodes' id).1 hid)
  rw [hgone] at hkeys
  exact List.not_mem_nil hkeys

end Fleet
end MeshView
