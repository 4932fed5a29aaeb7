/-
# Asking for costs makes no difference to the nodes and links

Two monitors watch the same scenario through the same announcement and the same events, and only one
of them asks for costs.  On whatever schedules they come to rest, after every step they store the same
nodes with the same links, as long as the source of every new link is known to them or has no other link
(`SourcesKnown`).  Two fleets of one, side by side, are such monitors (`Beside.playAll`).

A node without a cost is asked again and again by the monitor that wants costs, and repeats its links
with their costs of now.  So of links that it holds the other monitor may remember older costs.
-/

import MeshView.Proofs.Monitor.Sources
import MeshView.Proofs.Script

namespace MeshView

namespace Fleet

theorem playAll_append (f : Fleet) (events events' : List (Event NodeId)) :
    (f.playAll (events ++ events')).1 = ((f.playAll events).1.playAll events').1 := by
  induction events generalizing f with
  | nil => rfl
  | cons e events ih => exact ih _

theorem rounds_playAll (f : Fleet) (events : List (Event NodeId)) :
    (f.playAll events).1.rounds = f.rounds := by
  induction events generalizing f with
  | nil => rfl
  | cons e events ih => exact (ih _).trans (f.rounds_play e)

/-- Two fleets of one on the same mesh, side by side. -/
structure Beside (g : Mesh) (name : String) (f' f : Fleet) (m' m : Monitor) : Prop where
  members_eq' : f'.members = [⟨name, m', true⟩]
  members_eq : f.members = [⟨name, m, true⟩]
  sites_eq' : f'.mesh.sites = g.sites
  sites_eq : f.mesh.sites = g.sites
  rounds_eq : f'.rounds = f.rounds

section Beside
variable {g : Mesh} {localId : NodeId} {sure : NodeId → Prop} {name : String} {f' f : Fleet}
  {m' m : Monitor}

/-- Two fleets take the same report and settle. -/
theorem Beside.emit_of (h : Beside g name f' f m' m) {size rounds : Nat} (hidle' : m'.Idle size)
    (hidle : m.Idle size) (hn : f.rounds = rounds + 1) {r : Report} {n' n : Monitor} {d' d : Mesh}
    (hsettle' : (m'.offer r).settle Mesh.responder (rounds + 1) f'.mesh = (n', d'))
    (hsettle : (m.offer r).settle Mesh.responder (rounds + 1) f.mesh = (n, d))
    (hsites' : d'.sites = g.sites) (hsites : d.sites = g.sites) :
    Beside g name (f'.emit r).settle (f.emit r).settle n' n := by
  obtain ⟨-, -, -, -, hopen, -⟩ := hidle.offer r
  obtain ⟨-, -, -, -, hopen', -⟩ := hidle'.offer r
  obtain ⟨hmembers, hmesh⟩ := settle_emit_single h.members_eq hidle.isOpen
    (Monitor.permits_pos hidle.slot hidle.inbound_eq) r hopen
  obtain ⟨hmembers', hmesh'⟩ := settle_emit_single h.members_eq' hidle'.isOpen
    (Monitor.permits_pos hidle'.slot hidle'.inbound_eq) r hopen'
  rw [hn, hsettle] at hmembers hmesh
  rw [h.rounds_eq, hn, hsettle'] at hmembers' hmesh'
  refine ⟨hmembers', hmembers, (congrArg Mesh.sites hmesh').trans hsites',
    (congrArg Mesh.sites hmesh).trans hsites, ?_⟩
  rw [rounds_settle, rounds_settle, rounds_emit, rounds_emit, h.rounds_eq]

/-- With nothing reported the fleets stay as they are. -/
theorem Beside.settle (h : Beside g name f' f m' m) {size rounds : Nat} (hidle' : m'.Idle size)
    (hidle : m.Idle size) (hn : f.rounds = rounds + 1) : Beside g name f'.settle f.settle m' m := by
  obtain ⟨hmembers, hmesh⟩ := settleFor_single f.rounds h.members_eq
  obtain ⟨hmembers', hmesh'⟩ := settleFor_single f'.rounds h.members_eq'
  rw [hn, hidle.settle rounds] at hmembers hmesh
  rw [h.rounds_eq, hn, hidle'.settle rounds] at hmembers' hmesh'
  rw [← hn] at hmembers hmesh
  rw [← hn, ← h.rounds_eq] at hmembers' hmesh'
  refine ⟨hmembers', hmembers, (congrArg Mesh.sites hmesh').trans h.sites_eq',
    (congrArg Mesh.sites hmesh).trans h.sites_eq, ?_⟩
  rw [rounds_settle, rounds_settle, h.rounds_eq]

/-- **Two fleets come to rest with an announcement**, one report after another. -/
theorem Beside.emitAll (h : Beside g name f' f m' m)
    (habreast : Monitor.Abreast localId sure g.size m' m) (hatRest : m.AtRest g localId)
    (hg : g.WellFormed) (hlocal : g.contains localId = true) (honline : g.AllOnline)
    (hsure : ∀ a, sure a → a ≠ localId → g.contains a = true → g.cost? a ≠ none)
    (hrounds : g.extent + 1 < f.rounds) {reports : List Report}
    (hreports : ∀ r ∈ reports, r ∈ g.localView localId) :
    ∃ n' n, Beside g name (f'.emitAll reports) (f.emitAll reports) n' n ∧
      m'.Course (g.telling reports) n' ∧ m.Course (g.telling reports) n := by
  induction reports generalizing f' f m' m with
  | nil => exact ⟨m', m, h, .nil m', .nil m⟩
  | cons r reports ih =>
    have hr := hreports r List.mem_cons_self
    obtain ⟨rounds, hn⟩ : ∃ rounds, f.rounds = rounds + 1 := ⟨f.rounds - 1, by omega⟩
    have hresumes := hatRest.tracks.resumes hatRest.quiescent hg hlocal honline hr
    obtain ⟨k', d', k, d, hsettle', hsettle, hsites', hsites, hrests', hrests⟩ :=
      habreast.settle_offer rounds le_rfl hg hlocal honline hresumes.informed h.sites_eq' h.sites_eq
        (by omega)
    have hnext := h.emit_of habreast.idle' habreast.idle hn hsettle' hsettle hsites' hsites
    obtain ⟨n', n, hend, hcourse', hcourse⟩ := ih hnext
      (habreast.rests le_rfl hg hlocal honline hsure hresumes hrests' hrests)
      (hatRest.rests hg hlocal hr hrests) (by rwa [rounds_settle, rounds_emit])
      fun r' hr' => hreports r' (List.mem_cons_of_mem _ hr')
    exact ⟨n', n, hend, .cons hrests' hcourse', .cons hrests hcourse⟩

/-- **Two fleets come to rest with an event**, whatever its source is. -/
theorem Beside.play (h : Beside g name f' f m' m) (hp : Monitor.Paired g localId sure m' m)
    (hg : g.WellFormed) (honline : g.AllOnline) (hrounds : (g.size + 1) ^ 2 < f.rounds)
    {event : Event NodeId} (hadmits : g.Admits localId event) : ∃ n' n,
      Beside (g.play event).1 name (f'.play event).1.settle (f.play event).1.settle n' n ∧
      Monitor.Rests (g.play event).1.answer ((g.play event).2.elim m' m'.offer) n' ∧
      Monitor.Rests (g.play event).1.answer ((g.play event).2.elim m m.offer) n := by
  obtain ⟨hsites, hreport⟩ := Mesh.play_sites h.sites_eq event
  obtain ⟨hsites', hreport'⟩ := Mesh.play_sites h.sites_eq' event
  have hextent := (hg.play event).extent_lt (g.size_play_le event)
  obtain ⟨rounds, hn⟩ : ∃ rounds, f.rounds = rounds + 1 := ⟨f.rounds - 1, by omega⟩
  have hidle := hp.abreast.idle
  have hidle' := hp.abreast.idle'
  have hmid : Beside (g.play event).1 name { f' with mesh := (f'.mesh.play event).1 }
      { f with mesh := (f.mesh.play event).1 } m' m :=
    { h with
      sites_eq' := hsites'
      sites_eq := hsites }
  rw [play_eq, play_eq, hreport, hreport']
  cases hr : (g.play event).2 with
  | none =>
    exact ⟨m', m, hmid.settle hidle' hidle hn, hidle'.quiescent.rests_iff.2 rfl,
      hidle.quiescent.rests_iff.2 rfl⟩
  | some r =>
    have hrounds' : (g.play event).1.extent < rounds := by omega
    obtain ⟨n', d', n, d, hsettle', hsettle, hd', hd, hrests', hrests⟩ :=
      hp.settle_offer hg honline hadmits hr hsites' hsites hrounds'
    exact ⟨n', n, hmid.emit_of hidle' hidle hn hsettle' hsettle hd' hd, hrests', hrests⟩

/-- **They do so with all events whose sources are known.** -/
theorem Beside.playAll (h : Beside g name f' f m' m) (hp : Monitor.Paired g localId sure m' m)
    (hg : g.WellFormed) (honline : g.AllOnline) (hrounds : (g.size + 1) ^ 2 < f.rounds)
    {events : List (Event NodeId)} (hadmits : g.AdmitsAll localId events)
    (hsources : g.SourcesKnown localId events) : ∃ n' n,
      Beside (g.playAll events) name (f'.playAll events).1 (f.playAll events).1 n' n ∧
      m'.Course (g.happenings events) n' ∧ m.Course (g.happenings events) n := by
  induction events generalizing g f' f m' m with
  | nil => exact ⟨m', m, h, .nil m', .nil m⟩
  | cons event events ih =>
    obtain ⟨k', k, hk, hrests', hrests⟩ := h.play hp hg honline hrounds hadmits.1
    obtain ⟨n', n, hn, hcourse', hcourse⟩ :=
      ih hk (hp.rests hg honline hadmits.1 hsources.1 hrests' hrests) (hg.play event)
        (honline.play event) (rounds_play_gt hrounds event) hadmits.2 hsources.2
    exact ⟨n', n, hn, .cons hrests' hcourse', .cons hrests hcourse⟩

/-- **The first event whose source is not known drives them apart.** -/
theorem Beside.exists_differ (h : Beside g name f' f m' m)
    (hp : Monitor.Paired g localId sure m' m) (hg : g.WellFormed) (honline : g.AllOnline)
    (hrounds : (g.size + 1) ^ 2 < f.rounds) {events : List (Event NodeId)}
    (hadmits : g.AdmitsAll localId events) (hsources : ¬ g.SourcesKnown localId events) :
    ∃ played id, played <+: events ∧
      (∃ n' n, Beside (g.playAll played) name (f'.playAll played).1 (f.playAll played).1 n' n ∧
        m'.Course (g.happenings played) n' ∧ m.Course (g.happenings played) n) ∧
      ∀ k' k n' n, Monitor.Paired g localId sure k' k → k'.Course (g.happenings played) n' →
        k.Course (g.happenings played) n →
        n.topology.contains id = true ∧ n'.topology.contains id = false := by
  obtain ⟨known, event, hprefix, hknown, hadmitted, hadmits', hunknown⟩ :=
    Mesh.exists_unknown_source hadmits hsources
  obtain ⟨a, b, cost, y, hevent, hl, ha, hy⟩ := Mesh.exists_behind hunknown
  refine ⟨known ++ [event], y, hprefix, ?_, fun k' k n' n hpaired hcourse' hcourse =>
    hpaired.course_differ hg honline hadmitted hknown hadmits' hevent hl ha hy hcourse' hcourse⟩
  obtain ⟨k', k, hk, hcourse', hcourse⟩ := h.playAll hp hg honline hrounds hadmitted hknown
  have hrounds' : ((g.playAll known).size + 1) ^ 2 < (f.playAll known).1.rounds := by
    rw [rounds_playAll]
    exact (Nat.pow_le_pow_left (Nat.succ_le_succ (g.size_playAll_le known)) 2).trans_lt hrounds
  obtain ⟨n', n, hn, hrests', hrests⟩ :=
    hk.play (hp.course hg honline hadmitted hknown hcourse' hcourse) (hg.playAll known)
      (honline.playAll known) hrounds' hadmits'
  rw [playAll_append, playAll_append, Mesh.playAll, List.foldl_append, Mesh.happenings_append]
  exact ⟨n', n, hn, hcourse'.append (.single hrests'), hcourse.append (.single hrests)⟩

end Beside

/-- **Asking for costs makes no difference to the nodes and links.**  A scenario is built and its local
node announces itself, report by report, to a monitor that asks for costs and to one that does not;
both have room for a request to every node.  Then events are played as in a script, of which those
that report a node or a link concern the component of the local node as it is then.  After every
report and every event each of them absorbs, asks and gets its answers in an order of its own until it
rests; fleets that settle are one way to do so, and there is a limit to the moves that it takes.  They
store the same nodes and list the same links, as long as every link that is reported has its source in
the component, or a source without another link; and this is needed, for at the first event that breaks
it they come to store different nodes.  The costs of links are the same between nodes that have a cost
in the scenario, and the local one. -/
theorem playAll_alike (s : Scenario) {stage : Stage} (hbuild : s.build = .ok stage)
    (settings settings' : Settings) (hcosts : settings.fetchCosts = true)
    (hcosts' : settings'.fetchCosts = false)
    (hcapacity : stage.mesh.size ≤ settings.fetchQueueCapacity)
    (hcapacity' : stage.mesh.size ≤ settings'.fetchQueueCapacity) (name : String)
    (latency rounds : Nat) (hrounds : (stage.mesh.size + 1) ^ 2 < rounds)
    (events : List (Event NodeId)) (hadmits : stage.mesh.AdmitsAll stage.localId events) :
    let g := stage.mesh
    let sure id := id = stage.localId ∨ g.cost? id ≠ none
    let f := (within rounds g latency).start name stage.localId settings
    let f' := (within rounds g latency).start name stage.localId settings'
    let m₀ := (Monitor.start stage.localId settings).perform .subscribe
    let m₀' := (Monitor.start stage.localId settings').perform .subscribe
    let steps played := g.telling (g.localView stage.localId) ++ g.happenings played
    (∀ sent, sent <+: g.localView stage.localId →
      (f.emitAll sent).Reached name m₀ (g.telling sent) ∧
      (f'.emitAll sent).Reached name m₀' (g.telling sent) ∧
      ∀ m m', m₀.Course (g.telling sent) m → m₀'.Course (g.telling sent) m' → m.Alike sure m') ∧
    (g.SourcesKnown stage.localId events → ∀ played, played <+: events →
      ((f.announce stage.localId).playAll played).1.Reached name m₀ (steps played) ∧
      ((f'.announce stage.localId).playAll played).1.Reached name m₀' (steps played) ∧
      ∀ m m', m₀.Course (steps played) m → m₀'.Course (steps played) m' → m.Alike sure m') ∧
    (¬ g.SourcesKnown stage.localId events → ∃ played id, played <+: events ∧
      ((f.announce stage.localId).playAll played).1.Reached name m₀ (steps played) ∧
      ((f'.announce stage.localId).playAll played).1.Reached name m₀' (steps played) ∧
      ∀ m m', m₀.Course (steps played) m → m₀'.Course (steps played) m' →
        m.topology.contains id = true ∧ m'.topology.contains id = false) ∧
    ∀ taken m, m₀.Course taken m ∨ m₀'.Course taken m →
      ∀ next : Mesh × Option Report, Monitor.Settles next.1.answer (next.2.elim m m.offer) := by
  intro g sure f f' m₀ m₀' steps
  obtain ⟨hmesh, hlocalId⟩ := Scenario.of_build hbuild
  have hgmesh : g = s.mesh := hmesh
  have hg : g.WellFormed := hgmesh ▸ s.wellFormed_mesh
  have honline : g.AllOnline := hgmesh ▸ s.allOnline_mesh
  have hlocal : g.contains stage.localId = true := by
    rw [hgmesh, hlocalId]
    exact s.contains_local
  have hsure : ∀ a, sure a → a ≠ stage.localId → g.contains a = true → g.cost? a ≠ none :=
    fun a ha hne _ => ha.resolve_left hne
  have hextent : g.extent + 1 < rounds :=
    (Nat.succ_le_of_lt (hg.extent_lt le_rfl)).trans_lt hrounds
  have hstart := Monitor.atRest_start g stage.localId settings hcapacity
  have habreast : Monitor.Abreast stage.localId sure g.size m₀' m₀ :=
    Monitor.abreast_start stage.localId sure hcosts' hcosts hcapacity' hcapacity
  have hboth : Beside g name f' f m₀' m₀ := ⟨rfl, rfl, rfl, rfl, rfl⟩
  have hsent : ∀ sent, sent <+: g.localView stage.localId → ∃ n' n,
      Beside g name (f'.emitAll sent) (f.emitAll sent) n' n ∧
        m₀'.Course (g.telling sent) n' ∧ m₀.Course (g.telling sent) n := fun sent hs =>
    hboth.emitAll habreast hstart hg hlocal honline hsure hextent fun r hr => hs.subset hr
  have hpaired : ∀ {n' n}, m₀'.Course (g.telling (g.localView stage.localId)) n' →
      m₀.Course (g.telling (g.localView stage.localId)) n →
        Monitor.Paired g stage.localId sure n' n := fun hcourse' hcourse =>
    ⟨habreast.course hstart hg hlocal honline hsure (fun r hr => hr) hcourse' hcourse,
      hstart.mirroring hg honline hlocal hcosts hcourse, hsure⟩
  obtain ⟨n', n, hbeside, hannounced', hannounced⟩ := hsent _ List.prefix_rfl
  have hp := hpaired hannounced' hannounced
  have hrounds' : (g.size + 1) ^ 2 < (f.announce stage.localId).rounds := by
    rw [announce, rounds_emitAll]
    exact hrounds
  refine ⟨fun sent hs => ?_, fun hsources played hplayed => ?_, fun hsources => ?_,
    fun taken m hcourse next => ?_⟩
  · obtain ⟨n', n, hn, hcourse', hcourse⟩ := hsent sent hs
    exact ⟨⟨n, hn.members_eq, hcourse⟩, ⟨n', hn.members_eq', hcourse'⟩, fun m m' hm hm' =>
      (habreast.course hstart hg hlocal honline hsure (fun r hr => hs.subset hr) hm' hm).alike⟩
  · have hadmitted := hadmits.of_prefix hplayed
    have hknown := hsources.of_prefix hplayed
    obtain ⟨k', k, hk, hcourse', hcourse⟩ :=
      hbeside.playAll hp hg honline hrounds' hadmitted hknown
    refine ⟨⟨k, hk.members_eq, hannounced.append hcourse⟩,
      ⟨k', hk.members_eq', hannounced'.append hcourse'⟩, fun m m' hm hm' => ?_⟩
    obtain ⟨i, hfirst, hsecond⟩ := hm.exists_between
    obtain ⟨i', hfirst', hsecond'⟩ := hm'.exists_between
    exact ((hpaired hfirst' hfirst).course hg honline hadmitted hknown hsecond' hsecond).abreast.alike
  · obtain ⟨played, id, hplayed, ⟨k', k, hk, hcourse', hcourse⟩, hdiffer⟩ :=
      hbeside.exists_differ hp hg honline hrounds' hadmits hsources
    refine ⟨played, id, hplayed, ⟨k, hk.members_eq, hannounced.append hcourse⟩,
      ⟨k', hk.members_eq', hannounced'.append hcourse'⟩, fun m m' hm hm' => ?_⟩
    obtain ⟨i, hfirst, hsecond⟩ := hm.exists_between
    obtain ⟨i', hfirst', hsecond'⟩ := hm'.exists_between
    exact hdiffer i' i m' m (hpaired hfirst' hfirst) hsecond' hsecond
  · rcases hcourse with hcourse | hcourse
    · exact hcourse.settles next
    · exact hcourse.settles next

/-- The link is reported by the stored end, so both monitors learn of the node behind the other end. -/
theorem playAll_alike_behind :
    let a := NodeId.ofAddress "a"
    let b := NodeId.ofAddress "b"
    let c := NodeId.ofAddress "c"
    let d := NodeId.ofAddress "d"
    let s : Scenario := ⟨"a", [⟨"a", some ⟨1⟩⟩, ⟨"b", some ⟨2⟩⟩, ⟨"c", some ⟨3⟩⟩, ⟨"d", some ⟨4⟩⟩],
      [⟨"a", "b", ⟨5⟩⟩, ⟨"c", "d", ⟨6⟩⟩], []⟩
    let run (costs : Bool) := ((((within 30 s.mesh 0).start "watch" a ⟨9, 9, costs⟩).announce
      a).playAll [.link b c ⟨7⟩]).1
    ∃ m m', (run true).members = [⟨"watch", m, true⟩] ∧ (run false).members = [⟨"watch", m', true⟩] ∧
      m.topology.contains d = true ∧ m'.topology.contains d = true := by
  intro a b c d s run
  obtain ⟨hknown, hsize, hadmits, hb⟩ : s.unknown? = none ∧ s.mesh.size = 4 ∧
      s.mesh.AdmitsAll a [.link b c ⟨7⟩] ∧ b ∈ s.mesh.component a := by
    decide +kernel
  have hbuild : s.build = .ok ⟨s.mesh, a, []⟩ := by
    rw [Scenario.build, hknown]
    rfl
  have hplay := playAll_alike s hbuild ⟨9, 9, true⟩ ⟨9, 9, false⟩ rfl rfl
  dsimp only at hplay
  obtain ⟨-, halike, -⟩ := hplay (by rw [hsize]; decide) (by rw [hsize]; decide) "watch" 0 30
    (by rw [hsize]; decide) [.link b c ⟨7⟩] hadmits
  obtain ⟨⟨m, hm, hcourse⟩, ⟨m', hm', hcourse'⟩, hsame⟩ :=
    halike ⟨fun _ => .inl hb, trivial⟩ [.link b c ⟨7⟩] List.prefix_rfl
  have hnodes := (hsame m m' hcourse hcourse').nodes
  have hd : (run true).members.map (fun x => x.monitor.topology.contains d) = [true] := by
    decide +kernel
  rw [show (run true).members = _ from hm] at hd
  have hd : m.topology.contains d = true := by simpa using hd
  exact ⟨m, m', hm, hm', hd, hnodes d ▸ hd⟩

/-- **Without that the views differ.**  If the new end reports the link, it counts as fetched, and only
the monitor that asks for its cost learns of the node behind it.  And the node without a cost repeats
the new cost of a link to the monitor that asks for costs, as soon as something changes. -/
theorem playAll_views_differ :
    let a := NodeId.ofAddress "a"
    let b := NodeId.ofAddress "b"
    let c := NodeId.ofAddress "c"
    let d := NodeId.ofAddress "d"
    let s : Scenario := ⟨"a", [⟨"a", some ⟨1⟩⟩, ⟨"b", some ⟨2⟩⟩, ⟨"c", some ⟨3⟩⟩, ⟨"d", some ⟨4⟩⟩],
      [⟨"a", "b", ⟨5⟩⟩, ⟨"c", "d", ⟨6⟩⟩], []⟩
    let s' : Scenario := ⟨"a", [⟨"a", some ⟨1⟩⟩, ⟨"b", none⟩, ⟨"c", some ⟨3⟩⟩],
      [⟨"a", "b", ⟨5⟩⟩, ⟨"b", "c", ⟨6⟩⟩], []⟩
    let run (s : Scenario) (costs : Bool) (events : List (Event NodeId)) :=
      ((((within 30 s.mesh 0).start "watch" a ⟨9, 9, costs⟩).announce a).playAll events).1.members.map
        Member.monitor
    let event : Event NodeId := .link c b ⟨7⟩
    let events : List (Event NodeId) := [.link c b ⟨7⟩, .node c (some ⟨8⟩)]
    (s.unknown? = none ∧ s.mesh.size ≤ 9 ∧
      s.mesh.AdmitsAll a [event] ∧
      (run s true [event]).map (fun m => (m.topology.contains d, m.inbound)) = [(true, [])] ∧
      (run s false [event]).map (fun m => (m.topology.contains d, m.inbound)) = [(false, [])]) ∧
    s'.unknown? = none ∧ s'.mesh.size ≤ 9 ∧
      s'.mesh.AdmitsAll a events ∧
      (run s' true events).map (fun m => m.topology.links c) = [[(b, ⟨7⟩)]] ∧
      (run s' false events).map (fun m => m.topology.links c) = [[(b, ⟨6⟩)]] := by
  decide +kernel

end Fleet
end MeshView
