/-
# Sources of links

Two monitors watch the same mesh through the same events, and only one of them asks for costs.  After
every event they store the same nodes with the same links, on whatever schedules they came to rest, as
long as the source of every new link is known to them or has no other link (`Paired.course`).  A link
whose source is new makes that node count as fetched, so only the monitor that asks for its cost learns
what lies behind it; where that is something, the views differ (`Paired.differ`).
-/

import MeshView.Proofs.Monitor.Abreast

namespace MeshView

namespace Mesh

/-- The source of a link that is reported belongs to the component of the local node, or it had no
link before. -/
def SourceKnown (m : Mesh) (localId : NodeId) : Event NodeId → Prop
  | .link a b _ => m.canLink a b = true → a ∈ m.component localId ∨ m.neighbors a = []
  | _ => True

/-- The sources of all links are known when their turn comes. -/
def SourcesKnown (m : Mesh) (localId : NodeId) : List (Event NodeId) → Prop
  | [] => True
  | e :: events => m.SourceKnown localId e ∧ SourcesKnown (m.play e).1 localId events

theorem SourcesKnown.of_prefix {m : Mesh} {localId : NodeId} {played events : List (Event NodeId)}
    (h : m.SourcesKnown localId events) (hplayed : played <+: events) :
    m.SourcesKnown localId played := by
  induction played generalizing m events with
  | nil => trivial
  | cons e played ih =>
    obtain ⟨rest, rfl⟩ := hplayed
    exact ⟨h.1, ih h.2 (List.prefix_append played rest)⟩

/-- **The first event whose source is not known** comes after some whose sources are. -/
theorem exists_unknown_source {m : Mesh} {localId : NodeId} {events : List (Event NodeId)}
    (hadmits : m.AdmitsAll localId events) (hsources : ¬ m.SourcesKnown localId events) :
    ∃ known event, known ++ [event] <+: events ∧ m.SourcesKnown localId known ∧
      m.AdmitsAll localId known ∧ (m.playAll known).Admits localId event ∧
      ¬ (m.playAll known).SourceKnown localId event := by
  induction events generalizing m with
  | nil => exact absurd trivial hsources
  | cons e events ih =>
    by_cases hsource : m.SourceKnown localId e
    · obtain ⟨known, event, hprefix, hknown, hadmitted, hevent, hunknown⟩ :=
        ih hadmits.2 fun hrest => hsources ⟨hsource, hrest⟩
      exact ⟨e :: known, event, List.cons_prefix_cons.2 ⟨rfl, hprefix⟩, ⟨hsource, hknown⟩,
        ⟨hadmits.1, hadmitted⟩, hevent, hunknown⟩
    · exact ⟨[], e, List.cons_prefix_cons.2 ⟨rfl, List.nil_prefix⟩, trivial, trivial, hadmits.1,
        hsource⟩

/-- Such an event is a link, and something lies behind its source. -/
theorem exists_behind {m : Mesh} {localId : NodeId} {e : Event NodeId}
    (hsource : ¬ m.SourceKnown localId e) : ∃ a b cost y, e = .link a b cost ∧
      m.canLink a b = true ∧ a ∉ m.component localId ∧ m.Linked a y := by
  cases e with
  | node id cost => exact absurd trivial hsource
  | nodeGone id => exact absurd trivial hsource
  | linkGone a b => exact absurd trivial hsource
  | wait millis => exact absurd trivial hsource
  | link a b cost =>
    obtain ⟨hl, hunknown⟩ : m.canLink a b = true ∧ ¬ (a ∈ m.component localId ∨ m.neighbors a = []) :=
      Classical.not_imp.1 hsource
    obtain ⟨ha, hne⟩ := not_or.1 hunknown
    obtain ⟨⟨y, c⟩, hmem⟩ := List.exists_mem_of_ne_nil _ hne
    exact ⟨a, b, cost, y, rfl, hl, ha, exists_mem_neighbors_iff.1 (List.mem_map_of_mem hmem)⟩

/-- A new link to the component leads to all that its source is linked to. -/
theorem WellFormed.mem_component_addLink {m : Mesh} (h : m.WellFormed) {localId a b y : NodeId}
    (hl : m.canLink a b = true) (cost : Cost) (hb : b ∈ m.component localId) (hy : m.Linked a y) :
    y ∈ (m.addLink a b cost).component localId := by
  obtain ⟨hlocal, hpath⟩ := h.mem_component.1 hb
  have hlinked := linked_addLink hl cost
  have hreached : Relation.ReflTransGen (m.addLink a b cost).Linked localId b :=
    Relation.ReflTransGen.mono (fun x z hxz => (hlinked x z).2 (.inl hxz)) _ _ hpath
  have hwf : (m.addLink a b cost).WellFormed := h.edit (.addLink a b cost)
  refine hwf.mem_component.2 ⟨?_, ?_⟩
  · rwa [contains_congr (m.node?_addLink localId a b cost)]
  · exact (hreached.tail ((hlinked b a).2 (.inr Sym2.eq_swap))).tail ((hlinked a y).2 (.inl hy))

/-- A node that stays keeps having a cost. -/
theorem cost?_play {m : Mesh} {e : Event NodeId} {id : NodeId} (h : m.cost? id ≠ none)
    (hid : (m.play e).1.contains id = true) : (m.play e).1.cost? id ≠ none := by
  have hsame : (m.play e).1.node? id = m.node? id → (m.play e).1.cost? id ≠ none := fun heq =>
    (cost?_congr heq).symm ▸ h
  cases e with
  | wait millis => exact h
  | linkGone a b => exact hsame (m.node?_removeLink id a b)
  | link a b cost =>
    refine hsame ?_
    rw [play]
    split
    · exact m.node?_addLink id a b cost
    · rfl
  | nodeGone x =>
    refine hsame ((m.node?_removeNode x id).trans (if_neg fun he => ?_))
    have hgone : (m.play (.nodeGone x)).1.node? id = none :=
      (m.node?_removeNode x id).trans (if_pos he)
    rw [contains_eq_node?, hgone] at hid
    cases hid
  | node x cost =>
    rcases eq_or_ne x id with rfl | hne
    · obtain ⟨c, hc⟩ := Option.ne_none_iff_exists'.1 h
      show (m.setCost x cost).cost? x ≠ none
      rw [cost?_setCost m x x cost (contains_of_cost? hc), if_pos rfl]
      exact fun hnone => h (Option.or_eq_none_iff.1 hnone).2
    · exact hsame ((m.node?_setCost x id cost).trans (if_neg hne))

end Mesh

namespace Topology
variable {t : Topology} {g : Mesh}

/-- **An event whose source is known leaves a topology that resumes.** -/
theorem Mirrors.resumes (h : t.Mirrors g) {e : Event NodeId} (hsource : g.SourceKnown t.localId e)
    {r : Report} (hr : (g.play e).2 = some r)
    (hcatches : Catches t (t.apply r).topology (g.play e).1) :
    t.Resumes r (g.play e).1 t.localId where
  informed := hcatches.informed
  old a _ hold hstays := (hcatches.covered a hstays).resolve_right fun hnew => by
    rw [hold] at hnew
    exact Bool.noConfusion hnew.1
  new a _ hnew hf := by
    have hold : ∀ y, t.held? a y = none := fun y => by_contra fun hheld =>
      Bool.eq_false_iff.1 hnew (contains_of_held? hheld)
    have hfetches := h.wellFormed.fetches_of_new hnew hf
    cases e with
    | node x cost => cases hr; exact hfetches.elim
    | nodeGone x => cases hr; exact hfetches.elim
    | linkGone x y => cases hr; exact hfetches.elim
    | wait millis => cases hr
    | link x y cost =>
      by_cases hl : g.canLink x y = true
      · have hplay : g.play (.link x y cost) = (g.addLink x y cost, some (.link x y cost)) := if_pos hl
        rw [hplay] at hr ⊢
        cases hr
        obtain rfl : x = a := hfetches
        have halone : g.neighbors x = [] := (hsource hl).resolve_left fun hid =>
          Bool.eq_false_iff.1 hnew ((h.contains_iff x).2 hid)
        have hlinked : ∀ b, ¬ g.Linked x b := fun b hb => by
          have hmem := Mesh.exists_mem_neighbors_iff.2 hb
          rw [halone] at hmem
          cases hmem
        refine ⟨fun b hb => ?_, fun b c hb => ?_⟩
        · refine (h.wellFormed.linked_reportLink x y cost x b).2 (.inr ⟨?_, Mesh.ne_of_canLink hl⟩)
          exact ((Mesh.linked_addLink hl cost x b).1 hb).resolve_left (hlinked b)
        · change (t.reportLink x y cost).topology.held? x b = _ at hb
          rw [h.wellFormed.held?_reportLink] at hb
          split at hb
          · rename_i he
            obtain ⟨-, rfl, -⟩ := he
            rw [Mesh.link?_addLink x y cost hl, if_pos rfl, hb]
          · rw [hold b] at hb
            cases hb
      · rw [Mesh.play, if_neg hl] at hr
        cases hr

end Topology

/-- A report of the local node about itself marks no other node, so the topology resumes, too. -/
theorem Monitor.Tracks.resumes {g : Mesh} {localId : NodeId} {m : Monitor}
    (h : m.Tracks g localId True []) (hrest : m.Quiescent) (hg : g.WellFormed)
    (hlocal : g.contains localId = true) (honline : g.AllOnline) {r : Report}
    (hr : r ∈ g.localView localId) : m.topology.Resumes r g localId := by
  have htrue : ∀ r' ∈ [r], Topology.Truthful g localId r' := fun r' hr' =>
    ⟨localId, ⟨.root, .inl rfl⟩, List.mem_singleton.1 hr' ▸ hr⟩
  obtain ⟨hadvance, -⟩ := h.informed.faithful.applyAll_advance hg htrue
  refine ⟨(h.informed.applyAll hg htrue).loose, fun a ha hold _ => ?_, fun a ha hnew hf => ?_⟩
  · have hvisible := h.informed.faithful.visible a (Topology.contains_iff_cost?.1 hold)
    have hcovers := h.covers (Backfill.load_eq_zero_iff.2 hrest.2) hrest.1 hold ha
      (honline a (hvisible.contains hg hlocal))
    exact hcovers.mono hadvance.keeps
  · have hfetches := h.informed.faithful.wellFormed.fetches_of_new hnew hf
    exact absurd (Topology.eq_of_fetches hr hfetches).symm ha

namespace Monitor
variable {g : Mesh} {localId : NodeId} {sure : NodeId → Prop} {m m' n n' : Monitor}

/-! ## An announcement -/

theorem abreast_start {size : Nat} (localId : NodeId) (sure : NodeId → Prop)
    {settings' settings : Settings} (hcosts' : settings'.fetchCosts = false)
    (hcosts : settings.fetchCosts = true) (hcapacity' : size ≤ settings'.fetchQueueCapacity)
    (hcapacity : size ≤ settings.fetchQueueCapacity) :
    Abreast localId sure size ((start localId settings').perform .subscribe)
      ((start localId settings).perform .subscribe) where
  idle' := idle_start localId hcapacity'
  idle := idle_start localId hcapacity
  fetchCosts' := hcosts'
  fetchCosts := hcosts
  wellFormed := Topology.wellFormed_root localId
  localId_eq := rfl
  shadows := (Topology.wellFormed_root localId).shadows
  allFetched _ hne hid := absurd (Topology.contains_root_iff.1 hid).symm hne

/-- **An announcement leaves them side by side**, on any schedules. -/
theorem Abreast.course (h : Abreast localId sure g.size m' m) (hatRest : m.AtRest g localId)
    (hg : g.WellFormed) (hlocal : g.contains localId = true) (honline : g.AllOnline)
    (hsure : ∀ a, sure a → a ≠ localId → g.contains a = true → g.cost? a ≠ none)
    {reports : List Report} (hreports : ∀ r ∈ reports, r ∈ g.localView localId)
    (hcourse' : Course (g.telling reports) m' n') (hcourse : Course (g.telling reports) m n) :
    Abreast localId sure g.size n' n := by
  induction reports generalizing m' m with
  | nil =>
    cases hcourse'
    cases hcourse
    exact h
  | cons r reports ih =>
    cases hcourse' with
    | cons hrests' hrest' =>
      cases hcourse with
      | cons hrests hrest =>
        have hr := hreports r List.mem_cons_self
        have hresumes := hatRest.tracks.resumes hatRest.quiescent hg hlocal honline hr
        have hnext := h.rests le_rfl hg hlocal honline hsure hresumes hrests' hrests
        exact ih hnext (hatRest.rests hg hlocal hr hrests)
          (fun r' hr' => hreports r' (List.mem_cons_of_mem _ hr')) hrest' hrest

/-! ## Events -/

/-- Two monitors side by side, of which the second one mirrors the mesh.  The sure nodes that are left
have costs. -/
structure Paired (g : Mesh) (localId : NodeId) (sure : NodeId → Prop) (m' m : Monitor) : Prop where
  abreast : Abreast localId sure g.size m' m
  mirroring : m.Mirroring g localId
  sure_cost : ∀ a, sure a → a ≠ localId → g.contains a = true → g.cost? a ≠ none

section Event
variable (h : Paired g localId sure m' m) (hg : g.WellFormed) (honline : g.AllOnline)
  {event : Event NodeId} (hadmits : g.Admits localId event)
include h

/-- Before they take the report of an event. -/
theorem Paired.abreast_play (event : Event NodeId) :
    Abreast localId sure (g.play event).1.size m' m ∧
    ∀ a, sure a → a ≠ localId → (g.play event).1.contains a = true →
      (g.play event).1.cost? a ≠ none :=
  ⟨h.abreast.mono (g.size_play_le event), fun a hs ha hid =>
    Mesh.cost?_play (h.sure_cost a hs ha (Mesh.contains_of_play hid)) hid⟩

include hg honline hadmits

/-- Either the local node is still there, and the second topology catches the mesh, or nothing is
stored any more. -/
theorem Paired.catches_or_gone {r : Report} (hr : (g.play event).2 = some r) :
    ((g.play event).1.contains localId = true ∧
      m.topology.Catches (m.topology.apply r).topology (g.play event).1) ∨
    ∀ id, ¬ (m.topology.apply r).topology.contains id = true := by
  have hmirrors := h.mirroring.mirrors
  have hlocalId := h.mirroring.localId_eq
  rcases hmirrors.play hg honline (hlocalId.symm ▸ hadmits) hr with
    ⟨hlocal, hcatches⟩ | ⟨hgone, hempty⟩
  · exact .inl ⟨hlocalId ▸ hlocal, hcatches⟩
  · refine .inr fun id hid => ?_
    rw [hempty.contains_iff, (hg.play event).mem_component,
      (hmirrors.wellFormed.apply_sound r).localId_eq, hgone] at hid
    exact Bool.false_ne_true hid.1

/-- **An event whose source is known leaves them paired**, on any schedules. -/
theorem Paired.rests (hsource : g.SourceKnown localId event)
    (hrests' : Rests (g.play event).1.answer ((g.play event).2.elim m' m'.offer) n')
    (hrests : Rests (g.play event).1.answer ((g.play event).2.elim m m.offer) n) :
    Paired (g.play event).1 localId sure n' n := by
  obtain ⟨habreast, hsure⟩ := h.abreast_play event
  refine ⟨?_, h.mirroring.rests hg honline hadmits hrests, hsure⟩
  cases hr : (g.play event).2 with
  | none =>
    rw [hr] at hrests' hrests
    rw [h.abreast.idle'.quiescent.rests_iff.1 hrests', h.abreast.idle.quiescent.rests_iff.1 hrests]
    exact habreast
  | some r =>
    rw [hr] at hrests' hrests
    have hlocalId := h.mirroring.localId_eq
    rcases h.catches_or_gone hg honline hadmits hr with ⟨hlocal, hcatches⟩ | hnone
    · have hresumes := h.mirroring.mirrors.resumes (hlocalId.symm ▸ hsource) hr hcatches
      rw [hlocalId] at hresumes
      exact habreast.rests le_rfl (hg.play event) hlocal (honline.play event) hsure hresumes hrests'
        hrests
    · have hafter := habreast.pump_gone hnone
      rw [hafter.idle'.quiescent.rests_iff.1 (h.abreast.idle'.rests_offer.1 hrests'),
        hafter.idle.quiescent.rests_iff.1 (h.abreast.idle.rests_offer.1 hrests)]
      exact hafter

/-- Whatever the source is, both come to rest on the schedule of a fleet. -/
theorem Paired.settle_offer {r : Report} (hr : (g.play event).2 = some r) {e' e : Mesh}
    (he' : e'.sites = (g.play event).1.sites) (he : e.sites = (g.play event).1.sites) {rounds : Nat}
    (hrounds : (g.play event).1.extent < rounds) : ∃ k' d' k d,
      (m'.offer r).settle Mesh.responder (rounds + 1) e' = (k', d') ∧
      (m.offer r).settle Mesh.responder (rounds + 1) e = (k, d) ∧
      d'.sites = (g.play event).1.sites ∧ d.sites = (g.play event).1.sites ∧
      Rests (g.play event).1.answer (m'.offer r) k' ∧
      Rests (g.play event).1.answer (m.offer r) k := by
  obtain ⟨habreast, -⟩ := h.abreast_play event
  rcases h.catches_or_gone hg honline hadmits hr with ⟨hlocal, hcatches⟩ | hnone
  · exact habreast.settle_offer rounds le_rfl (hg.play event) hlocal (honline.play event)
      (h.mirroring.localId_eq ▸ hcatches.informed) he' he hrounds
  · have hafter := h.abreast.pump_gone hnone
    obtain ⟨hwanted', hwanted⟩ := h.abreast.wanted_gone hnone
    exact ⟨_, e', _, e, h.abreast.idle'.settle_offer hwanted' rounds e',
      h.abreast.idle.settle_offer hwanted rounds e, he', he,
      h.abreast.idle'.rests_offer.2 (hafter.idle'.quiescent.rests_iff.2 rfl),
      h.abreast.idle.rests_offer.2 (hafter.idle.quiescent.rests_iff.2 rfl)⟩

/-- **A source that is not known drives them apart**: only the monitor that asks for its cost learns
of what lies behind it. -/
theorem Paired.differ {a b y : NodeId} {cost : Cost} (hevent : event = .link a b cost)
    (hl : g.canLink a b = true) (ha : a ∉ g.component localId) (hy : g.Linked a y)
    (hrests' : Rests (g.play event).1.answer ((g.play event).2.elim m' m'.offer) n')
    (hrests : Rests (g.play event).1.answer ((g.play event).2.elim m m.offer) n) :
    n.topology.contains y = true ∧ n'.topology.contains y = false := by
  have hmirrors := h.mirroring.mirrors
  have hlocalId := h.mirroring.localId_eq
  have hmirroring := h.mirroring.rests hg honline hadmits hrests
  subst hevent
  have hplay : g.play (.link a b cost) = (g.addLink a b cost, some (.link a b cost)) := if_pos hl
  have hb : b ∈ g.component localId := (hadmits hl).resolve_left ha
  rw [hplay] at hrests' hmirroring
  constructor
  · rw [hmirroring.mirrors.contains_iff, hmirroring.localId_eq]
    exact hg.mem_component_addLink hl cost hb hy
  · obtain ⟨hwanted', hstored⟩ := h.abreast.wanted_link (a := a)
      ((hmirrors.contains_iff b).2 (hlocalId.symm ▸ hb)) cost
    have hidle' := (h.abreast.idle'.pump_idle hwanted').1
    rw [hidle'.quiescent.rests_iff.1 (h.abreast.idle'.rests_offer.1 hrests')]
    -- whatever leads to the source would make it part of the component
    have hback : y ∉ g.component localId := fun hmem => by
      obtain ⟨hlocal, hpath⟩ := hg.mem_component.1 hmem
      refine ha (hg.mem_component.2 ⟨hlocal, hpath.tail ?_⟩)
      rw [Mesh.Linked, hg.symm]
      exact hy
    refine Bool.eq_false_iff.2 fun hid => ?_
    rcases hstored y hid with (rfl | rfl) | hold
    · exact hy (hg.loopless a)
    · exact hback hb
    · exact hback (hlocalId ▸ (hmirrors.contains_iff y).1 hold)

end Event

/-- **Events whose sources are known leave them paired**, on any schedules. -/
theorem Paired.course (h : Paired g localId sure m' m) (hg : g.WellFormed) (honline : g.AllOnline)
    {events : List (Event NodeId)} (hadmits : g.AdmitsAll localId events)
    (hsources : g.SourcesKnown localId events) (hcourse' : Course (g.happenings events) m' n')
    (hcourse : Course (g.happenings events) m n) : Paired (g.playAll events) localId sure n' n := by
  induction events generalizing g m' m with
  | nil =>
    cases hcourse'
    cases hcourse
    exact h
  | cons event events ih =>
    cases hcourse' with
    | cons hrests' hrest' =>
      cases hcourse with
      | cons hrests hrest =>
        exact ih (h.rests hg honline hadmits.1 hsources.1 hrests' hrests) (hg.play event)
          (honline.play event) hadmits.2 hsources.2 hrest' hrest

/-- **After the first event whose source is not known they differ**, on any schedules. -/
theorem Paired.course_differ (h : Paired g localId sure m' m) (hg : g.WellFormed)
    (honline : g.AllOnline) {known : List (Event NodeId)} {event : Event NodeId}
    (hadmits : g.AdmitsAll localId known) (hsources : g.SourcesKnown localId known)
    (hadmits' : (g.playAll known).Admits localId event) {a b y : NodeId} {cost : Cost}
    (hevent : event = .link a b cost) (hl : (g.playAll known).canLink a b = true)
    (ha : a ∉ (g.playAll known).component localId) (hy : (g.playAll known).Linked a y)
    (hcourse' : Course (g.happenings (known ++ [event])) m' n')
    (hcourse : Course (g.happenings (known ++ [event])) m n) :
    n.topology.contains y = true ∧ n'.topology.contains y = false := by
  rw [Mesh.happenings_append] at hcourse' hcourse
  obtain ⟨k', hfirst', hlast'⟩ := hcourse'.exists_between
  obtain ⟨k, hfirst, hlast⟩ := hcourse.exists_between
  have hpaired := h.course hg honline hadmits hsources hfirst' hfirst
  cases hlast' with
  | cons hrests' hnil' =>
    cases hlast with
    | cons hrests hnil =>
      cases hnil'
      cases hnil
      exact hpaired.differ (hg.playAll known) (honline.playAll known) hadmits' hevent hl ha hy
        hrests' hrests

/-- Two monitors are at rest, and they store the same nodes and list the same links; the links between
sure nodes have the same costs.  What the second one knows of the costs of nodes, the first one knows,
too. -/
structure Alike (sure : NodeId → Prop) (m m' : Monitor) : Prop where
  quiescent : m.Quiescent
  quiescent' : m'.Quiescent
  nodes : ∀ id, m.topology.contains id = m'.topology.contains id
  links : ∀ a b, (∃ c, (b, c) ∈ m.topology.links a) ↔ ∃ c, (b, c) ∈ m'.topology.links a
  sureLinks : ∀ a b c, sure a → sure b → ((b, c) ∈ m.topology.links a ↔ (b, c) ∈ m'.topology.links a)
  costs : ∀ id c, m'.topology.cost? id = some (some c) → m.topology.cost? id = some (some c)

theorem Abreast.alike {size : Nat} (h : Abreast localId sure size m' m) : m.Alike sure m' := by
  obtain ⟨hidle', hidle, -, -, hwf, -, hshadows, -⟩ := h
  have hlisted : ∀ {t : Topology}, t.WellFormed → ∀ a b,
      (∃ c, (b, c) ∈ t.links a) ↔ t.Linked a b := fun ht a b => by
    simp only [ht.mem_links_iff_link?, Topology.Linked, Option.ne_none_iff_exists']
  refine ⟨hidle.quiescent, hidle'.quiescent, fun id => (hshadows.contains_eq id).symm,
    fun a b => ?_, fun a b c ha hb => ?_, hshadows.cost⟩
  · rw [hlisted hwf, hlisted hshadows.wellFormed, hshadows.linked_eq hwf]
  · rw [hwf.mem_links_iff_link?, hshadows.wellFormed.mem_links_iff_link?, hshadows.link?_eq hwf ha hb]

end Monitor
end MeshView
