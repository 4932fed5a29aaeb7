/-
# Subscribers stay in sync

A subscriber gets a snapshot when it subscribes and the differences of every later item that
changed anything.  What a subscriber sees of a monitor is its feed: the topology, the subscribers
and the messages.  `Feed.Step` lists the four things that an action can do to a feed, and
`Monitor.feed_step` says that every action does one of them; the invariant `InSync` is preserved by
each.  Its core is the replica: whoever replays all messages of a registered subscriber, starting
from nothing, has the view of the topology.
-/

import MeshView.Monitor
import MeshView.Proofs.Topology.Batch

namespace MeshView

/-- What subscribers depend on. -/
structure Feed where
  topology : Topology
  subscribers : List Nat
  nextSubscriber : Nat
  messages : List (Nat × Diff)

namespace Feed

/-- What a subscriber got, oldest first. -/
def received (f : Feed) (s : Nat) : List Diff := (f.messages.filter (·.1 = s)).map Prod.snd

/-- A new subscriber gets the snapshot. -/
def join (f : Feed) : Feed where
  topology := f.topology
  subscribers := f.subscribers ++ [f.nextSubscriber]
  nextSubscriber := f.nextSubscriber + 1
  messages := f.messages ++ [(f.nextSubscriber, f.topology.snapshot)]

/-- The topology changes, and the differences go to every subscriber if there are any. -/
def publish (f : Feed) (c : Change) : Feed :=
  { f with
    topology := c.topology
    messages :=
      if c.diff.isEmpty then f.messages else f.messages ++ f.subscribers.map fun s => (s, c.diff) }

/-- What an action can do to a feed, with the differences that it publishes. -/
inductive Step (f : Feed) : List Diff → Feed → Prop
  | quiet : Step f [] f
  | join : Step f [] f.join
  | leave {subscribers : List Nat} (h : subscribers.Sublist f.subscribers) :
      Step f [] { f with subscribers }
  | publish {c : Change} (hwf : c.topology.WellFormed)
      (hreplay : f.topology.view.replay c.diff = c.topology.view) :
      Step f (if c.diff.isEmpty then [] else [c.diff]) (f.publish c)

/-- Numbers of subscribers are used once, and every registered subscriber that replays what it got
has the view of the topology. -/
structure InSync (f : Feed) : Prop where
  wellFormed : f.topology.WellFormed
  nodup : f.subscribers.Nodup
  known : ∀ s ∈ f.subscribers, s < f.nextSubscriber
  addressed : ∀ e ∈ f.messages, e.1 < f.nextSubscriber
  replica : ∀ s ∈ f.subscribers, View.empty.replayAll (f.received s) = f.topology.view

variable {f f' : Feed} {ds : List Diff} {s : Nat}

theorem received_publish (h : f.subscribers.Nodup) (c : Change) (s : Nat) :
    (f.publish c).received s = f.received s ++
      if s ∈ f.subscribers then (if c.diff.isEmpty then [] else [c.diff]) else [] := by
  have hhanded : ∀ xs : List Nat, xs.Nodup →
      ((xs.map fun x => (x, c.diff)).filter (·.1 = s)).map Prod.snd =
        if s ∈ xs then [c.diff] else [] := by
    intro xs hxs
    induction xs with
    | nil => rfl
    | cons x xs ih =>
      obtain ⟨hx, hxs⟩ := List.nodup_cons.1 hxs
      rw [List.map_cons, List.filter_cons]
      by_cases hs : x = s
      · subst hs
        simp [ih hxs, hx]
      · simp [ih hxs, hs, Ne.symm hs]
  unfold publish received
  dsimp only
  split
  · simp
  · rw [List.filter_append, List.map_append, hhanded f.subscribers h]

theorem received_join (h : InSync f) (s : Nat) : f.join.received s =
    if s = f.nextSubscriber then [f.topology.snapshot] else f.received s := by
  unfold join received
  dsimp only
  rw [List.filter_append, List.map_append]
  split
  · rename_i hs
    have hnone : f.messages.filter (·.1 = s) = [] := by
      refine List.filter_eq_nil_iff.2 fun e he => ?_
      have := h.addressed e he
      simp only [decide_eq_true_eq]
      omega
    rw [hnone, List.map_nil, List.nil_append, hs]
    simp
  · rename_i hs
    simp [Ne.symm hs]

namespace Step

/-- What is published is never empty. -/
theorem nonempty (hstep : Step f ds f') : ∀ d ∈ ds, d.isEmpty = false := by
  cases hstep with
  | publish hwf hreplay =>
    intro d hd
    split at hd
    · cases hd
    · rename_i hne
      rw [List.mem_singleton.1 hd]
      simpa using hne
  | _ => exact fun _ hd => nomatch hd

theorem nextSubscriber_le (hstep : Step f ds f') : f.nextSubscriber ≤ f'.nextSubscriber := by
  cases hstep with
  | join => exact Nat.le_succ _
  | _ => exact le_rfl

/-- Whoever has left does not come back under the same number. -/
theorem mem_of_mem (hstep : Step f ds f') (hs : s < f.nextSubscriber)
    (hmem : s ∈ f'.subscribers) : s ∈ f.subscribers := by
  cases hstep with
  | quiet => exact hmem
  | join =>
    rcases List.mem_append.1 hmem with hmem | hmem
    · exact hmem
    · exact absurd (List.mem_singleton.1 hmem) (Nat.ne_of_lt hs)
  | leave h => exact h.subset hmem
  | publish hwf hreplay => exact hmem

/-- A subscriber gets what is published while it is registered, and nothing else. -/
theorem received_eq (hstep : Step f ds f') (h : InSync f) (hs : s < f.nextSubscriber) :
    f'.received s = f.received s ++ if s ∈ f.subscribers then ds else [] := by
  cases hstep with
  | quiet => rw [ite_self, List.append_nil]
  | join => rw [received_join h, if_neg (Nat.ne_of_lt hs), ite_self, List.append_nil]
  | leave => rw [ite_self, List.append_nil]; rfl
  | publish hwf hreplay => exact received_publish h.nodup _ s

/-- **Every action keeps the subscribers in sync.** -/
theorem inSync (hstep : Step f ds f') (h : InSync f) : InSync f' := by
  cases hstep with
  | quiet => exact h
  | join =>
    refine ⟨h.wellFormed, ?_, fun s hs => ?_, fun e he => ?_, fun s hs => ?_⟩
    · refine h.nodup.append (List.nodup_singleton _) fun s hs hnew => ?_
      rw [List.mem_singleton.1 hnew] at hs
      exact Nat.lt_irrefl _ (h.known _ hs)
    · rcases List.mem_append.1 hs with hs | hs
      · exact Nat.lt_succ_of_lt (h.known s hs)
      · exact List.mem_singleton.1 hs ▸ Nat.lt_succ_self _
    · rcases List.mem_append.1 he with he | he
      · exact Nat.lt_succ_of_lt (h.addressed e he)
      · exact List.mem_singleton.1 he ▸ Nat.lt_succ_self _
    · rw [received_join h]
      split
      · exact h.wellFormed.snapshot_exact.replay_eq
      · rename_i hne
        refine h.replica s ((List.mem_append.1 hs).resolve_right fun hnew => ?_)
        exact hne (List.mem_singleton.1 hnew)
  | leave hsub =>
    exact ⟨h.wellFormed, h.nodup.sublist hsub, fun s hs => h.known s (hsub.subset hs),
      h.addressed, fun s hs => h.replica s (hsub.subset hs)⟩
  | @publish c hwf hreplay =>
    refine ⟨hwf, h.nodup, h.known, fun e he => ?_, fun s hs => ?_⟩
    · change e ∈ ite _ _ _ at he
      split at he
      · exact h.addressed e he
      · rcases List.mem_append.1 he with he | he
        · exact h.addressed e he
        · obtain ⟨s, hs, rfl⟩ := List.mem_map.1 he
          exact h.known s hs
    · change s ∈ f.subscribers at hs
      rw [received_publish h.nodup, if_pos hs, View.replayAll_append, h.replica s hs]
      show _ = c.topology.view
      split
      · rename_i hd
        rw [← hreplay, Diff.isEmpty_iff.1 hd]
        rfl
      · exact hreplay

end Step
end Feed

namespace Monitor

def feed (m : Monitor) : Feed := ⟨m.topology, m.subscribers, m.nextSubscriber, m.messages⟩

/-- What a subscriber got, oldest first. -/
def received (m : Monitor) (s : Nat) : List Diff := m.feed.received s

/-- The differences that an action publishes. -/
def published (m : Monitor) : Action → List Diff
  | .pump =>
    match m.inbound with
    | [] => []
    | item :: _ =>
      let d := (m.topology.applyAll item.reports).diff
      if d.isEmpty then [] else [d]
  | _ => []

/-- Only neighbour lists are fetched, and they take nothing away. -/
def FetchedGrows (m : Monitor) : Prop :=
  ∀ d, Inbound.fetched d ∈ m.inbound → ∀ r ∈ d.reports, r.Grows

section Perform
variable (m : Monitor)

theorem feed_conclude (item : Inbound) (d : Diff) : (m.conclude item d).feed = m.feed := by
  cases item <;> rfl

theorem inbound_conclude (item : Inbound) (d : Diff) : (m.conclude item d).inbound = m.inbound := by
  cases item <;> rfl

theorem feed_absorb (c : Change) : (m.absorb c).feed = m.feed.publish c := by
  unfold absorb Feed.publish
  dsimp only
  split <;> rfl

theorem inbound_absorb (c : Change) : (m.absorb c).inbound = m.inbound := by
  unfold absorb
  dsimp only
  split <;> rfl

theorem feed_finish (answer : Answer) : (m.finish answer).feed = m.feed := by
  unfold finish
  dsimp only
  split
  · rfl
  · split <;> rfl

theorem inbound_finish (answer : Answer) : (m.finish answer).inbound = m.inbound ∨
    ∃ d, m.backfill.delivery? answer = some d ∧
      (m.finish answer).inbound = m.inbound ++ [.fetched d] := by
  unfold finish
  dsimp only
  split
  · exact .inl rfl
  · rename_i d hd
    split
    · exact .inr ⟨d, hd, rfl⟩
    · exact .inl rfl

theorem discard_foldl (items : List Inbound) :
    (items.foldl discard m).feed = m.feed ∧ (items.foldl discard m).inbound = m.inbound := by
  induction items generalizing m with
  | nil => exact ⟨rfl, rfl⟩
  | cons item items ih =>
    have hitem : (m.discard item).feed = m.feed ∧ (m.discard item).inbound = m.inbound := by
      cases item <;> exact ⟨rfl, rfl⟩
    obtain ⟨hfeed, hinbound⟩ := ih (m.discard item)
    exact ⟨hfeed.trans hitem.1, hinbound.trans hitem.2⟩

theorem feed_offer (r : Report) : (m.offer r).feed = m.feed := by
  unfold offer
  split <;> rfl

theorem feed_submit (r : Report) : (m.submit r).feed = m.feed := by
  unfold submit
  dsimp only
  split <;> rfl

end Perform

variable {m : Monitor}

/-- The differences of a waiting item lead from the view before it to the view after it. -/
theorem replay_item (h : m.topology.WellFormed) (hf : m.FetchedGrows) {item : Inbound}
    (hitem : item ∈ m.inbound) : m.topology.view.replay (m.topology.applyAll item.reports).diff =
      (m.topology.applyAll item.reports).topology.view := by
  cases item with
  | external r => exact h.replay_apply r
  | submitted ticket r => exact h.replay_apply r
  | fetched d => exact (h.applyAll_accrual (hf d hitem)).replay_eq

/-- **Every action takes one step on the feed.** -/
theorem feed_step (h : m.topology.WellFormed) (hf : m.FetchedGrows) (a : Action) :
    m.feed.Step (m.published a) (m.perform a).feed := by
  cases a with
  | offer r => exact (m.feed_offer r).symm ▸ .quiet
  | submit r => exact (m.feed_submit r).symm ▸ .quiet
  | subscribe =>
    show m.feed.Step [] m.subscribe.feed
    unfold subscribe
    split
    · exact .join
    · exact .quiet
  | unsubscribe s => exact .leave List.filter_sublist
  | pump =>
    show m.feed.Step (m.published .pump) m.pump.feed
    unfold published pump
    cases hi : m.inbound with
    | nil => exact .quiet
    | cons item rest =>
      dsimp only
      rw [feed_conclude, feed_absorb]
      refine .publish (h.applyAll item.reports) (replay_item h hf ?_)
      exact hi ▸ List.mem_cons_self
  | issue => exact .quiet
  | finish answer => exact (m.feed_finish answer).symm ▸ .quiet
  | close =>
    show m.feed.Step [] m.close.feed
    rw [close, (discard_foldl _ _).1]
    exact .leave (List.nil_sublist _)

/-- What is queued as fetched was queued before, or a call just ended with it. -/
theorem mem_inbound_perform {d : Delivery} (a : Action)
    (hd : Inbound.fetched d ∈ (m.perform a).inbound) : Inbound.fetched d ∈ m.inbound ∨
      ∃ list, a = .finish (.ok list) ∧ m.backfill.running = some d.id ∧
        d.reports = list.reports d.id := by
  cases a with
  | offer r =>
    change _ ∈ (m.offer r).inbound at hd
    unfold offer at hd
    split at hd
    · exact .inl ((List.mem_append.1 hd).resolve_right (by simp))
    · exact .inl hd
  | submit r =>
    change _ ∈ (m.submit r).inbound at hd
    unfold submit at hd
    dsimp only at hd
    split at hd
    · exact .inl ((List.mem_append.1 hd).resolve_right (by simp))
    · exact .inl hd
  | subscribe =>
    change _ ∈ m.subscribe.inbound at hd
    unfold subscribe at hd
    split at hd <;> exact .inl hd
  | unsubscribe s => exact .inl hd
  | pump =>
    change _ ∈ m.pump.inbound at hd
    unfold pump at hd
    cases hi : m.inbound with
    | nil =>
      rw [hi] at hd
      exact .inl (hi ▸ hd)
    | cons item rest =>
      rw [hi] at hd
      dsimp only at hd
      rw [inbound_conclude, inbound_absorb] at hd
      exact .inl (List.mem_cons_of_mem _ hd)
  | issue => exact .inl hd
  | finish answer =>
    change _ ∈ (m.finish answer).inbound at hd
    rcases m.inbound_finish answer with he | ⟨d', hd', he⟩
    · exact .inl (he ▸ hd)
    · rw [he, List.mem_append, List.mem_singleton] at hd
      rcases hd with hd | hd
      · exact .inl hd
      · cases answer with
        | error failure => cases hd'
        | ok list =>
          obtain ⟨id, hid, rfl⟩ := Option.map_eq_some_iff.1 hd'
          cases hd
          exact .inr ⟨list, rfl, hid, rfl⟩
  | close =>
    change _ ∈ m.close.inbound at hd
    rw [close, (discard_foldl _ _).2] at hd
    cases hd

theorem FetchedGrows.perform (hf : m.FetchedGrows) (a : Action) : (m.perform a).FetchedGrows := by
  intro d hd r hr
  rcases mem_inbound_perform a hd with hd | ⟨list, -, -, hreports⟩
  · exact hf d hd r hr
  · exact NeighborList.grows_of_mem_reports (hreports ▸ hr)

/-! ## Runs -/

/-- The subscribers are in sync, and whatever waits keeps them so. -/
structure Synced (m : Monitor) : Prop where
  inSync : m.feed.InSync
  fetchedGrows : m.FetchedGrows

theorem Synced.start (localId : NodeId) (settings : Settings) :
    (start localId settings).Synced where
  inSync :=
    { wellFormed := Topology.wellFormed_root localId
      nodup := List.nodup_nil
      known := nofun
      addressed := nofun
      replica := nofun }
  fetchedGrows := nofun

theorem Synced.step (h : m.Synced) (a : Action) :
    m.feed.Step (m.published a) (m.perform a).feed :=
  feed_step h.inSync.wellFormed h.fetchedGrows a

theorem Synced.perform (h : m.Synced) (a : Action) : (m.perform a).Synced where
  inSync := (h.step a).inSync h.inSync
  fetchedGrows := h.fetchedGrows.perform a

theorem Synced.run (h : m.Synced) (actions : List Action) : (m.run actions).Synced := by
  induction actions generalizing m with
  | nil => exact h
  | cons a actions ih => exact ih (h.perform a)

/-- The differences that are published during a run, in order. -/
def publishedIn (m : Monitor) : List Action → List Diff
  | [] => []
  | a :: actions => m.published a ++ (m.perform a).publishedIn actions

/-- Nobody is registered at the end of a run who was not registered at its start, new subscribers
apart. -/
theorem Synced.mem_of_mem_run (h : m.Synced) {s : Nat} (hs : s < m.nextSubscriber)
    {actions : List Action} (hmem : s ∈ (m.run actions).subscribers) : s ∈ m.subscribers := by
  induction actions generalizing m with
  | nil => exact hmem
  | cons a actions ih =>
    have hstep := h.step a
    exact hstep.mem_of_mem hs (ih (h.perform a) (hs.trans_le hstep.nextSubscriber_le) hmem)

/-- During a run a subscriber gets non-empty differences only; one that stays registered gets
everything that is published. -/
theorem Synced.received_run (h : m.Synced) {s : Nat} (hs : s < m.nextSubscriber)
    (actions : List Action) : ∃ ds, (m.run actions).received s = m.received s ++ ds ∧
      (∀ d ∈ ds, d.isEmpty = false) ∧
      (s ∈ (m.run actions).subscribers → ds = m.publishedIn actions) := by
  induction actions generalizing m with
  | nil => exact ⟨[], (List.append_nil _).symm, nofun, fun _ => rfl⟩
  | cons a actions ih =>
    have hstep := h.step a
    have hs' := hs.trans_le hstep.nextSubscriber_le
    obtain ⟨ds, hds, hne, hall⟩ := ih (h.perform a) hs'
    refine ⟨(if s ∈ m.subscribers then m.published a else []) ++ ds, ?_, ?_, fun hmem => ?_⟩
    · show ((m.perform a).run actions).received s = _
      rw [hds, ← List.append_assoc]
      exact congrArg (· ++ ds) (hstep.received_eq h.inSync hs)
    · intro d hd
      rcases List.mem_append.1 hd with hd | hd
      · split at hd
        · exact hstep.nonempty d hd
        · cases hd
      · exact hne d hd
    · have hstays : s ∈ m.subscribers := h.mem_of_mem_run hs hmem
      rw [if_pos hstays, hall hmem]
      rfl

/-- **Subscribers stay in sync.**  Somebody subscribes at any point of any run.  It gets the
snapshot of that point first and non-empty differences from then on; as long as it is registered,
replaying all it got gives the view of the topology; and what it gets after the snapshot is what
every older subscriber gets meanwhile, while both are registered. -/
theorem run_in_sync (localId : NodeId) (settings : Settings) (before after : List Action)
    (hopen : ((start localId settings).run before).isOpen = true) :
    let m := (start localId settings).run before
    let m' := (m.perform .subscribe).run after
    let s := m.nextSubscriber
    (∃ later, m'.received s = m.topology.snapshot :: later ∧ ∀ d ∈ later, d.isEmpty = false) ∧
      (s ∈ m'.subscribers → View.empty.replayAll (m'.received s) = m'.topology.view) ∧
      (∀ a b c, m'.topology.view.links s(a, b) = some c ↔ (b, c) ∈ m'.topology.links a) ∧
      ∀ older ∈ m.subscribers, older ∈ m'.subscribers → s ∈ m'.subscribers →
        ∃ ds, m'.received s = m.topology.snapshot :: ds ∧
          m'.received older = m.received older ++ ds := by
  intro m m' s
  have h : m.Synced := (Synced.start localId settings).run before
  have hsub : (m.perform .subscribe).feed = m.feed.join := by
    show m.subscribe.feed = _
    rw [subscribe, if_pos hopen]
    rfl
  have h' : (m.perform .subscribe).Synced := h.perform .subscribe
  have hnext : (m.perform .subscribe).nextSubscriber = s + 1 := congrArg Feed.nextSubscriber hsub
  have hfirst : (m.perform .subscribe).received s = [m.topology.snapshot] := by
    rw [received, hsub, Feed.received_join h.inSync]
    exact if_pos rfl
  obtain ⟨later, hlater, hne, hall⟩ := h'.received_run (s := s) (by omega) after
  rw [hfirst] at hlater
  have hend : m'.feed.InSync := (h'.run after).inSync
  refine ⟨⟨later, hlater, hne⟩, hend.replica s,
    fun _ _ _ => hend.wellFormed.mem_links_iff_link?.symm, fun older ho ho' hs => ?_⟩
  have hold : older < s := h.inSync.known older ho
  obtain ⟨ds, hds, -, hall'⟩ := h'.received_run (s := older) (by omega) after
  have hkeep : (m.perform .subscribe).received older = m.received older := by
    rw [received, hsub, Feed.received_join h.inSync]
    exact if_neg (Nat.ne_of_lt hold)
  refine ⟨later, hlater, ?_⟩
  rw [hds, hkeep, hall' ho', hall hs]

/-- A second subscriber comes after a link was reported, and the cost of a node changes later. -/
theorem run_in_sync_second :
    let m := (start ⟨1⟩ .standard).run [.subscribe, .submit (.link ⟨1⟩ ⟨2⟩ ⟨5⟩), .pump]
    let m' := (m.perform .subscribe).run [.submit (.node ⟨2⟩ (some ⟨9⟩)), .pump]
    m.isOpen = true ∧ m.nextSubscriber = 1 ∧ m'.subscribers = [0, 1] ∧
      (m'.received 1).length = 2 ∧ View.empty.replayAll (m'.received 1) = m'.topology.view ∧
      ∃ ds, m'.received 1 = m.topology.snapshot :: ds ∧ m'.received 0 = m.received 0 ++ ds := by
  intro m m'
  have h := run_in_sync ⟨1⟩ .standard [.subscribe, .submit (.link ⟨1⟩ ⟨2⟩ ⟨5⟩), .pump]
    [.submit (.node ⟨2⟩ (some ⟨9⟩)), .pump] rfl
  have hmem : m'.subscribers = [0, 1] := by decide +kernel
  have hone : (1 : Nat) ∈ m'.subscribers := hmem ▸ by simp
  have hzero : (0 : Nat) ∈ m'.subscribers := hmem ▸ by simp
  have hold : (0 : Nat) ∈ m.subscribers := by decide +kernel
  exact ⟨rfl, rfl, hmem, by decide +kernel, h.2.1 hone, h.2.2.2 0 hold hzero hone⟩

end Monitor
end MeshView
