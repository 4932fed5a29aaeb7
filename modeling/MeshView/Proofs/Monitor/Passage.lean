/-
# What passes through the queue of a monitor

Three producers share one queue, and only one of them is throttled: an external report takes a permit,
which travels with it and comes back once it has been applied and published, or given up.  So at any
moment a permit is free, waits in the queue, is in hand, or is with a sender (`Books.permits`), and an
external report can be refused although nothing waits (`run_permit_in_hand`).

A drop takes effect when the pump yields next.  From then on nothing is applied or published
(`Ended.run`), and the senders who had a permit at the drop are the only ones who may have succeeded
meanwhile (`Dropped.run`).
-/

import MeshView.Proofs.Monitor.Turn

namespace MeshView

namespace Monitor
variable {m : Monitor} {limit : Nat}

/-- The only reply under a ticket is the difference that its report made at its place. -/
theorem Ledger.mem_replies_iff {t : Topology} {came left right : List Inbound} {ticket : Nat}
    {r : Report} {done : List Inbound} (h : m.Ledger t limit came done)
    (hdone : done = left ++ .submitted ticket r :: right) {d : Diff} : (ticket, d) ∈ m.replies ↔
      d = ((t.run (left.flatMap Inbound.reports)).apply r).diff := by
  obtain ⟨refused, hreplies, -, -⟩ := h.replies
  have hnodup : (m.replies.map Prod.fst).Nodup := by
    have hall : (m.replies.map Prod.fst ++ m.inbound.filterMap Inbound.ticket?).Nodup :=
      h.tickets ▸ List.nodup_range
    exact hall.of_append_left
  have hmem : (ticket, ((t.run (left.flatMap Inbound.reports)).apply r).diff) ∈ m.replies := by
    rw [hreplies, hdone, Topology.answers_append]
    refine List.mem_append_left _ (List.mem_append_right _ ?_)
    exact List.mem_append_left _ List.mem_cons_self
  constructor
  · intro hd
    exact congrArg Prod.snd (List.inj_on_of_nodup_map hnodup hd hmem rfl)
  · rintro rfl
    exact hmem

end Monitor

namespace Engine
variable {e : Engine} {t : Topology} {limit : Nat} {came done : List Inbound}

/-! ## Permits -/

/-- The external reports that have a permit: in the queue, in hand, and with their senders. -/
def permitted (e : Engine) : Nat :=
  e.monitor.inbound.countP Inbound.isExternal + e.pump.item?.toList.countP Inbound.isExternal +
    e.handed.length + e.held.length

/-- Every permit is free or taken. -/
theorem Books.permits (h : e.Books t limit came done) : e.monitor.permits + e.permitted = limit := by
  have hslots : e.monitor.permits + e.handed.length + e.held.length + e.pump.permits +
      (e.pump.unapplied ++ e.monitor.inbound).countP Inbound.isExternal = limit := h.ledger.slots_eq
  have hitem : e.pump.permits + e.pump.unapplied.countP Inbound.isExternal =
      e.pump.item?.toList.countP Inbound.isExternal := by
    cases e.pump with
    | asleep => rfl
    | awake => rfl
    | taken item => exact Nat.zero_add _
    | applied item d ids => cases item <;> rfl
    | publishing item d subscribers ids => cases item <;> rfl
  rw [List.countP_append] at hslots
  rw [permitted]
  omega

theorem Books.accepts_iff (h : e.Books t limit came done) :
    e.accepts = true ↔ e.dropped = false ∧ e.permitted < limit := by
  rw [accepts, Bool.and_eq_true, decide_eq_true_iff, Bool.not_eq_true', ← h.permits]
  exact and_congr_right fun _ => ⟨fun h => by omega, fun h => by omega⟩

/-- The step is one of a sender. -/
def Step.isSender : Step → Bool
  | .offer _ | .send _ | .resume _ | .enqueue _ | .leave _ | .forgo _ => true
  | _ => false

theorem exists_giveBack_eq (e : Engine) : ∃ permits line handed,
    e.giveBack = { e with monitor := { e.monitor with permits }, line, handed } := by
  rw [giveBack]
  split <;> exact ⟨_, _, _, rfl⟩

/-- Senders touch nothing but permits and the end of the queue. -/
theorem sender_eq {a : Step} (ha : a.isSender = true) : ∃ permits inbound line handed held,
    e.perform a =
      { e with monitor := { e.monitor with permits, inbound }, line, handed, held } := by
  cases a with
  | offer r =>
    rw [perform, offer]
    split <;> exact ⟨_, _, _, _, _, rfl⟩
  | send r =>
    rw [perform, send]
    split
    · exact ⟨_, _, _, _, _, rfl⟩
    · split <;> exact ⟨_, _, _, _, _, rfl⟩
  | resume place =>
    rw [perform, resume]
    split
    · exact ⟨_, _, _, _, _, rfl⟩
    · dsimp only
      split
      · obtain ⟨permits, line, handed, hgive⟩ :=
          exists_giveBack_eq { e with handed := e.handed.eraseIdx place }
        exact ⟨permits, _, line, handed, _, hgive⟩
      · exact ⟨_, _, _, _, _, rfl⟩
  | enqueue place =>
    rw [perform, enqueue]
    split
    · exact ⟨_, _, _, _, _, rfl⟩
    · dsimp only
      split
      · exact ⟨_, _, _, _, _, rfl⟩
      · obtain ⟨permits, line, handed, hgive⟩ :=
          exists_giveBack_eq { e with held := e.held.eraseIdx place }
        exact ⟨permits, _, line, handed, _, hgive⟩
  | leave place => exact ⟨_, _, _, _, _, rfl⟩
  | forgo place =>
    rw [perform, forgo]
    split
    · exact ⟨_, _, _, _, _, rfl⟩
    · obtain ⟨permits, line, handed, hgive⟩ :=
        exists_giveBack_eq { e with handed := e.handed.eraseIdx place }
      exact ⟨permits, _, line, handed, _, hgive⟩
  | _ => cases ha

/-- Nobody but a sender, an external report that has been published, and a drop touches the permits. -/
theorem permits_perform {a : Step} (ha : a.isSender = false) (hdrop : a ≠ .drop)
    (hyield : a = .yield → e.dropped = false)
    (hpump : a = .pump → ∀ item ∈ e.pump.item?, item.isExternal = false) :
    (e.perform a).monitor.permits = e.monitor.permits ∧ (e.perform a).line = e.line ∧
      (e.perform a).handed = e.handed ∧ (e.perform a).held = e.held := by
  cases a with
  | submit r =>
    refine ⟨?_, rfl, rfl, rfl⟩
    show (e.monitor.submit r).permits = _
    rw [Monitor.submit]
    split <;> rfl
  | subscribe =>
    rw [perform, Monitor.subscribe]
    split
    · exact ⟨rfl, rfl, rfl, rfl⟩
    · split <;> exact ⟨rfl, rfl, rfl, rfl⟩
  | unsubscribe s => exact ⟨rfl, rfl, rfl, rfl⟩
  | wake =>
    rw [perform]
    split <;> exact ⟨rfl, rfl, rfl, rfl⟩
  | pump =>
    rw [perform, advance]
    split
    case h_2 => split <;> exact ⟨rfl, rfl, rfl, rfl⟩
    case h_7 item d hconcluded =>
      have hitem : item.isExternal = false := hpump rfl item (by rw [hconcluded]; rfl)
      cases item with
      | external r => cases hitem
      | submitted ticket r => exact ⟨rfl, rfl, rfl, rfl⟩
      | fetched delivery => exact ⟨rfl, rfl, rfl, rfl⟩
    all_goals exact ⟨rfl, rfl, rfl, rfl⟩
  | yield =>
    rw [perform, yield, hyield rfl]
    split <;> exact ⟨rfl, rfl, rfl, rfl⟩
  | issue => exact ⟨rfl, rfl, rfl, rfl⟩
  | finish answer =>
    obtain ⟨backfill, hfinish⟩ := e.monitor.finish_eq answer
    refine ⟨?_, rfl, rfl, rfl⟩
    show (e.monitor.finish answer).permits = _
    rw [hfinish]
  | drop => exact absurd rfl hdrop
  | _ => cases ha

/-! ## After the drop -/

/-- The pump has ended, or is asleep and will not be woken. -/
structure Ended (e : Engine) : Prop where
  dropped : e.dropped = true
  asleep : e.pump = .asleep

/-- Whatever happens then, nothing is applied or published. -/
theorem Ended.perform (h : e.Ended) (a : Step) : (e.perform a).Ended ∧
    (e.perform a).monitor.topology = e.monitor.topology ∧
    (e.perform a).monitor.messages = e.monitor.messages ∧ e.applied a = [] := by
  by_cases hsender : a.isSender = true
  · obtain ⟨permits, inbound, line, handed, held, heq⟩ := e.sender_eq hsender
    rw [heq]
    exact ⟨⟨h.dropped, h.asleep⟩, rfl, rfl, by cases a <;> first | rfl | cases hsender⟩
  cases a with
  | submit r =>
    refine ⟨⟨h.dropped, h.asleep⟩, ?_, ?_, rfl⟩
    · show (e.monitor.submit r).topology = _
      rw [Monitor.submit]
      split <;> rfl
    · show (e.monitor.submit r).messages = _
      rw [Monitor.submit]
      split <;> rfl
  | subscribe =>
    have hrefused : e.perform .subscribe = e := by rw [Engine.perform, h.dropped]; rfl
    rw [hrefused]
    exact ⟨h, rfl, rfl, rfl⟩
  | unsubscribe s => exact ⟨⟨h.dropped, h.asleep⟩, rfl, rfl, rfl⟩
  | wake =>
    have hrefused : e.perform .wake = e := by rw [Engine.perform, h.dropped]; rfl
    rw [hrefused]
    exact ⟨h, rfl, rfl, rfl⟩
  | pump =>
    have hstill : e.perform .pump = e := by rw [Engine.perform, advance, h.asleep]
    rw [hstill, applied, h.asleep]
    exact ⟨h, rfl, rfl, rfl⟩
  | yield =>
    have hclosed : e.perform .yield = { e with monitor := e.monitor.close, pump := .asleep } := by
      rw [Engine.perform, yield, h.dropped, h.asleep]
      rfl
    obtain ⟨-, htopology, hmessages, -⟩ := e.monitor.close_eq
    rw [hclosed]
    exact ⟨⟨h.dropped, rfl⟩, htopology, hmessages, rfl⟩
  | issue => exact ⟨⟨h.dropped, h.asleep⟩, rfl, rfl, rfl⟩
  | finish answer =>
    obtain ⟨backfill, hfinish⟩ := e.monitor.finish_eq answer
    have heq : e.perform (.finish answer) = { e with monitor := e.monitor.finish answer } := rfl
    rw [heq, hfinish]
    exact ⟨⟨h.dropped, h.asleep⟩, rfl, rfl, rfl⟩
  | drop => exact ⟨⟨rfl, h.asleep⟩, rfl, rfl, rfl⟩
  | _ => exact absurd rfl hsender

theorem Ended.run (h : e.Ended) (steps : List Step) :
    (e.run steps).monitor.topology = e.monitor.topology ∧
      (e.run steps).monitor.messages = e.monitor.messages ∧ e.log applied steps = [] := by
  induction steps generalizing e with
  | nil => exact ⟨rfl, rfl, rfl⟩
  | cons a steps ih =>
    obtain ⟨hended, htopology, hmessages, hnothing⟩ := h.perform a
    obtain ⟨htopology', hmessages', hrest⟩ := ih hended
    refine ⟨htopology'.trans htopology, hmessages'.trans hmessages, ?_⟩
    rw [log, hnothing, hrest]
    rfl

/-- Only a drop drops the monitor. -/
theorem dropped_perform {a : Step} (ha : a ≠ .drop) : (e.perform a).dropped = e.dropped := by
  by_cases hsender : a.isSender = true
  · obtain ⟨permits, inbound, line, handed, held, heq⟩ := e.sender_eq hsender
    rw [heq]
  cases a with
  | submit r => rfl
  | subscribe =>
    rw [perform]
    split <;> rfl
  | unsubscribe s => rfl
  | wake =>
    rw [perform]
    split <;> rfl
  | pump =>
    rw [perform, advance]
    split
    case h_2 => split <;> rfl
    case h_7 item d _ => exact (conclude_eq { e with pump := .awake } item d).2.1
    all_goals rfl
  | yield =>
    rw [perform, yield]
    split
    · rfl
    · split <;> rfl
  | issue => rfl
  | finish answer => rfl
  | drop => exact absurd rfl ha
  | _ => exact absurd rfl hsender

theorem dropped_run (e : Engine) (steps : List Step) :
    (e.run steps).dropped = true ↔ e.dropped = true ∨ .drop ∈ steps := by
  induction steps generalizing e with
  | nil => simp [run]
  | cons a steps ih =>
    refine (ih (e.perform a)).trans ?_
    by_cases ha : a = .drop
    · subst ha
      simp [perform]
    · simp [dropped_perform ha, Ne.symm ha]

/-- The monitor was dropped, nobody waits, and some senders may still have a permit. -/
structure Dropped (held : List Report) (e : Engine) : Prop where
  dropped : e.dropped = true
  line : e.line = []
  held_sublist : e.held.Sublist held

theorem Dropped.accepts_eq {held : List Report} (h : e.Dropped held) : e.accepts = false := by
  rw [accepts, h.dropped]
  rfl

theorem Dropped.giveBack {held : List Report} (h : e.Dropped held) : e.giveBack.Dropped held := by
  rw [Engine.giveBack, h.line]
  exact ⟨h.dropped, rfl, h.held_sublist⟩

/-- Nobody gets a permit any more. -/
theorem Dropped.perform {held : List Report} (h : e.Dropped held) (a : Step) :
    (e.perform a).Dropped held := by
  cases a with
  | offer r =>
    rw [Engine.perform, offer, h.accepts_eq]
    exact h
  | send r =>
    rw [Engine.perform, send, h.accepts_eq, h.dropped]
    exact h
  | resume place =>
    rw [Engine.perform, resume]
    split
    · exact h
    · rw [if_pos h.dropped]
      exact Dropped.giveBack ⟨h.dropped, h.line, h.held_sublist⟩
  | enqueue place =>
    have hrest := (e.held.eraseIdx_sublist place).trans h.held_sublist
    rw [Engine.perform, enqueue]
    split
    · exact h
    · dsimp only
      split
      · exact ⟨h.dropped, h.line, hrest⟩
      · exact Dropped.giveBack ⟨h.dropped, h.line, hrest⟩
  | leave place =>
    refine ⟨h.dropped, ?_, h.held_sublist⟩
    show e.line.eraseIdx place = []
    rw [h.line]
    rfl
  | forgo place =>
    rw [Engine.perform, forgo]
    split
    · exact h
    · exact Dropped.giveBack ⟨h.dropped, h.line, h.held_sublist⟩
  | submit r => exact ⟨h.dropped, h.line, h.held_sublist⟩
  | subscribe =>
    rw [Engine.perform, h.dropped]
    exact h
  | unsubscribe s => exact ⟨h.dropped, h.line, h.held_sublist⟩
  | wake =>
    rw [Engine.perform, h.dropped]
    exact h
  | pump =>
    rw [Engine.perform, advance]
    split
    case h_1 => exact h
    case h_2 => split <;> exact ⟨h.dropped, h.line, h.held_sublist⟩
    case h_7 item d _ =>
      cases item with
      | external r => exact Dropped.giveBack ⟨h.dropped, h.line, h.held_sublist⟩
      | submitted ticket r => exact ⟨h.dropped, h.line, h.held_sublist⟩
      | fetched delivery => exact ⟨h.dropped, h.line, h.held_sublist⟩
    all_goals exact ⟨h.dropped, h.line, h.held_sublist⟩
  | yield =>
    rw [Engine.perform, yield]
    split
    · exact h
    · split <;> exact ⟨h.dropped, h.line, h.held_sublist⟩
  | issue => exact ⟨h.dropped, h.line, h.held_sublist⟩
  | finish answer => exact ⟨h.dropped, h.line, h.held_sublist⟩
  | drop => exact ⟨rfl, rfl, h.held_sublist⟩

theorem Dropped.run {held : List Report} (h : e.Dropped held) (steps : List Step) :
    (e.run steps).Dropped held := by
  induction steps generalizing e with
  | nil => exact h
  | cons a steps ih => exact ih (h.perform a)

/-- So whoever offers or sends then fails at once. -/
theorem Dropped.refuses {held : List Report} (h : e.Dropped held) (r : Report) :
    e.perform (.offer r) = e ∧ e.perform (.send r) = e ∧ e.answered (.offer r) = [(r, false)] ∧
      e.answered (.send r) = [(r, false)] := by
  refine ⟨?_, ?_, ?_, ?_⟩
  · rw [Engine.perform, offer, h.accepts_eq]
    rfl
  · rw [Engine.perform, send, h.accepts_eq, h.dropped]
    rfl
  · rw [answered, h.accepts_eq]
    rfl
  · rw [answered, h.dropped]
    rfl

theorem dropped_drop (e : Engine) : (e.perform .drop).Dropped e.held := ⟨rfl, rfl, .refl _⟩

/-- A send succeeds with the step that queues the report, as long as the pump has not ended. -/
theorem mem_answered_iff (r : Report) (a : Step) :
    ((r, true) ∈ e.answered a ↔ .external r ∈ e.entered a) ∧
      ((r, true) ∈ e.answered a → r ∈ e.held ∧ e.monitor.isOpen = true) := by
  have hneither : (r, true) ∉ e.answered a → .external r ∉ e.entered a →
      ((r, true) ∈ e.answered a ↔ .external r ∈ e.entered a) ∧
        ((r, true) ∈ e.answered a → r ∈ e.held ∧ e.monitor.isOpen = true) :=
    fun hanswered hentered => ⟨iff_of_false hanswered hentered, fun h => absurd h hanswered⟩
  cases a with
  | enqueue place =>
    rw [answered, entered]
    cases hplace : e.held[place]? with
    | none => simp
    | some r' =>
      have hmem : r' ∈ e.held := List.mem_of_getElem? hplace
      cases hopen : e.monitor.isOpen with
      | true => simpa using fun h => h ▸ hmem
      | false => simp
  | offer r' =>
    refine hneither ?_ List.not_mem_nil
    rw [answered]
    split <;> simp
  | send r' =>
    refine hneither ?_ List.not_mem_nil
    rw [answered]
    split <;> simp
  | resume place =>
    refine hneither ?_ List.not_mem_nil
    rw [answered]
    split <;> simp
  | drop => exact hneither (by simp [answered]) List.not_mem_nil
  | submit r' =>
    refine hneither List.not_mem_nil ?_
    rw [entered, Monitor.entered]
    split <;> simp
  | finish answer =>
    refine hneither List.not_mem_nil ?_
    rw [entered, Monitor.entered]
    split <;> simp
  | _ => exact hneither List.not_mem_nil List.not_mem_nil

/-! ## All runs -/

/-- What came in was applied, is in hand, was lost when the pump ended, or waits. -/
theorem Books.came_eq (h : e.Books t limit came done) : ∃ lost,
    came = done ++ e.pump.unapplied ++ lost ++ e.monitor.inbound ∧
      (e.monitor.isOpen = true → lost = []) := by
  obtain ⟨lost, hqueue, hlost⟩ := h.ledger.queue
  have hqueue : came = done ++ lost ++ (e.pump.unapplied ++ e.monitor.inbound) := hqueue
  refine ⟨lost, ?_, hlost⟩
  cases hopen : e.monitor.isOpen with
  | true => rw [hqueue, hlost hopen, List.append_nil, List.append_nil, List.append_assoc]
  | false =>
    rw [hqueue, h.ended hopen]
    simp [Pump.unapplied]

/-- A monitor that was not dropped applies everything that waits, once the pump is left alone. -/
theorem Books.drained (h : e.Books t limit came done) (hkept : e.dropped = false) : ∃ n,
    let e' := e.run (.wake :: List.replicate n .pump)
    e'.pump = .awake ∧ e'.monitor.inbound = [] ∧
      e'.monitor.topology = t.run (came.flatMap Inbound.reports) := by
  have hwoken : (e.perform .wake).pump ≠ .asleep := by
    rw [Engine.perform, hkept]
    by_cases hasleep : e.pump = .asleep
    · simp [hasleep]
    · simp [hasleep]
  obtain ⟨items, e₁, hdone, hawake, -⟩ := exists_reaches_awake hwoken
  obtain ⟨more, e', hempty, hawake', hinbound⟩ := exists_reaches_empty hawake
  obtain ⟨n, hrun, -⟩ := hdone.trans hempty
  have hrun : e.run (.wake :: List.replicate n .pump) = e' := hrun
  have hbooks := h.run (.wake :: List.replicate n .pump)
  have hnothing : e.log entered (.wake :: List.replicate n .pump) = [] := log_entered_pumps _ n
  have hkept' : e'.dropped = false := by
    rw [← hrun, ← Bool.not_eq_true, dropped_run]
    simp [hkept]
  rw [hrun, hnothing, List.append_nil] at hbooks
  obtain ⟨lost, hqueue, hlost⟩ := hbooks.ledger.queue
  have hqueued : e'.outline.inbound = [] := by
    rw [outline, hawake', hinbound]
    rfl
  refine ⟨n, hrun ▸ hawake', hrun ▸ hinbound, ?_⟩
  rw [hlost (hbooks.alive hkept'), hqueued, List.append_nil, List.append_nil] at hqueue
  rw [hrun, hqueue]
  exact hbooks.ledger.topology_eq

/-- Whose report was applied learns its difference, once the pump is done with it. -/
theorem Books.mem_replies (h : e.Books t limit came done) {left right : List Inbound} {ticket : Nat}
    {r : Report} (hdone : done = left ++ .submitted ticket r :: right) :
    (∀ d, (ticket, d) ∈ e.monitor.replies →
      d = ((t.run (left.flatMap Inbound.reports)).apply r).diff) ∧
    (e.pump.item?.bind Inbound.ticket? ≠ some ticket →
      (ticket, ((t.run (left.flatMap Inbound.reports)).apply r).diff) ∈ e.monitor.replies) := by
  refine ⟨fun d hd => (h.ledger.mem_replies_iff hdone).1 (List.mem_append_left _ hd), fun hother => ?_⟩
  have hmem : (ticket, _) ∈ e.monitor.replies ++ e.pump.replies :=
    (h.ledger.mem_replies_iff hdone).2 rfl
  refine (List.mem_append.1 hmem).resolve_right fun hhand => hother ?_
  cases hpump : e.pump <;> rw [hpump] at hhand <;>
    simp only [Pump.replies, Pump.concluding, List.not_mem_nil, Option.mem_toList,
      Option.map_eq_some_iff, Prod.mk.injEq] at hhand
  all_goals
    obtain ⟨ticket', hticket, rfl, -⟩ := hhand
    exact hticket

/-- What is offered is queued at once if a permit is free. -/
theorem Books.offered (h : e.Books t limit came done) (r : Report) :
    (e.run [.offer r, .enqueue e.held.length]).monitor.inbound =
      e.monitor.inbound ++ if e.accepts then [.external r] else [] := by
  show ((e.offer r).enqueue e.held.length).monitor.inbound = _
  rw [Engine.offer]
  by_cases haccepts : e.accepts = true
  · have hopen : e.monitor.isOpen = true :=
      h.alive (h.accepts_iff.1 haccepts).1
    have hplace : (e.take r).held[e.held.length]? = some r := List.getElem?_concat_length
    have hopen' : (e.take r).monitor.isOpen = true := hopen
    rw [if_pos haccepts, if_pos haccepts, Engine.enqueue, hplace]
    dsimp only
    rw [if_pos hopen']
    rfl
  · have hplace : e.held[e.held.length]? = none := List.getElem?_eq_none (Nat.le_refl _)
    rw [if_neg haccepts, if_neg haccepts, Engine.enqueue, hplace, List.append_nil]

/-- **What enters the queue is applied once and in order.**  After any steps of the parties, what came in
is what was applied, then what is in hand and not applied yet, then what waits; something is lost only
when the pump has ended.  The topology is made of the reports that were applied, and of all that came in
once the pump is left alone.  The only reply to a submitted report is the difference that it made at its
place, sent when the pump is done with it.

Free permits, external reports in the queue and in hand, and senders who have a permit add up to the size
of the buffer, at least one; nobody waits while a permit is free.  So a report that is offered is queued
exactly while the monitor is not dropped and fewer than that are taken, and nobody but a sender and an
external report takes a permit or gives one back.

After a drop the pump ends when it yields next; once it sleeps, nothing is applied or published.  Whoever
waited has failed, whoever offers or sends then fails, and only who had a permit at the drop may still
succeed, until the pump has ended.  A send succeeds exactly if its report enters the queue.

What `Monitor` does in one action is a run, too, and so are settling and sending. -/
theorem run_exactly_once (localId : NodeId) (settings : Settings) (steps : List Step) :
    let s := start localId settings
    let e := s.run steps
    let limit := max settings.notificationBuffer 1
    let graph (items : List Inbound) : Topology :=
      (items.flatMap Inbound.reports).foldl (fun t r => (t.apply r).topology) (.root localId)
    ((∃ lost, s.log entered steps =
          s.log applied steps ++ e.pump.unapplied ++ lost ++ e.monitor.inbound ∧
        (e.monitor.isOpen = true → lost = [])) ∧
      e.monitor.topology = graph (s.log applied steps) ∧
      (e.dropped = false → ∃ n, let e' := e.run (.wake :: List.replicate n .pump)
        e'.pump = .awake ∧ e'.monitor.inbound = [] ∧
          e'.monitor.topology = graph (s.log entered steps)) ∧
      ∀ left ticket r right, s.log applied steps = left ++ .submitted ticket r :: right →
        (∀ d, (ticket, d) ∈ e.monitor.replies → d = ((graph left).apply r).diff) ∧
        (e.pump.item?.bind Inbound.ticket? ≠ some ticket →
          (ticket, ((graph left).apply r).diff) ∈ e.monitor.replies)) ∧
    (e.monitor.permits + e.permitted = limit ∧
      (e.line ≠ [] → e.dropped = false ∧ e.monitor.permits = 0) ∧
      (e.accepts = true ↔ .drop ∉ steps ∧ e.permitted < limit) ∧
      (∀ r, (e.run [.offer r, .enqueue e.held.length]).monitor.inbound =
        e.monitor.inbound ++ if e.accepts then [.external r] else []) ∧
      ∀ a : Step, a.isSender = false → a ≠ .drop → (a = .yield → e.dropped = false) →
        (a = .pump → ∀ item ∈ e.pump.item?, item.isExternal = false) →
        (e.perform a).monitor.permits = e.monitor.permits ∧ (e.perform a).line = e.line ∧
          (e.perform a).handed = e.handed ∧ (e.perform a).held = e.held) ∧
    ((e.dropped = true ↔ .drop ∈ steps) ∧
      (e.dropped = true → e.pump.item? = none → (e.perform .yield).pump = .asleep ∧
        (e.perform .yield).monitor.isOpen = false ∧ (e.perform .yield).monitor.inbound = []) ∧
      (∀ before after, steps = before ++ after → (s.run before).dropped = true →
        (s.run before).pump = .asleep → e.monitor.topology = (s.run before).monitor.topology ∧
          e.monitor.messages = (s.run before).monitor.messages ∧
          s.log applied steps = s.log applied before) ∧
      (∀ before after, steps = before ++ .drop :: after → e.line = [] ∧
        e.held.Sublist (s.run before).held ∧
        ∀ r, e.perform (.offer r) = e ∧ e.perform (.send r) = e ∧
          e.answered (.offer r) = [(r, false)] ∧ e.answered (.send r) = [(r, false)]) ∧
      ∀ r a, ((r, true) ∈ e.answered a ↔ .external r ∈ e.entered a) ∧
        ((r, true) ∈ e.answered a → r ∈ e.held ∧ e.monitor.isOpen = true)) ∧
    ∀ actions : List Monitor.Action,
      let m₀ := Monitor.start localId settings
      let m := m₀.run actions
      (∃ taken, s.run taken = resting m ∧ s.log entered taken = m₀.log Monitor.entered actions ∧
        s.log applied taken = m₀.log Monitor.absorbed actions) ∧
      ∀ (ε : Type) (responder : Responder ε) (rounds : Nat) (x : ε),
        (∃ alone, (∀ a ∈ alone, a.isOwn = true) ∧
          (resting m).run alone = resting (m.settle responder rounds x).1) ∧
        ∀ r, ∃ alone, (∀ a ∈ alone, a.isOwn = true) ∧
          (resting m).run (.send r :: alone ++ [.resume 0, .enqueue 0]) =
            resting (m.send responder (rounds + 1) x r).1 := by
  intro s e limit graph
  have hbooks : e.Books (.root localId) limit (s.log entered steps) (s.log applied steps) :=
    (books_start localId settings).run steps
  have hlimit : 0 < limit := Nat.lt_of_lt_of_le Nat.one_pos (Nat.le_max_right _ 1)
  have hdropped : e.dropped = true ↔ .drop ∈ steps :=
    (s.dropped_run steps).trans (or_iff_right Bool.false_ne_true)
  have hgraph : ∀ items, graph items = Topology.run (.root localId) (items.flatMap Inbound.reports) :=
    fun items => (Topology.run_eq_foldl _ _).symm
  simp only [hgraph]
  refine ⟨⟨hbooks.came_eq, hbooks.ledger.topology_eq, hbooks.drained,
      fun _ _ _ _ hdone => hbooks.mem_replies hdone⟩,
    ⟨hbooks.permits, hbooks.line, ?_, ?_, fun a => permits_perform⟩,
    ⟨hdropped, ?_, ?_, ?_, fun r a => mem_answered_iff r a⟩, ?_⟩
  · rw [hbooks.accepts_iff, ← Bool.not_eq_true, hdropped]
  · exact hbooks.offered
  · intro hdrop hidle
    obtain ⟨hinbound, -, -, -, -, -, hclosed⟩ := e.monitor.close_eq
    rw [perform, yield, hidle, hdrop]
    exact ⟨rfl, hclosed, hinbound⟩
  · rintro before after rfl hdrop hasleep
    obtain ⟨htopology, hmessages, hnothing⟩ := Ended.run ⟨hdrop, hasleep⟩ after
    have hrun : e = (s.run before).run after := s.run_append before after
    rw [hrun, log_append, hnothing, List.append_nil]
    exact ⟨htopology, hmessages, rfl⟩
  · rintro before after rfl
    have hrun : e = ((s.run before).perform .drop).run after := s.run_append before (.drop :: after)
    have hend : e.Dropped (s.run before).held := hrun ▸ (dropped_drop _).run after
    exact ⟨hend.line, hend.held_sublist, hend.refuses⟩
  · intro actions
    have hstart := Monitor.ledger_start localId settings
    have hledger := hstart.run actions
    refine ⟨exists_run hstart actions, fun ε responder rounds x => ⟨?_, fun r => ?_⟩⟩
    · obtain ⟨taken, hown, hrun, -⟩ := Monitor.settle_run responder rounds _ x
      obtain ⟨alone, hfollows⟩ := (resting_resting hledger.closed).exists_follows_all hown
      have hend := hfollows.resting.eq_resting hfollows.line_eq hfollows.held_eq
      rw [hfollows.outline_eq, outline_of_resting] at hend
      exact ⟨alone, hfollows.own, hrun ▸ hend⟩
    · exact exists_send hledger hlimit responder rounds x r

/-- With one place, no report waits and no permit is free while the only one is told to a subscriber: an
offer is refused, and a sender who waits is handed the permit before it is free.  A drop in the middle of
it does not keep the subscriber from being told, and what waits when the pump ends is never applied. -/
theorem run_permit_in_hand :
    let s := (start ⟨1⟩ { notificationBuffer := 1 }).run [.subscribe, .offer (.node ⟨2⟩ (some ⟨5⟩))]
    let e := s.run [.enqueue 0, .wake, .pump, .pump, .pump]
    let e' := e.run [.send (.nodeGone ⟨2⟩), .pump, .pump, .pump]
    (e.dropped = false ∧ e.monitor.inbound = [] ∧ e.monitor.permits = 0 ∧
      e.perform (.offer (.nodeGone ⟨2⟩)) = e) ∧
    (e'.pump = .awake ∧ e'.monitor.inbound = [] ∧ e'.monitor.permits = 0) ∧
    (e.run [.drop, .pump]).monitor.messages =
      (e.perform .drop).monitor.messages ++ [(0, Diff.nodeAdded ⟨2⟩ (some ⟨5⟩))] ∧
    s.log entered [.enqueue 0, .drop, .yield] = [.external (.node ⟨2⟩ (some ⟨5⟩))] ∧
      s.log applied [.enqueue 0, .drop, .yield] = [] := by
  decide +kernel

end Engine
end MeshView
