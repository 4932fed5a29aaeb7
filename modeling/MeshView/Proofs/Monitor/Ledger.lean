/-
# The books of a run

`Ledger` keeps the books of what passes through the queue of a monitor.  What came in is what was
absorbed, then what was given up, then what waits; the topology is what the absorbed reports make of
the first one; every reply is the difference that its report made at its place, or tells that the
monitor has stopped; permits and waiting external reports add up to the size of the buffer.

The books balance after every action (`Ledger.perform`), so after every run (`Ledger.run`): an item is
taken from the front of the queue when it is absorbed and at no other time, and the permit that it
holds comes back with it.
-/

import MeshView.Proofs.Monitor.Actions

namespace MeshView

namespace Topology

theorem run_append (t : Topology) (reports more : List Report) :
    t.run (reports ++ more) = (t.run reports).run more := by
  rw [run, applyAll, each, List.foldl_append, foldl_andThen]
  rfl

theorem run_eq_foldl (t : Topology) (reports : List Report) :
    t.run reports = reports.foldl (fun t r => (t.apply r).topology) t := by
  induction reports generalizing t with
  | nil => rfl
  | cons r reports ih =>
    rw [run, applyAll, each_cons]
    exact ih _

end Topology

/-- The ticket of a submitted report. -/
def Inbound.ticket? : Inbound → Option Nat
  | .submitted ticket _ => some ticket
  | _ => none

/-- What submitters are told when items are absorbed one after another. -/
def Topology.answers (t : Topology) : List Inbound → List (Nat × Diff)
  | [] => []
  | item :: items =>
    (item.ticket?.map fun ticket => (ticket, (t.applyAll item.reports).diff)).toList ++
      (t.run item.reports).answers items

theorem Topology.answers_append (t : Topology) (items more : List Inbound) :
    t.answers (items ++ more) =
      t.answers items ++ (t.run (items.flatMap Inbound.reports)).answers more := by
  induction items generalizing t with
  | nil => rfl
  | cons item items ih =>
    rw [List.cons_append, answers, answers, ih, List.append_assoc, List.flatMap_cons, run_append]

namespace Monitor

/-- The items that an action puts into the queue. -/
def entered (m : Monitor) : Action → List Inbound
  | .offer r => if m.accepts then [.external r] else []
  | .submit r => if m.isOpen then [.submitted m.nextTicket r] else []
  | .finish answer => if m.isOpen then ((m.backfill.delivery? answer).map .fetched).toList else []
  | _ => []

/-- The item that an action absorbs. -/
def absorbed (m : Monitor) : Action → List Inbound
  | .pump => m.inbound.head?.toList
  | _ => []

/-- What a run shows, action by action. -/
def log {α : Type} (shows : Monitor → Action → List α) (m : Monitor) : List Action → List α
  | [] => []
  | a :: actions => shows m a ++ (m.perform a).log shows actions

theorem run_append (m : Monitor) (actions more : List Action) :
    m.run (actions ++ more) = (m.run actions).run more := List.foldl_append

theorem log_append {α : Type} (shows : Monitor → Action → List α) (m : Monitor)
    (actions more : List Action) :
    m.log shows (actions ++ more) = m.log shows actions ++ (m.run actions).log shows more := by
  induction actions generalizing m with
  | nil => rfl
  | cons a actions ih =>
    rw [List.cons_append, log, ih, log, List.append_assoc]
    rfl

variable {m : Monitor} {limit : Nat}

/-! ## What the actions do to the books -/

/-- An answer changes nothing but the requests and the end of the queue. -/
theorem finish_eq (m : Monitor) (answer : Answer) : ∃ backfill, m.finish answer = { m with
    backfill := backfill, inbound := m.inbound ++ m.entered (.finish answer) } := by
  rw [entered, finish]
  cases m.backfill.delivery? answer with
  | none => exact ⟨m.backfill.finish answer, by simp⟩
  | some d =>
    dsimp only
    split
    · exact ⟨_, rfl⟩
    · exact ⟨_, by rw [List.append_nil]⟩

theorem pump_replies {item : Inbound} {rest : List Inbound} (hi : m.inbound = item :: rest) :
    m.pump.replies = m.replies ++
        (item.ticket?.map fun ticket => (ticket, (m.topology.applyAll item.reports).diff)).toList ∧
      m.pump.nextTicket = m.nextTicket := by
  have habsorb : ∀ (m : Monitor) (c : Change),
      (m.absorb c).replies = m.replies ∧ (m.absorb c).nextTicket = m.nextTicket := by
    intro m c
    unfold absorb
    dsimp only
    split <;> exact ⟨rfl, rfl⟩
  obtain ⟨hreplies, hticket⟩ :=
    habsorb { m with inbound := rest } (m.topology.applyAll item.reports)
  rw [(pump_eq hi).1]
  cases item with
  | external r => exact ⟨hreplies.trans (List.append_nil _).symm, hticket⟩
  | submitted ticket r => exact ⟨congrArg (· ++ _) hreplies, hticket⟩
  | fetched d => exact ⟨hreplies.trans (List.append_nil _).symm, hticket⟩

theorem pump_permits {item : Inbound} {rest : List Inbound} (hi : m.inbound = item :: rest) :
    m.pump.permits = m.permits + if item.isExternal then 1 else 0 := by
  rw [(pump_eq hi).1, (conclude_eq _ item _).2.2.2.1, (absorb_eq _ _).2.1]

/-- What is given up returns its permits, and its submitters learn nothing. -/
theorem foldl_discard_eq (items : List Inbound) (m : Monitor) :
    (items.foldl discard m).permits = m.permits + items.countP Inbound.isExternal ∧
      (items.foldl discard m).replies =
        m.replies ++ (items.filterMap Inbound.ticket?).map (fun ticket => (ticket, ∅)) ∧
      (items.foldl discard m).nextTicket = m.nextTicket ∧
      (items.foldl discard m).isOpen = m.isOpen := by
  induction items generalizing m with
  | nil => exact ⟨rfl, (List.append_nil _).symm, rfl, rfl⟩
  | cons item items ih =>
    obtain ⟨hpermits, hreplies, hticket, hopen⟩ := ih (m.discard item)
    rw [List.foldl_cons, hpermits, hreplies, hticket, hopen, List.countP_cons,
      List.filterMap_cons]
    cases item with
    | external r =>
      refine ⟨?_, rfl, rfl, rfl⟩
      show m.permits + 1 + _ = m.permits + (_ + 1)
      omega
    | submitted ticket r => exact ⟨rfl, List.append_assoc _ _ _, rfl, rfl⟩
    | fetched d => exact ⟨rfl, rfl, rfl, rfl⟩

/-! ## Whether a monitor is open -/

theorem isOpen_perform {a : Action} (ha : a ≠ .close) : (m.perform a).isOpen = m.isOpen := by
  cases a with
  | offer r =>
    show (m.offer r).isOpen = _
    rw [offer]
    split <;> rfl
  | submit r =>
    show (m.submit r).isOpen = _
    rw [submit]
    split <;> rfl
  | subscribe =>
    show m.subscribe.isOpen = _
    rw [subscribe]
    split <;> rfl
  | unsubscribe s => rfl
  | pump => exact m.isOpen_pump
  | issue => rfl
  | finish answer =>
    obtain ⟨backfill, heq⟩ := m.finish_eq answer
    show (m.finish answer).isOpen = _
    rw [heq]
  | close => exact absurd rfl ha

/-- What a monitor gives up when it stops. -/
theorem close_eq (m : Monitor) : m.close.inbound = [] ∧ m.close.topology = m.topology ∧
    m.close.messages = m.messages ∧
    m.close.permits = m.permits + m.inbound.countP Inbound.isExternal ∧
    m.close.replies =
      m.replies ++ (m.inbound.filterMap Inbound.ticket?).map (fun ticket => (ticket, ∅)) ∧
    m.close.nextTicket = m.nextTicket ∧ m.close.isOpen = false := by
  obtain ⟨hpermits, hreplies, hticket, hopen⟩ := foldl_discard_eq m.inbound
    { m with inbound := [], subscribers := [], isOpen := false }
  obtain ⟨hfeed, hinbound⟩ :=
    discard_foldl { m with inbound := [], subscribers := [], isOpen := false } m.inbound
  exact ⟨hinbound, congrArg Feed.topology hfeed, congrArg Feed.messages hfeed, hpermits, hreplies,
    hticket, hopen⟩

theorem isOpen_close (m : Monitor) : m.close.isOpen = false := m.close_eq.2.2.2.2.2.2

theorem isOpen_run (m : Monitor) (actions : List Action) :
    (m.run actions).isOpen = true ↔ m.isOpen = true ∧ .close ∉ actions := by
  induction actions generalizing m with
  | nil => simp [run]
  | cons a actions ih =>
    refine (ih (m.perform a)).trans ?_
    by_cases ha : a = .close
    · subst ha
      simp [perform, isOpen_close]
    · simp [isOpen_perform ha, Ne.symm ha]

/-! ## The books of a run -/

/-- The books of a run from the topology `t` with a buffer of `limit` places: `came` was queued and
`done` was absorbed. -/
structure Ledger (t : Topology) (limit : Nat) (came done : List Inbound) (m : Monitor) : Prop where
  /-- Nothing is lost before the monitor stops. -/
  queue : ∃ lost, came = done ++ lost ++ m.inbound ∧ (m.isOpen = true → lost = [])
  topology_eq : m.topology = t.run (done.flatMap Inbound.reports)
  replies : ∃ refused, m.replies = t.answers done ++ refused ∧ (∀ e ∈ refused, e.2 = ∅) ∧
    (m.isOpen = true → refused = [])
  /-- Every ticket is answered or waits, and never both. -/
  tickets : m.replies.map Prod.fst ++ m.inbound.filterMap Inbound.ticket? = List.range m.nextTicket
  slots_eq : m.slots = limit
  closed : m.isOpen = false → m.inbound = []

theorem ledger_start (localId : NodeId) (settings : Settings) :
    (start localId settings).Ledger (.root localId) (max settings.notificationBuffer 1) [] [] where
  queue := ⟨[], rfl, fun _ => rfl⟩
  topology_eq := rfl
  replies := ⟨[], rfl, nofun, fun _ => rfl⟩
  tickets := rfl
  slots_eq := rfl
  closed := nofun

section Actions
variable {t : Topology} {came done : List Inbound}
  (h : m.Ledger t limit came done)
include h

/-- Nothing changes but what the books do not tell. -/
theorem Ledger.still {m' : Monitor} (hinbound : m'.inbound = m.inbound)
    (htopology : m'.topology = m.topology) (hreplies : m'.replies = m.replies)
    (hticket : m'.nextTicket = m.nextTicket) (hpermits : m'.permits = m.permits)
    (hopen : m'.isOpen = m.isOpen) : m'.Ledger t limit came done := by
  constructor
  · rw [hinbound, hopen]
    exact h.queue
  · rw [htopology, h.topology_eq]
  · rw [hreplies, hopen]
    exact h.replies
  · rw [hreplies, hinbound, hticket, h.tickets]
  · rw [← h.slots_eq, slots, slots, hpermits, hinbound]
  · rw [hopen, hinbound]
    exact h.closed

/-- An item without a ticket is queued, and pays for its place. -/
theorem Ledger.enqueue {m' : Monitor} {item : Inbound} (hitem : item.ticket? = none)
    (hopen : m.isOpen = true) (hinbound : m'.inbound = m.inbound ++ [item])
    (htopology : m'.topology = m.topology) (hreplies : m'.replies = m.replies)
    (hticket : m'.nextTicket = m.nextTicket)
    (hpermits : m'.permits + (if item.isExternal then 1 else 0) = m.permits)
    (hopen' : m'.isOpen = true) : m'.Ledger t limit (came ++ [item]) done := by
  obtain ⟨lost, hqueue, hlost⟩ := h.queue
  constructor
  · refine ⟨lost, ?_, fun _ => hlost hopen⟩
    rw [hinbound, hqueue, List.append_assoc]
  · rw [htopology, h.topology_eq]
  · obtain ⟨refused, hold, hempty, hnone⟩ := h.replies
    exact ⟨refused, hreplies.trans hold, hempty, fun _ => hnone hopen⟩
  · rw [hreplies, hinbound, hticket, List.filterMap_append, ← h.tickets]
    simp [hitem]
  · rw [← h.slots_eq, slots, slots, hinbound, List.countP_append, List.countP_singleton]
    omega
  · rw [hopen']
    exact fun hclosed => Bool.noConfusion hclosed

theorem Ledger.offer (r : Report) :
    (m.offer r).Ledger t limit (came ++ m.entered (.offer r)) done := by
  rw [entered, Monitor.offer]
  split
  · rename_i haccepts
    obtain ⟨hopen, hpermits⟩ := Bool.and_eq_true_iff.1 haccepts
    refine h.enqueue rfl hopen rfl rfl rfl rfl ?_ hopen
    exact Nat.sub_add_cancel (of_decide_eq_true hpermits)
  · rw [List.append_nil]
    exact h

theorem Ledger.submit (r : Report) :
    (m.submit r).Ledger t limit (came ++ m.entered (.submit r)) done := by
  obtain ⟨lost, hqueue, hlost⟩ := h.queue
  obtain ⟨refused, hreplies, hempty, hnone⟩ := h.replies
  rw [entered, Monitor.submit]
  split
  · rename_i hopen
    refine ⟨⟨lost, ?_, hlost⟩, h.topology_eq, h.replies, ?_, ?_, fun hclosed => ?_⟩
    · rw [hqueue, List.append_assoc]
    · show _ ++ (m.inbound ++ [_]).filterMap _ = _
      rw [List.filterMap_append, ← List.append_assoc, h.tickets]
      exact List.range_succ.symm
    · rw [← h.slots_eq, slots, slots, List.countP_append]
      rfl
    · exact Bool.noConfusion (hopen.symm.trans hclosed)
  · rename_i hopen
    -- the ticket is answered at once, and no other one waits
    have hnil := h.closed (Bool.eq_false_iff.2 hopen)
    rw [List.append_nil]
    refine ⟨h.queue, h.topology_eq, ⟨refused ++ [(m.nextTicket, ∅)], ?_, ?_, ?_⟩, ?_, h.slots_eq,
      h.closed⟩
    · rw [hreplies, List.append_assoc]
    · intro e he
      rcases List.mem_append.1 he with he | he
      · exact hempty e he
      · rw [List.mem_singleton.1 he]
    · exact fun hopen' => absurd hopen' hopen
    · have htickets := h.tickets
      rw [hnil, List.filterMap_nil, List.append_nil] at htickets
      show (m.replies ++ [_]).map _ ++ m.inbound.filterMap _ = _
      rw [hnil, List.filterMap_nil, List.append_nil, List.map_append, htickets]
      exact List.range_succ.symm

theorem Ledger.pump : m.pump.Ledger t limit came (done ++ m.absorbed .pump) := by
  cases hi : m.inbound with
  | nil =>
    rw [absorbed, Monitor.pump, hi]
    show m.Ledger t limit came (done ++ [])
    rwa [List.append_nil]
  | cons item rest =>
    obtain ⟨lost, hqueue, hlost⟩ := h.queue
    obtain ⟨refused, hreplies, -, hnone⟩ := h.replies
    -- something waits, so the monitor is open and nothing was lost or refused before
    have hopen : m.isOpen = true := Bool.not_eq_false _ ▸ fun hclosed =>
      List.cons_ne_nil item rest (hi.symm.trans (h.closed hclosed))
    obtain ⟨-, hrest, htopology, hslots, -⟩ := pump_eq hi
    obtain ⟨hpumped, hticket⟩ := pump_replies hi
    have habsorbed : m.absorbed .pump = [item] := by
      rw [absorbed, hi]
      rfl
    rw [habsorbed]
    refine ⟨⟨lost, ?_, fun _ => hlost hopen⟩, ?_,
      ⟨[], ?_, fun _ he => absurd he List.not_mem_nil, fun _ => rfl⟩, ?_,
      hslots.trans h.slots_eq, fun hclosed => ?_⟩
    · rw [hqueue, hlost hopen, hrest, hi]
      simp
    · rw [htopology, h.topology_eq, List.flatMap_append, Topology.run_append]
      simp [Topology.run]
    · rw [hpumped, hreplies, hnone hopen, Topology.answers_append, ← h.topology_eq]
      simp [Topology.answers]
    · rw [hpumped, hrest, hticket, ← h.tickets, hi, List.map_append, List.append_assoc,
        List.filterMap_cons]
      cases item.ticket? <;> rfl
    · exact absurd (m.isOpen_pump.symm.trans hclosed) (by simp [hopen])

theorem Ledger.finish (answer : Answer) :
    (m.finish answer).Ledger t limit (came ++ m.entered (.finish answer)) done := by
  rw [entered, Monitor.finish]
  cases m.backfill.delivery? answer with
  | none =>
    have hnothing : (if m.isOpen then ((none : Option Delivery).map Inbound.fetched).toList else []) =
        [] := ite_self _
    rw [hnothing, List.append_nil]
    exact h.still rfl rfl rfl rfl rfl rfl
  | some d =>
    dsimp only
    split
    · rename_i hopen
      exact h.enqueue rfl hopen rfl rfl rfl rfl rfl hopen
    · rw [List.append_nil]
      exact h.still rfl rfl rfl rfl rfl rfl

theorem Ledger.close : m.close.Ledger t limit came done := by
  obtain ⟨lost, hqueue, hlost⟩ := h.queue
  obtain ⟨refused, hreplies, hempty, hnone⟩ := h.replies
  obtain ⟨hinbound, htopology, -, hpermits, hgiven, hticket, hopen⟩ := m.close_eq
  rw [← Bool.not_eq_true] at hopen
  refine ⟨⟨lost ++ m.inbound, ?_, fun h => absurd h hopen⟩, htopology.trans h.topology_eq,
    ⟨refused ++ (m.inbound.filterMap Inbound.ticket?).map (fun ticket => (ticket, ∅)), ?_, ?_,
      fun h => absurd h hopen⟩, ?_, ?_, fun _ => hinbound⟩
  · rw [hinbound, hqueue, List.append_nil, List.append_assoc]
  · rw [hgiven, hreplies, List.append_assoc]
  · intro e he
    rcases List.mem_append.1 he with he | he
    · exact hempty e he
    · obtain ⟨ticket, -, rfl⟩ := List.mem_map.1 he
      rfl
  -- what waited is answered in its order, so the tickets stay where they were
  · rw [hgiven, hinbound, hticket, ← h.tickets, List.map_append, List.map_map]
    simp [Function.comp_def]
  · rw [← h.slots_eq, slots, slots, hpermits, hinbound]
    rfl

/-- **Every action keeps the books.** -/
theorem Ledger.perform (a : Action) :
    (m.perform a).Ledger t limit (came ++ m.entered a) (done ++ m.absorbed a) := by
  have hsilent : ∀ m' : Monitor, m'.Ledger t limit came done →
      m'.Ledger t limit (came ++ []) (done ++ []) := by
    intro m' h'
    rwa [List.append_nil, List.append_nil]
  cases a with
  | offer r => exact (List.append_nil done).symm ▸ h.offer r
  | submit r => exact (List.append_nil done).symm ▸ h.submit r
  | subscribe =>
    refine hsilent _ ?_
    show m.subscribe.Ledger t limit came done
    rw [Monitor.subscribe]
    split
    · exact h.still rfl rfl rfl rfl rfl rfl
    · exact h
  | unsubscribe s => exact hsilent _ (h.still rfl rfl rfl rfl rfl rfl)
  | pump => exact (List.append_nil came).symm ▸ h.pump
  | issue => exact hsilent _ (h.still rfl rfl rfl rfl rfl rfl)
  | finish answer => exact (List.append_nil done).symm ▸ h.finish answer
  | close => exact hsilent _ h.close

/-- **So every run does.** -/
theorem Ledger.run (actions : List Action) :
    (m.run actions).Ledger t limit (came ++ m.log entered actions)
      (done ++ m.log absorbed actions) := by
  induction actions generalizing m came done with
  | nil =>
    rw [log, log, List.append_nil, List.append_nil]
    exact h
  | cons a actions ih =>
    rw [log, log, ← List.append_assoc, ← List.append_assoc]
    exact ih (h.perform a)

end Actions

end Monitor
end MeshView
