/-
# A whole turn is one action

`Monitor` is what is left of `Engine` when nobody looks in the middle of a turn.  A pump that is woken,
left alone until it has concluded an item, and yields, has done what `Monitor.pump` does in one action
(`exists_concluded`); offering and queueing at once is `Monitor.offer`, and dropping a monitor whose pump
is asleep is `Monitor.close`.  So every run of a monitor is a run of its engine (`exists_run`).

Senders who wait change nothing about that, except that permits which come back are theirs first
(`exists_own_run`).
-/

import MeshView.Proofs.Monitor.Alone
import MeshView.Proofs.Monitor.Engine

namespace MeshView
namespace Engine

/-! ## One item -/

/-- The pump, left alone, comes from one state to another and applies the items. -/
def Reaches (e : Engine) (items : List Inbound) (e' : Engine) : Prop :=
  ∃ n, e.run (List.replicate n .pump) = e' ∧ e.log applied (List.replicate n .pump) = items

theorem Reaches.refl (e : Engine) : e.Reaches [] e := ⟨0, rfl, rfl⟩

theorem Reaches.step {e e' : Engine} {items : List Inbound} (h : e.advance.Reaches items e') :
    e.Reaches (e.pump.unapplied ++ items) e' := by
  obtain ⟨n, hrun, hlog⟩ := h
  refine ⟨n + 1, hrun, ?_⟩
  rw [← hlog]
  rfl

/-- A step that applies nothing. -/
theorem Reaches.aside {e e' : Engine} {items : List Inbound} (hnothing : e.pump.unapplied = [])
    (h : e.advance.Reaches items e') : e.Reaches items e' := by
  have hstep := h.step
  rwa [hnothing] at hstep

variable {e : Engine}

theorem log_entered_pumps (e : Engine) (n : Nat) : e.log entered (List.replicate n .pump) = [] := by
  induction n generalizing e with
  | zero => rfl
  | succ n ih => exact ih _

/-- The subscribers are told, then the identities are requested. -/
theorem reaches_conclude {item : Inbound} {d : Diff} {subscribers : List Nat} {ids : List NodeId}
    (hpump : e.pump = .publishing item d subscribers ids) :
    e.Reaches [] ({ e with
      monitor := { e.monitor with
        messages := e.monitor.messages ++ subscribers.map fun s => (s, d)
        backfill := ids.foldl Backfill.request e.monitor.backfill }
      pump := .awake }.conclude item d) := by
  have hnothing : e.pump.unapplied = [] := by rw [hpump]; rfl
  induction subscribers generalizing e with
  | cons s rest ih =>
    refine .aside hnothing ?_
    rw [advance, hpump]
    simpa using ih (e := { e with
      monitor := { e.monitor with messages := e.monitor.messages ++ [(s, d)] }
      pump := .publishing item d rest ids }) rfl rfl
  | nil =>
    induction ids generalizing e with
    | cons id rest ih =>
      refine .aside hnothing ?_
      rw [advance, hpump]
      exact ih (e := { e with
        monitor := { e.monitor with backfill := e.monitor.backfill.request id }
        pump := .publishing item d [] rest }) rfl rfl
    | nil =>
      refine .aside hnothing ?_
      rw [advance, hpump]
      simpa using Reaches.refl _

/-- An item that was taken is applied, published and concluded. -/
theorem reaches_absorb {item : Inbound} (hpump : e.pump = .taken item) :
    let change := e.monitor.topology.applyAll item.reports
    e.Reaches [item]
      ({ e with monitor := e.monitor.absorb change, pump := .awake }.conclude item change.diff) := by
  intro change
  have htaken : e.pump.unapplied = [item] := by rw [hpump]; rfl
  rw [← htaken, ← List.append_nil e.pump.unapplied]
  apply Reaches.step
  rw [advance, hpump]
  show (e.apply item).Reaches _ _
  rw [apply, Monitor.absorb]
  dsimp only
  split
  -- with nothing to tell, the item is concluded at once
  · simpa using reaches_conclude (e := { e with
      monitor := { e.monitor with topology := change.topology }
      pump := .publishing item change.diff [] [] }) rfl
  · refine Reaches.step (e := { e with
      monitor := { e.monitor with topology := change.topology }
      pump := .applied item change.diff _ }) ?_
    exact reaches_conclude rfl

/-- The next item that waits is taken, applied, published and concluded. -/
theorem reaches_turn {item : Inbound} {rest : List Inbound} (hpump : e.pump = .awake)
    (hi : e.monitor.inbound = item :: rest) :
    let change := e.monitor.topology.applyAll item.reports
    e.Reaches [item] ({ e with
      monitor := { e.monitor with inbound := rest }.absorb change
      pump := .awake }.conclude item change.diff) := by
  intro change
  refine .aside (hpump ▸ rfl) ?_
  have htaken : e.advance = { e with
      monitor := { e.monitor with inbound := rest }
      pump := .taken item } := by rw [advance, hpump, hi]
  rw [htaken]
  exact reaches_absorb (e := { e with
    monitor := { e.monitor with inbound := rest }
    pump := .taken item }) rfl

/-! ## Everything that waits -/

theorem Reaches.trans {e e' e'' : Engine} {items more : List Inbound} (h : e.Reaches items e')
    (hmore : e'.Reaches more e'') : e.Reaches (items ++ more) e'' := by
  obtain ⟨n, rfl, rfl⟩ := h
  obtain ⟨k, rfl, rfl⟩ := hmore
  refine ⟨n + k, ?_, ?_⟩ <;> rw [← List.replicate_append_replicate]
  · exact e.run_append _ _
  · exact log_append applied e _ _

/-- What concluding an item leaves alone. -/
theorem conclude_eq (e : Engine) (item : Inbound) (d : Diff) :
    (e.conclude item d).pump = e.pump ∧ (e.conclude item d).dropped = e.dropped ∧
      (e.conclude item d).held = e.held ∧
      (e.conclude item d).handed ++ (e.conclude item d).line = e.handed ++ e.line ∧
      (e.conclude item d).monitor.isOpen = e.monitor.isOpen ∧
      (e.conclude item d).monitor.inbound = e.monitor.inbound := by
  cases item with
  | external r =>
    rw [conclude, giveBack]
    split
    · exact ⟨rfl, rfl, rfl, rfl, rfl, rfl⟩
    · rename_i hline
      exact ⟨rfl, rfl, rfl, by rw [hline]; simp, rfl, rfl⟩
  | submitted ticket r => exact ⟨rfl, rfl, rfl, rfl, rfl, rfl⟩
  | fetched delivery => exact ⟨rfl, rfl, rfl, rfl, rfl, rfl⟩

/-- With nothing in hand, the books count the permits that senders have as free, and that is all. -/
theorem outline_idle (hidle : e.pump.item? = none) : e.outline =
    { e.monitor with permits := e.monitor.permits + e.handed.length + e.held.length } := by
  obtain ⟨hunapplied, hconcluding⟩ := Pump.idle_eq hidle
  rw [outline, Pump.permits, Pump.replies, hunapplied, hconcluding]
  simp

theorem outline_conclude (hpump : e.pump = .awake) (item : Inbound) (d : Diff) :
    (e.conclude item d).outline = e.outline.conclude item d := by
  cases item with
  | external r => exact e.outline_giveBack
  | submitted ticket r =>
    rw [conclude, outline, outline, hpump]
    simp [Monitor.conclude, Pump.replies, Pump.concluding]
  | fetched delivery => rfl

theorem concluded_awake (e : Engine) (m : Monitor) (item : Inbound) (d : Diff) :
    ({ e with monitor := m, pump := .awake }.conclude item d).pump = .awake ∧
      ({ e with monitor := m, pump := .awake }.conclude item d).monitor.inbound = m.inbound := by
  obtain ⟨hawake, -, -, -, -, hinbound⟩ := conclude_eq { e with monitor := m, pump := .awake } item d
  exact ⟨hawake, hinbound⟩

/-- A pump that is not asleep gets done with what it has in hand. -/
theorem exists_reaches_awake (hpump : e.pump ≠ .asleep) : ∃ items e', e.Reaches items e' ∧
    e'.pump = .awake ∧ e'.monitor.inbound = e.monitor.inbound := by
  cases h : e.pump with
  | asleep => exact absurd h hpump
  | awake => exact ⟨[], e, .refl e, h, rfl⟩
  | taken item =>
    obtain ⟨hawake, hinbound⟩ := e.concluded_awake (e.monitor.absorb _) item _
    exact ⟨_, _, reaches_absorb h, hawake, hinbound.trans (Monitor.inbound_absorb _ _)⟩
  | applied item d ids =>
    have hlooked := reaches_conclude
      (e := { e with pump := .publishing item d e.monitor.subscribers ids }) rfl
    have hreaches := Reaches.aside (e := e) (h ▸ rfl) (by rw [advance, h]; exact hlooked)
    exact ⟨_, _, hreaches, e.concluded_awake _ item d⟩
  | publishing item d subscribers ids =>
    exact ⟨_, _, reaches_conclude h, e.concluded_awake _ item d⟩

/-- The pump, left alone, empties the queue. -/
theorem exists_reaches_empty (hpump : e.pump = .awake) : ∃ items e', e.Reaches items e' ∧
    e'.pump = .awake ∧ e'.monitor.inbound = [] := by
  induction hi : e.monitor.inbound generalizing e with
  | nil => exact ⟨[], e, .refl e, hpump, hi⟩
  | cons item rest ih =>
    have hturn := reaches_turn hpump hi
    obtain ⟨hawake, hinbound⟩ := e.concluded_awake ({ e.monitor with inbound := rest }.absorb
      (e.monitor.topology.applyAll item.reports)) item _
    obtain ⟨items, e', hmore, hend⟩ := ih hawake (hinbound.trans (Monitor.inbound_absorb _ _))
    exact ⟨_, e', hturn.trans hmore, hend⟩

/-! ## A monitor that is left alone -/

/-- The pump is asleep, and has ended if the monitor was dropped. -/
structure Resting (e : Engine) : Prop where
  asleep : e.pump = .asleep
  dropped_eq : e.dropped = !e.monitor.isOpen
  lost : e.monitor.isOpen = false → e.monitor.inbound = []

theorem Resting.idle (h : e.Resting) : e.pump.item? = none := by
  rw [h.asleep]
  rfl

/-- The monitor takes the step by itself. -/
def Step.isOwn : Step → Bool
  | .wake | .pump | .yield | .issue | .finish _ => true
  | _ => false

/-- The steps do what the actions do, and nobody comes or goes. -/
structure Follows (e : Engine) (actions : List Monitor.Action) (steps : List Step) : Prop where
  own : ∀ a ∈ steps, a.isOwn = true
  resting : (e.run steps).Resting
  outline_eq : (e.run steps).outline = e.outline.run actions
  /-- Whoever waits keeps the place in the line, or was handed a permit. -/
  line_eq : (e.run steps).handed ++ (e.run steps).line = e.handed ++ e.line
  held_eq : (e.run steps).held = e.held
  entered_eq : e.log entered steps = e.outline.log Monitor.entered actions
  applied_eq : e.log applied steps = e.outline.log Monitor.absorbed actions

theorem Follows.append {actions more : List Monitor.Action} {steps more' : List Step}
    (h : e.Follows actions steps) (hmore : (e.run steps).Follows more more') :
    e.Follows (actions ++ more) (steps ++ more') where
  own := fun a ha => (List.mem_append.1 ha).elim (h.own a) (hmore.own a)
  resting := e.run_append steps more' ▸ hmore.resting
  outline_eq := by rw [run_append, hmore.outline_eq, h.outline_eq, Monitor.run_append]
  line_eq := by rw [run_append, hmore.line_eq, h.line_eq]
  held_eq := by rw [run_append, hmore.held_eq, h.held_eq]
  entered_eq := by
    rw [log_append, Monitor.log_append, h.entered_eq, hmore.entered_eq, h.outline_eq]
  applied_eq := by
    rw [log_append, Monitor.log_append, h.applied_eq, hmore.applied_eq, h.outline_eq]

/-- An action of the worker is a step of its own. -/
theorem Resting.follows_worker {a : Step} {action : Monitor.Action} {m : Monitor} (h : e.Resting)
    (hown : a.isOwn = true) (hstep : e.perform a = { e with monitor := m })
    (houtline : { e with monitor := m }.outline = e.outline.perform action)
    (hopen : m.isOpen = e.monitor.isOpen)
    (hlost : e.monitor.isOpen = false → m.inbound = e.monitor.inbound)
    (hentered : e.entered a = e.outline.entered action)
    (happlied : e.applied a = e.outline.absorbed action) : e.Follows [action] [a] := by
  have hrun : e.run [a] = { e with monitor := m } := hstep
  constructor
  · exact fun a ha => List.mem_singleton.1 ha ▸ hown
  · rw [hrun]
    exact ⟨h.asleep, hopen ▸ h.dropped_eq, fun hclosed =>
      (hlost (hopen.symm.trans hclosed)).trans (h.lost (hopen.symm.trans hclosed))⟩
  · rw [hrun, houtline]
    rfl
  · rw [hrun]
  · rw [hrun]
  · rw [log, Monitor.log, hentered]
    rfl
  · rw [log, Monitor.log, happlied]
    rfl

theorem absorb_permits (m : Monitor) (c : Change) (permits : Nat) :
    ({ m with permits }).absorb c = { m.absorb c with permits } := by
  rw [Monitor.absorb, Monitor.absorb]
  dsimp only
  split <;> rfl

theorem finish_permits (m : Monitor) (answer : Answer) (permits : Nat) :
    ({ m with permits }).finish answer = { m.finish answer with permits } := by
  rw [Monitor.finish, Monitor.finish]
  dsimp only
  split
  · rfl
  · split <;> rfl

/-- Waking the pump, one item, and yielding. -/
theorem Resting.run_turn (h : e.Resting) (hopen : e.monitor.isOpen = true) {item : Inbound}
    {rest : List Inbound} (hi : e.monitor.inbound = item :: rest) :
    let change := e.monitor.topology.applyAll item.reports
    let e' := { e with
      monitor := { e.monitor with inbound := rest }.absorb change
      pump := .awake }.conclude item change.diff
    ∃ n, e.run (.wake :: List.replicate n .pump ++ [.yield]) = { e' with pump := .asleep } ∧
      e.log applied (.wake :: List.replicate n .pump ++ [.yield]) = [item] := by
  intro change e'
  have hkept : e.dropped = false := by rw [h.dropped_eq, hopen]; rfl
  have hwoken : e.perform .wake = { e with pump := .awake } := by
    simp [perform, hkept, h.asleep]
  obtain ⟨n, hturn, happlied⟩ := reaches_turn (e := { e with pump := .awake }) rfl hi
  obtain ⟨hpump, hdropped, -⟩ := conclude_eq { e with
      monitor := { e.monitor with inbound := rest }.absorb change
      pump := .awake } item change.diff
  have hyield : e'.perform .yield = { e' with pump := .asleep } := by
    have hidle : e'.pump.item? = none := by
      rw [hpump]
      rfl
    have hkept' : ¬ e'.dropped = true := by
      rw [hdropped]
      exact Bool.eq_false_iff.1 hkept
    rw [perform, yield, hidle]
    exact if_neg hkept'
  refine ⟨n, ?_, ?_⟩
  · rw [run_append, ← hyield]
    show ((e.perform .wake).run _).run [.yield] = _
    rw [hwoken, hturn]
    rfl
  · rw [log_append]
    show [] ++ (e.perform .wake).log applied _ ++ _ = _
    rw [hwoken, happlied]
    rfl

theorem log_entered_turn (e : Engine) (n : Nat) :
    e.log entered (.wake :: List.replicate n .pump ++ [.yield]) = [] := by
  rw [log_append]
  show [] ++ (e.perform .wake).log entered _ ++ _ = _
  rw [log_entered_pumps]
  rfl

/-- A turn in which one item is absorbed. -/
theorem Resting.follows_pump (h : e.Resting) : ∃ steps, e.Follows [.pump] steps := by
  have houtline := outline_idle h.idle
  have hqueue : e.outline.inbound = e.monitor.inbound := by rw [houtline]
  cases hi : e.monitor.inbound with
  | nil =>
    have hnothing : e.outline.perform .pump = e.outline ∧ e.outline.absorbed .pump = [] := by
      rw [Monitor.perform, Monitor.pump, Monitor.absorbed, hqueue, hi]
      exact ⟨rfl, rfl⟩
    refine ⟨[], fun _ ha => absurd ha List.not_mem_nil, h, hnothing.1.symm, rfl, rfl, rfl, ?_⟩
    rw [Monitor.log, hnothing.2]
    rfl
  | cons item rest =>
    have hopen : e.monitor.isOpen = true := by
      by_contra hclosed
      exact List.cons_ne_nil item rest (hi.symm.trans (h.lost (Bool.eq_false_iff.2 hclosed)))
    obtain ⟨n, hrun, happlied⟩ := h.run_turn hopen hi
    generalize hchange : e.monitor.topology.applyAll item.reports = change at hrun
    obtain ⟨-, hdropped, hheld, hline, hopen', -⟩ := conclude_eq { e with
      monitor := { e.monitor with inbound := rest }.absorb change
      pump := .awake } item change.diff
    have hkept : ({ e.monitor with inbound := rest }.absorb change).isOpen = e.monitor.isOpen :=
      (Monitor.absorb_eq _ change).2.2.2
    refine ⟨.wake :: List.replicate n .pump ++ [.yield], ?_, ?_, ?_, ?_, ?_, ?_, ?_⟩
    · intro a ha
      simp only [List.mem_append, List.mem_cons, List.mem_replicate, List.not_mem_nil] at ha
      rcases ha with (rfl | ⟨-, rfl⟩) | rfl | ha
      · rfl
      · rfl
      · rfl
      · exact absurd ha not_false
    · rw [hrun]
      refine ⟨rfl, ?_, fun hclosed => ?_⟩
      · exact hdropped.trans (h.dropped_eq.trans (congrArg _ (hopen'.trans hkept).symm))
      · cases (hopen'.trans (hkept.trans hopen)).symm.trans hclosed
    · rw [hrun]
      refine (outline_asleep ?_).trans ((outline_conclude rfl item change.diff).trans ?_)
      · rw [(conclude_eq _ item change.diff).1]
        rfl
      · show _ = e.outline.pump
        rw [(Monitor.pump_eq (hqueue.trans hi)).1, outline_idle rfl, houtline, ← hchange]
        dsimp only
        rw [(Monitor.absorb_eq _ _).2.1, ← absorb_permits]
    · rw [hrun]
      exact hline
    · rw [hrun]
      exact hheld
    · exact e.log_entered_turn n
    · rw [happlied, Monitor.log, Monitor.absorbed, hqueue, hi]
      rfl

/-- **What a monitor does by itself, its engine does step by step.** -/
theorem Resting.exists_follows (h : e.Resting) {a : Monitor.Action} (ha : a.isOwn = true) :
    ∃ steps, e.Follows [a] steps := by
  have houtline := outline_idle h.idle
  cases a with
  | pump => exact h.follows_pump
  | issue =>
    refine ⟨[.issue], h.follows_worker (m := e.monitor.perform .issue) rfl rfl ?_ rfl
      (fun _ => rfl) rfl rfl⟩
    rw [houtline]
    exact outline_idle h.idle
  | finish answer =>
    obtain ⟨backfill, hfinish⟩ := e.monitor.finish_eq answer
    have hpermits : (e.monitor.finish answer).permits = e.monitor.permits := by rw [hfinish]
    refine ⟨[.finish answer], h.follows_worker (m := e.monitor.finish answer) rfl rfl ?_ ?_ ?_ ?_ rfl⟩
    · rw [houtline]
      refine (outline_idle (e := { e with monitor := e.monitor.finish answer }) h.idle).trans ?_
      dsimp only
      rw [hpermits]
      exact (finish_permits e.monitor answer _).symm
    · rw [hfinish]
    · intro hclosed
      rw [hfinish, Monitor.entered, hclosed]
      exact List.append_nil _
    · rw [houtline]
      rfl
  | _ => cases ha

theorem Resting.exists_follows_all (h : e.Resting) {actions : List Monitor.Action}
    (hown : ∀ a ∈ actions, a.isOwn = true) : ∃ steps, e.Follows actions steps := by
  induction actions generalizing e with
  | nil => exact ⟨[], fun _ ha => absurd ha List.not_mem_nil, h, rfl, rfl, rfl, rfl, rfl⟩
  | cons a actions ih =>
    obtain ⟨ha, hactions⟩ := List.forall_mem_cons.1 hown
    obtain ⟨first, hfirst⟩ := h.exists_follows ha
    obtain ⟨more, hmore⟩ := ih hfirst.resting hactions
    exact ⟨first ++ more, hfirst.append hmore⟩

/-! ## A monitor without senders -/

theorem outline_of_resting (m : Monitor) : (resting m).outline = m := by
  rw [outline_idle rfl]
  rfl

theorem accepts_resting (m : Monitor) : (resting m).accepts = m.accepts := by
  rw [accepts, resting, Bool.not_not]
  rfl

theorem resting_of_isOpen {m m' : Monitor} (h : m'.isOpen = m.isOpen) :
    { resting m with monitor := m' } = resting m' := by
  rw [resting, resting, h]

theorem resting_resting {m : Monitor} (h : m.isOpen = false → m.inbound = []) :
    (resting m).Resting := ⟨rfl, rfl, h⟩

/-- With the pump asleep and nobody sending, the books tell everything. -/
theorem Resting.eq_resting (h : e.Resting) (hnone : e.handed ++ e.line = []) (hheld : e.held = []) :
    e = resting e.outline := by
  obtain ⟨hhanded, hline⟩ := List.append_eq_nil_iff.1 hnone
  rw [outline_idle h.idle, hhanded, hheld]
  obtain ⟨monitor, pump, dropped, line, handed, held⟩ := e
  obtain ⟨hasleep, hdropped, -⟩ := h
  dsimp only at hhanded hline hheld hasleep hdropped
  subst hhanded hline hheld hasleep hdropped
  rfl

/-- **A monitor does in one action what its engine does in some steps.** -/
theorem exists_perform {m : Monitor} (h : m.isOpen = false → m.inbound = []) (a : Monitor.Action) :
    ∃ steps, (resting m).run steps = resting (m.perform a) ∧
      (resting m).log entered steps = m.entered a ∧
      (resting m).log applied steps = m.absorbed a := by
  by_cases hown : a.isOwn = true
  · obtain ⟨steps, hfollows⟩ := (resting_resting h).exists_follows hown
    have hend := hfollows.resting.eq_resting hfollows.line_eq hfollows.held_eq
    have hentered := hfollows.entered_eq
    have happlied := hfollows.applied_eq
    rw [hfollows.outline_eq, outline_of_resting] at hend
    rw [outline_of_resting, Monitor.log, Monitor.log, List.append_nil] at hentered happlied
    exact ⟨steps, hend, hentered, happlied⟩
  cases a with
  | offer r =>
    refine ⟨[.offer r, .enqueue 0], ?_⟩
    show ((resting m).offer r).enqueue 0 = resting (m.offer r) ∧
      [] ++ (((resting m).offer r).entered (.enqueue 0) ++ []) = _ ∧ [] = []
    rw [offer, Monitor.offer, Monitor.entered, accepts_resting]
    by_cases hfree : m.accepts = true
    · have hopen : m.isOpen = true := (Bool.and_eq_true_iff.1 hfree).1
      rw [if_pos hfree, if_pos hfree, if_pos hfree]
      simp [take, enqueue, entered, resting, hopen]
    · rw [if_neg hfree, if_neg hfree, if_neg hfree]
      simp [enqueue, entered, resting]
  | submit r =>
    have hother : Monitor.Action.submit r ≠ .close := by simp
    exact ⟨[.submit r], resting_of_isOpen (Monitor.isOpen_perform hother), List.append_nil _, rfl⟩
  | subscribe =>
    refine ⟨[.subscribe], ?_, rfl, rfl⟩
    show (if !m.isOpen || false then resting m else { resting m with monitor := m.subscribe }) = _
    rw [Monitor.perform, Bool.or_false]
    have hother : Monitor.Action.subscribe ≠ .close := by simp
    by_cases hopen : m.isOpen = true
    · rw [if_neg (by simp [hopen])]
      exact resting_of_isOpen (Monitor.isOpen_perform hother)
    · rw [if_pos (by simp [hopen]), Monitor.subscribe, if_neg hopen]
  | unsubscribe s => exact ⟨[.unsubscribe s], rfl, rfl, rfl⟩
  | close =>
    refine ⟨[.drop, .yield], ?_, rfl, rfl⟩
    show (⟨m.close, .asleep, true, [], [], []⟩ : Engine) = resting m.close
    rw [resting, m.isOpen_close]
    rfl
  | _ => exact absurd rfl hown

/-- **So every run of a monitor is a run of its engine**, in which the same items enter the queue and the
same are applied. -/
theorem exists_run {m : Monitor} {t : Topology} {limit : Nat} {came done : List Inbound}
    (h : m.Ledger t limit came done) (actions : List Monitor.Action) :
    ∃ steps, (resting m).run steps = resting (m.run actions) ∧
      (resting m).log entered steps = m.log Monitor.entered actions ∧
      (resting m).log applied steps = m.log Monitor.absorbed actions := by
  induction actions generalizing m came done with
  | nil => exact ⟨[], rfl, rfl, rfl⟩
  | cons a actions ih =>
    obtain ⟨first, hfirst, hentered, happlied⟩ := exists_perform h.closed a
    obtain ⟨more, hmore, hentered', happlied'⟩ := ih (h.perform a)
    refine ⟨first ++ more, ?_, ?_, ?_⟩
    · rw [run_append, hfirst, hmore]
      rfl
    · rw [log_append, hfirst, hentered, hentered']
      rfl
    · rw [log_append, hfirst, happlied, happlied']
      rfl

/-! ## Sending -/

theorem books_resting {m : Monitor} {t : Topology} {limit : Nat} {came done : List Inbound}
    (h : m.Ledger t limit came done) : (resting m).Books t limit came done where
  ledger := (outline_of_resting m).symm ▸ h
  line := fun hwaits => absurd rfl hwaits
  alive := fun hkept => by simpa [resting] using hkept
  ended := fun _ => rfl

/-- A sender who is alone in the line and was handed a permit takes it and queues the report. -/
theorem Resting.run_resume (h : e.Resting) (hopen : e.monitor.isOpen = true) {r : Report}
    (hhanded : e.handed = [r]) (hline : e.line = []) (hheld : e.held = []) :
    e.run [.resume 0, .enqueue 0] = resting (e.outline.perform (.offer r)) := by
  rw [outline_idle h.idle, hhanded, hheld]
  obtain ⟨monitor, pump, dropped, line, handed, held⟩ := e
  obtain ⟨hasleep, hdropped, -⟩ := h
  dsimp only at hhanded hline hheld hasleep hdropped hopen
  rw [hopen] at hdropped
  subst hhanded hline hheld hasleep hdropped
  simp [run, perform, resume, enqueue, resting, Monitor.perform, Monitor.offer, Monitor.accepts,
    hopen]

/-- **Whoever finds no permit waits in the line while the monitor goes on by itself**, is handed a permit
that comes back, and then queues the report. -/
theorem exists_send {m : Monitor} {t : Topology} {limit : Nat} {came done : List Inbound} {ε : Type}
    (h : m.Ledger t limit came done) (hlimit : 0 < limit) (responder : Responder ε) (rounds : Nat)
    (x : ε) (r : Report) : ∃ alone : List Step, (∀ a ∈ alone, a.isOwn = true) ∧
      (resting m).run (.send r :: alone ++ [.resume 0, .enqueue 0]) =
        resting (m.send responder (rounds + 1) x r).1 := by
  rw [Monitor.send]
  by_cases hfull : m.isOpen = true ∧ m.permits = 0
  · rw [if_pos (by simpa using hfull)]
    obtain ⟨taken, hown, hrun, hquiet, -⟩ := m.settle_run responder (rounds + 1) x
    have hwaits : (resting m).perform (.send r) = { resting m with line := [r] } := by
      simp [perform, send, accepts, resting, hfull]
    have hresting : ({ resting m with line := [r] } : Engine).Resting := ⟨rfl, rfl, h.closed⟩
    have houtline : ({ resting m with line := [r] } : Engine).outline = m := outline_of_resting m
    obtain ⟨alone, hfollows⟩ := hresting.exists_follows_all hown
    have hbooks := (((books_resting h).perform (.send r)).run alone).line
    rw [hwaits] at hbooks
    generalize hend : ({ resting m with line := [r] } : Engine).run alone = e at hbooks
    have hline : e.handed ++ e.line = [r] := hend ▸ hfollows.line_eq
    have hheld : e.held = [] := hend ▸ hfollows.held_eq
    have hsame : e.outline = m.run taken := by rw [← hend, hfollows.outline_eq, houtline]
    have hstays : (m.run taken).isOpen = true :=
      (m.isOpen_run taken).2 ⟨hfull.1, fun hclose => Bool.noConfusion (hown _ hclose)⟩
    -- every external report was absorbed, so some permit came back
    have hreturned : 0 < e.outline.permits := by
      have haccepts := Monitor.accepts_of_noExternal (h.run taken).slots_eq hlimit hstays
        (hquiet (Nat.succ_pos rounds))
      rw [hsame]
      exact of_decide_eq_true (Bool.and_eq_true_iff.1 haccepts).2
    have hresting' : e.Resting := hend ▸ hfollows.resting
    have hnone : e.line = [] := by
      by_contra hwaits
      obtain ⟨hhanded, -⟩ | ⟨-, hline⟩ := List.append_eq_singleton_iff.1 hline
      · rw [outline_idle hresting'.idle, hhanded, hheld, (hbooks hwaits).2] at hreturned
        exact Nat.lt_irrefl 0 hreturned
      · exact hwaits hline
    rw [hnone, List.append_nil] at hline
    have hopen : e.monitor.isOpen = true := (congrArg Monitor.isOpen hsame).trans hstays
    have hresumed := hresting'.run_resume hopen hline hnone hheld
    refine ⟨alone, hfollows.own, ?_⟩
    show _ = resting ((m.settle responder (rounds + 1) x).1.perform (.offer r))
    rw [run_append, hrun, ← hsame, ← hresumed]
    show (((resting m).perform (.send r)).run alone).run _ = _
    rw [hwaits, hend]
  · rw [if_neg (by simpa using hfull)]
    refine ⟨[], fun _ ha => absurd ha List.not_mem_nil, ?_⟩
    show (((resting m).send r).resume 0).enqueue 0 = resting (m.offer r)
    rw [send, accepts_resting, Monitor.offer]
    by_cases hfree : m.accepts = true
    · have hopen : m.isOpen = true := (Bool.and_eq_true_iff.1 hfree).1
      rw [if_pos hfree, if_pos hfree]
      simp [take, resume, enqueue, resting, hopen]
    · have hclosed : m.isOpen = false := by
        by_contra hopen
        have hopen := Bool.not_eq_false _ ▸ hopen
        rw [Monitor.accepts, hopen, Bool.true_and, decide_eq_true_iff] at hfree
        exact hfull ⟨hopen, Nat.eq_zero_of_not_pos hfree⟩
      rw [if_neg hfree, if_neg hfree]
      simp [resume, enqueue, resting, hclosed]

end Engine
end MeshView
