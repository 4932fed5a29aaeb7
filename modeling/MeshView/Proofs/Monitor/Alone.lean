/-
# A monitor that is left alone

While nothing reaches a monitor from outside, it absorbs what waits, issues requests, and the running
one ends.  Settling is nothing else: it is a run of such actions (`settle_run`), whoever answers.  The
responder is told of exactly the calls that the run issues, and after the first round no external
report waits, since all that waited were absorbed and no other can have come.
-/

import MeshView.Monitor.Settle
import MeshView.Proofs.Monitor.Ledger

namespace MeshView
variable {ε : Type}

namespace Monitor

/-- The call that an action issues. -/
def called (m : Monitor) : Action → List NodeId
  | .issue => if m.backfill.running.isNone then m.backfill.queue.head?.toList else []
  | _ => []

/-- The monitor takes the action by itself. -/
def Action.isOwn : Action → Bool
  | .pump | .issue | .finish _ => true
  | _ => false

variable {m : Monitor}

/-- What a monitor does by itself queues no external reports. -/
theorem mem_inbound_own {a : Action} (ha : a.isOwn = true) {item : Inbound}
    (hitem : item ∈ (m.perform a).inbound) : item ∈ m.inbound ∨ item.isExternal = false := by
  cases a with
  | pump =>
    change item ∈ m.pump.inbound at hitem
    cases hi : m.inbound with
    | nil =>
      rw [pump, hi] at hitem
      exact .inl (hi ▸ hitem)
    | cons first rest =>
      rw [(pump_eq hi).2.1] at hitem
      exact .inl (List.mem_cons_of_mem _ hitem)
  | issue => exact .inl hitem
  | finish answer =>
    change item ∈ (m.finish answer).inbound at hitem
    rcases m.inbound_finish answer with hsame | ⟨d, -, hqueued⟩
    · exact .inl (hsame ▸ hitem)
    · rw [hqueued, List.mem_append, List.mem_singleton] at hitem
      exact hitem.imp_right fun hitem => by rw [hitem]; rfl
  | _ => cases ha

/-- With no external report waiting, none waits after what a monitor does by itself. -/
theorem noExternal_run {actions : List Action} (hown : ∀ a ∈ actions, a.isOwn = true)
    (h : ∀ item ∈ m.inbound, item.isExternal = false) :
    ∀ item ∈ (m.run actions).inbound, item.isExternal = false := by
  induction actions generalizing m with
  | nil => exact h
  | cons a actions ih =>
    obtain ⟨ha, hactions⟩ := List.forall_mem_cons.1 hown
    exact ih hactions fun item hitem => (mem_inbound_own ha hitem).elim (h item) id

/-- With no external report waiting, an open monitor accepts one. -/
theorem accepts_of_noExternal {limit : Nat} (hslots : m.slots = limit) (hlimit : 0 < limit)
    (hopen : m.isOpen = true) (h : ∀ item ∈ m.inbound, item.isExternal = false) :
    m.accepts = true := by
  have hnone : m.inbound.countP Inbound.isExternal = 0 :=
    List.countP_eq_zero.2 fun item hitem => by simp [h item hitem]
  rw [accepts, hopen, Bool.true_and, decide_eq_true_iff]
  rw [slots, hnone] at hslots
  omega

/-- Absorbing everything that waits. -/
theorem pumpAll_run (m : Monitor) : m.pumpAll = m.run (m.inbound.map fun _ => .pump) ∧
    m.pumpAll.inbound = [] := by
  have hfold : ∀ (items : List Inbound) (m : Monitor), m.inbound = items →
      items.foldl (fun m _ => m.perform .pump) m = m.run (items.map fun _ => .pump) ∧
        (items.foldl (fun m _ => m.perform .pump) m).inbound = [] := by
    intro items
    induction items with
    | nil => exact fun m hi => ⟨rfl, hi⟩
    | cons item items ih => exact fun m hi => ih m.pump (pump_eq hi).2.1
  exact hfold m.inbound m rfl

/-- What absorbing does not show, absorbing everything does not show. -/
theorem log_pumps {α : Type} {shows : Monitor → Action → List α} (h : ∀ m, shows m .pump = [])
    (items : List Inbound) (m : Monitor) : m.log shows (items.map fun _ => .pump) = [] := by
  induction items generalizing m with
  | nil => rfl
  | cons item items ih =>
    rw [List.map_cons, log, h, ih]
    rfl

/-- A step of the worker is an action, and tells the responder of the call that it issues. -/
theorem workStep_own {r : Responder ε} {e e' : ε} {m' : Monitor}
    (h : m.workStep r e = some (m', e')) : ∃ a : Action, a.isOwn = true ∧ m' = m.perform a ∧
      ∀ calls, r.Records calls → calls e' = calls e ++ m.called a := by
  rw [workStep] at h
  cases hrunning : m.backfill.running with
  | some id =>
    rw [hrunning] at h
    obtain ⟨⟨answer, e''⟩, hsome, hend⟩ := Option.map_eq_some_iff.1 h
    cases hend
    refine ⟨.finish answer, rfl, rfl, fun calls hcalls => ?_⟩
    exact (hcalls.answer e id answer e' hsome).trans (List.append_nil _).symm
  | none =>
    rw [hrunning] at h
    obtain ⟨id, hhead, hend⟩ := Option.map_eq_some_iff.1 h
    cases hend
    refine ⟨.issue, rfl, rfl, fun calls hcalls => ?_⟩
    rw [called, hrunning, hhead]
    exact hcalls.call e id

theorem workFor_run (r : Responder ε) (steps : Nat) (m : Monitor) (e : ε) :
    ∃ taken : List Action, (∀ a ∈ taken, a.isOwn = true) ∧
      (m.workFor r steps e).1 = m.run taken ∧
      ∀ calls, r.Records calls →
        calls (m.workFor r steps e).2 = calls e ++ m.log called taken := by
  induction steps generalizing m e with
  | zero => exact ⟨[], nofun, rfl, fun calls _ => (List.append_nil _).symm⟩
  | succ steps ih =>
    rw [workFor]
    cases hstep : m.workStep r e with
    | none => exact ⟨[], nofun, rfl, fun calls _ => (List.append_nil _).symm⟩
    | some next =>
      obtain ⟨m', e'⟩ := next
      obtain ⟨a, ha, rfl, hcall⟩ := workStep_own hstep
      obtain ⟨taken, htaken, hrun, hcalls⟩ := ih (m.perform a) e'
      refine ⟨a :: taken, List.forall_mem_cons.2 ⟨ha, htaken⟩, hrun, fun calls hrecords => ?_⟩
      exact (hcalls calls hrecords).trans (by rw [hcall calls hrecords, List.append_assoc]; rfl)

theorem round_run (r : Responder ε) (m : Monitor) (e : ε) :
    ∃ taken : List Action, (∀ a ∈ taken, a.isOwn = true) ∧ (m.round r e).1 = m.run taken ∧
      (∀ item ∈ (m.run taken).inbound, item.isExternal = false) ∧
      ∀ calls, r.Records calls → calls (m.round r e).2 = calls e ++ m.log called taken := by
  obtain ⟨hpumped, hnil⟩ := m.pumpAll_run
  obtain ⟨work, hwork, hworked, hcalls⟩ := workFor_run r m.pumpAll.backfill.workBound m.pumpAll e
  refine ⟨m.inbound.map (fun _ => .pump) ++ work, fun a ha => ?_, ?_, ?_, fun calls hrecords => ?_⟩
  · rcases List.mem_append.1 ha with ha | ha
    · obtain ⟨item, -, rfl⟩ := List.mem_map.1 ha
      rfl
    · exact hwork a ha
  · rw [run_append, ← hpumped]
    exact hworked
  · rw [run_append, ← hpumped]
    exact noExternal_run hwork (by simp [hnil])
  · rw [log_append, log_pumps fun _ => rfl, ← hpumped]
    exact hcalls calls hrecords

/-- **Settling is a run in which the monitor is left alone.**  It absorbs all external reports, and the
responder is told of the calls that the run issues. -/
theorem settle_run (r : Responder ε) (rounds : Nat) (m : Monitor) (e : ε) :
    ∃ taken : List Action, (∀ a ∈ taken, a.isOwn = true) ∧
      (m.settle r rounds e).1 = m.run taken ∧
      (0 < rounds → ∀ item ∈ (m.run taken).inbound, item.isExternal = false) ∧
      ∀ calls, r.Records calls →
        calls (m.settle r rounds e).2 = calls e ++ m.log called taken := by
  induction rounds generalizing m e with
  | zero => exact ⟨[], nofun, rfl, nofun, fun calls _ => (List.append_nil _).symm⟩
  | succ rounds ih =>
    obtain ⟨first, hfirst, hround, hquiet, hcalls⟩ := round_run r m e
    rw [settle]
    dsimp only
    split
    · exact ⟨first, hfirst, hround, fun _ => hquiet, hcalls⟩
    · obtain ⟨taken, htaken, hrun, -, hcalls'⟩ := ih (m.round r e).1 (m.round r e).2
      rw [hround] at hrun hcalls'
      refine ⟨first ++ taken, fun a ha => (List.mem_append.1 ha).elim (hfirst a) (htaken a), ?_,
        fun _ => ?_, fun calls hrecords => ?_⟩
      · rw [run_append, hround]
        exact hrun
      · rw [run_append]
        exact noExternal_run htaken hquiet
      · rw [hround, hcalls' calls hrecords, hcalls calls hrecords, log_append, List.append_assoc]

end Monitor
end MeshView
