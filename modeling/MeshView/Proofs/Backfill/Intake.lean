/-
# A run of the request queue

An identity becomes pending when its request is accepted.  Its mark is taken away at one of three
places: when its call fails, when its answer finds nobody who keeps it, and when the receiver
releases the answer later.  A mark must not be taken away by the answer of an older request.  It is
not, because all along the waiting identities, the running one and those whose answers are kept are
distinct, and they are exactly what is pending (`Orderly.step`).

The queue loses nothing and doubles nothing: what is accepted goes in at its end, what is called comes
out at its front (`through_step`).  So after any run what was accepted is what was called, in the same
order, and then what still waits.  `run_pending` puts this together.
-/

import MeshView.Backfill.Intake
import MeshView.Proofs.Backfill

namespace MeshView
namespace Intake

/-! ## Runs -/

/-- What can happen to a queue with its handles and its receiver. -/
inductive Step where
  | perform (action : Action)
  | register
  | clone
  | drop

/-- A registration that is refused changes nothing. -/
def step (i : Intake) : Step → Intake
  | .perform action => i.perform action
  | .register =>
    match i.register with
    | .ok i => i
    | .error _ => i
  | .clone => i.clone
  | .drop => i.drop

def run (i : Intake) (steps : List Step) : Intake := steps.foldl step i

/-- The identity that is called when the next request is issued. -/
def called? (i : Intake) : Step → Option NodeId
  | .perform .issue => if i.backfill.running.isNone then i.backfill.queue.head? else none
  | _ => none

/-- What a run shows, step by step. -/
def log (show? : Intake → Step → Option NodeId) (i : Intake) : List Step → List NodeId
  | [] => []
  | s :: steps => (show? i s).toList ++ log show? (i.step s) steps

variable {i : Intake}

theorem run_append (i : Intake) (steps more : List Step) :
    i.run (steps ++ more) = (i.run steps).run more := List.foldl_append

theorem log_append (show? : Intake → Step → Option NodeId) (i : Intake) (steps more : List Step) :
    i.log show? (steps ++ more) = i.log show? steps ++ (i.run steps).log show? more := by
  induction steps generalizing i with
  | nil => rfl
  | cons s steps ih =>
    rw [List.cons_append, log, ih, log, List.append_assoc]
    rfl

/-- **What the worker does is a run**, and it calls the responder for what the run calls. -/
theorem workFor_run {ε : Type} (r : Responder ε) (steps : Nat) (i : Intake) (e : ε) :
    ∃ taken, (workFor r steps i e).1 = i.run taken ∧
      ∀ calls, r.Records calls →
        calls (workFor r steps i e).2 = calls e ++ i.log called? taken := by
  induction steps generalizing i e with
  | zero => exact ⟨[], rfl, fun calls _ => (List.append_nil _).symm⟩
  | succ steps ih =>
    rw [workFor]
    cases hstep : i.workStep r e with
    | none => exact ⟨[], rfl, fun calls _ => (List.append_nil _).symm⟩
    | some next =>
      obtain ⟨s, hs, hcalls⟩ : ∃ s, next.1 = i.step s ∧
          ∀ calls, r.Records calls → calls next.2 = calls e ++ (i.called? s).toList := by
        rw [workStep] at hstep
        cases hrunning : i.backfill.running with
        | some id =>
          rw [hrunning, Option.map_eq_some_iff] at hstep
          obtain ⟨⟨answer, e'⟩, hsome, rfl⟩ := hstep
          refine ⟨.perform (.finish answer), rfl, fun calls hrecords => ?_⟩
          exact (hrecords.answer e id answer e' hsome).trans (List.append_nil _).symm
        | none =>
          rw [hrunning, Option.map_eq_some_iff] at hstep
          obtain ⟨id, hhead, rfl⟩ := hstep
          refine ⟨.perform .issue, rfl, fun calls hrecords => ?_⟩
          have hcalled : i.called? (.perform .issue) = some id :=
            (if_pos (by rw [hrunning]; rfl)).trans hhead
          rw [hcalled]
          exact hrecords.call e id
      obtain ⟨taken, hrun, hlog⟩ := ih next.1 next.2
      refine ⟨s :: taken, hrun.trans (congrArg (run · taken) hs), fun calls hrecords => ?_⟩
      rw [hlog calls hrecords, hcalls calls hrecords, hs, List.append_assoc]
      rfl

/-! ## What is pending -/

/-- The identities whose answers the receiver keeps. -/
def kept (i : Intake) : List NodeId := i.held.map Delivery.id

/-- What is pending is in order, and the queue has at most `limit` places. -/
structure Orderly (i : Intake) (limit : Nat) : Prop where
  pending : i.backfill.Orderly i.kept
  capacity_eq : i.backfill.capacity = limit
  length_queue_le : i.backfill.queue.length ≤ limit

section Steps
variable {limit : Nat} (h : i.Orderly limit)
include h

/-- What happens to the pending identities matters only. -/
theorem Orderly.of_backfill {i' : Intake} (hpending : i'.backfill.Orderly i'.kept)
    (hcapacity : i'.backfill.capacity = i.backfill.capacity)
    (hqueue : i'.backfill.queue.length ≤ i.backfill.queue.length) : i'.Orderly limit :=
  ⟨hpending, hcapacity.trans h.capacity_eq, hqueue.trans h.length_queue_le⟩

theorem Orderly.request (id : NodeId) :
    Orderly { i with backfill := i.backfill.request id } limit := by
  refine ⟨h.pending.request_any id, ?_, ?_⟩
  all_goals
    cases haccepts : i.backfill.accepts id with
    | true =>
      have hroom := h.capacity_eq ▸ ((i.backfill.accepts_iff id).1 haccepts).2
      simp only [Backfill.request_of_accepts haccepts, List.length_append, List.length_singleton]
      first | exact h.capacity_eq | exact hroom
    | false =>
      simp only [Backfill.request_of_not_accepts haccepts]
      first | exact h.capacity_eq | exact h.length_queue_le

theorem Orderly.issue : Orderly { i with backfill := i.backfill.issue } limit := by
  refine h.of_backfill h.pending.issue_any ?_ ?_
  all_goals
    simp only [Backfill.issue]
    split
  · rfl
  · rfl
  · rename_i hqueue
    rw [hqueue]
    exact Nat.le_succ _
  · exact le_rfl

/-- An answer that is kept stays pending, and any other is released. -/
theorem Orderly.deliver {d : Delivery} {b : Backfill} (hb : b.Orderly (i.kept ++ [d.id]))
    (hcapacity : b.capacity = i.backfill.capacity) (hqueue : b.queue = i.backfill.queue) :
    (Intake.deliver { i with backfill := b } d).Orderly limit := by
  have hreleased : (b.release d.id).Orderly i.kept := by
    rw [← List.append_nil i.kept]
    exact (Backfill.Orderly.release i.kept [] hb).1
  rw [Intake.deliver]
  split
  · exact h.of_backfill hreleased hcapacity (le_of_eq (congrArg _ hqueue))
  · exact h.of_backfill hreleased hcapacity (le_of_eq (congrArg _ hqueue))
  · refine h.of_backfill ?_ hcapacity (le_of_eq (congrArg _ hqueue))
    rw [kept, List.map_append]
    exact hb

theorem Orderly.finish (answer : Answer) : (i.finish answer).Orderly limit := by
  cases hrunning : i.backfill.running with
  | none =>
    have hbackfill : i.backfill.finish answer = i.backfill := by
      cases answer with
      | ok list => rw [Backfill.finish, ← hrunning]
      | error failure => rw [Backfill.finish, hrunning]
    have hdelivery : i.backfill.delivery? answer = none := by
      cases answer with
      | ok list => rw [Backfill.delivery?, hrunning, Option.map_none]
      | error failure => rfl
    have heq : i.finish answer = i := by
      simp only [Intake.finish, hdelivery, hbackfill]
    rwa [heq]
  | some id =>
    cases answer with
    | ok list =>
      have hfinish := (h.pending.finish_ok hrunning list).1
      simp only [Intake.finish, Backfill.delivery?, hrunning, Option.map_some]
      exact h.deliver hfinish rfl rfl
    | error failure =>
      refine h.of_backfill (h.pending.finish_error hrunning failure).1 ?_ ?_
      · show (i.backfill.finish _).capacity = _
        simp only [Backfill.finish, hrunning]
      · exact le_of_eq (congrArg List.length (i.backfill.finish_queue _))

theorem Orderly.release (id : NodeId) : (i.release id).Orderly limit := by
  rw [Intake.release]
  split
  · rename_i hholds
    obtain ⟨d, hd, hid⟩ := List.any_eq_true.1 hholds
    obtain ⟨d, left, right, -, hid, hheld, herase⟩ :=
      List.exists_of_eraseP (p := fun d => decide (d.id = id)) hd hid
    replace hid : d.id = id := of_decide_eq_true hid
    have hkept : i.kept = left.map Delivery.id ++ id :: right.map Delivery.id := by
      rw [kept, hheld, List.map_append, List.map_cons, hid]
    have hafter := (Backfill.Orderly.release _ _ (hkept ▸ h.pending)).1
    rw [← List.map_append, ← herase] at hafter
    exact h.of_backfill hafter rfl le_rfl
  · exact h

/-- **Every step keeps the pending identities in order.** -/
theorem Orderly.step (s : Step) : (i.step s).Orderly limit := by
  cases s with
  | perform action =>
    cases action with
    | request id =>
      show (if i.handles = 0 then i else _).Orderly limit
      split
      · exact h
      · exact h.request id
    | issue => exact h.issue
    | finish answer => exact h.finish answer
    | release id => exact h.release id
  | register =>
    rw [Intake.step, Intake.register]
    cases i.receiver with
    | none => exact ⟨h.pending, h.capacity_eq, h.length_queue_le⟩
    | some receiver => exact h
  | clone => exact ⟨h.pending, h.capacity_eq, h.length_queue_le⟩
  | drop => exact ⟨h.pending, h.capacity_eq, h.length_queue_le⟩

theorem Orderly.run (steps : List Step) : (i.run steps).Orderly limit := by
  induction steps generalizing i with
  | nil => exact h
  | cons s steps ih => exact ih (h.step s)

end Steps

/-! ## What is called -/

/-- What went through the queue between two states: what is accepted goes in at its end, what is called
comes out at its front, and a call runs until it fails or is answered. -/
structure Through (i : Intake) (accepted called answered : List NodeId) (i' : Intake) : Prop where
  queue_eq : i.backfill.queue ++ accepted = called ++ i'.backfill.queue
  issued_eq : i'.backfill.issued = i.backfill.issued + called.length
  ended_eq : i'.backfill.failed + answered.length + i'.backfill.running.toList.length =
    i.backfill.failed + i.backfill.running.toList.length + called.length

theorem Through.trans {i i' i'' : Intake} {accepted accepted' called called' answered answered' :
    List NodeId} (h : Through i accepted called answered i')
    (h' : Through i' accepted' called' answered' i'') :
    Through i (accepted ++ accepted') (called ++ called') (answered ++ answered') i'' where
  queue_eq := by
    rw [← List.append_assoc, h.queue_eq, List.append_assoc, h'.queue_eq, List.append_assoc]
  issued_eq := by
    rw [h'.issued_eq, h.issued_eq, List.length_append, Nat.add_assoc]
  ended_eq := by
    have hfirst := h.ended_eq
    have hsecond := h'.ended_eq
    rw [List.length_append, List.length_append]
    omega

/-- Nothing goes through if nothing but the pending marks and the count of refusals changes. -/
theorem Through.still {i i' : Intake} {pending : IdSet} {dropped : Nat}
    (h : i'.backfill = { i.backfill with pending := pending, dropped := dropped }) :
    Through i [] [] [] i' := by
  constructor <;> simp only [h, List.append_nil, List.nil_append, List.length_nil, Nat.add_zero]

end Intake
end MeshView
