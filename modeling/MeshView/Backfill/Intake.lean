/-
# A request queue and its receiver

The receiver of the answers either releases every answer at once or keeps it until it is told to
release it.  As long as no receiver is registered, answers are lost, which releases them.  Only one
receiver can be registered.  The queue takes requests through handles; without any handle it still
works off what waits.
-/

import MeshView.Backfill
import MeshView.Responder

namespace MeshView

/-- What the receiver does with an answer. -/
inductive Receiver where
  /-- Releases it at once. -/
  | releasing
  /-- Keeps it. -/
  | holding
deriving DecidableEq

/-- A request queue, its handles and its receiver. -/
structure Intake where
  backfill : Backfill
  receiver : Option Receiver
  /-- Answers that the receiver keeps, oldest first. -/
  held : List Delivery
  /-- All answers that the receiver got, oldest first. -/
  received : List Delivery
  handles : Nat
deriving DecidableEq

namespace Intake

/-- An idle queue with one handle. -/
def start (capacity : Nat) (receiver : Option Receiver) : Intake :=
  ⟨.idle capacity, receiver, [], [], 1⟩

/-- What happens to a queue with a receiver. -/
inductive Action where
  | request (id : NodeId)
  /-- The next waiting request is issued. -/
  | issue
  /-- The running request ends. -/
  | finish (answer : Answer)
  /-- The receiver releases the oldest answer of `id` that it keeps. -/
  | release (id : NodeId)

/-- Hands an answer to the receiver. -/
def deliver (i : Intake) (d : Delivery) : Intake :=
  match i.receiver with
  | none => { i with backfill := i.backfill.release d.id }
  | some .releasing =>
    { i with backfill := i.backfill.release d.id, received := i.received ++ [d] }
  | some .holding => { i with held := i.held ++ [d], received := i.received ++ [d] }

/-- Ends the running request. -/
def finish (i : Intake) (answer : Answer) : Intake :=
  let after := { i with backfill := i.backfill.finish answer }
  match i.backfill.delivery? answer with
  | some d => after.deliver d
  | none => after

/-- The receiver keeps an answer of `id`. -/
def holds (i : Intake) (id : NodeId) : Bool := i.held.any fun d => d.id = id

/-- Releases the oldest kept answer of `id`, if there is one. -/
def release (i : Intake) (id : NodeId) : Intake :=
  if i.holds id then
    { i with held := i.held.eraseP fun d => d.id = id, backfill := i.backfill.release id }
  else i

def perform (i : Intake) : Action → Intake
  | .request id => if i.handles = 0 then i else { i with backfill := i.backfill.request id }
  | .issue => { i with backfill := i.backfill.issue }
  | .finish answer => i.finish answer
  | .release id => i.release id

/-- Registers the releasing receiver; refused if there is a receiver already. -/
def register (i : Intake) : Except String Intake :=
  match i.receiver with
  | none => .ok { i with receiver := some .releasing }
  | some _ => .error "Fetcher receive callback registered twice"

/-- Adds a handle. -/
def clone (i : Intake) : Intake := { i with handles := i.handles + 1 }

/-- Gives up a handle. -/
def drop (i : Intake) : Intake := { i with handles := i.handles - 1 }

/-- One step of the worker, unless it is blocked: the running request ends once its answer is
there; with no request running the next one is issued. -/
def workStep {ε : Type} (r : Responder ε) (i : Intake) (e : ε) : Option (Intake × ε) :=
  match i.backfill.running with
  | some id => (r.answer? e id).map fun (answer, e) => (i.perform (.finish answer), e)
  | none => i.backfill.queue.head?.map fun id => (i.perform .issue, r.call e id)

/-- At most `steps` steps of the worker. -/
def workFor {ε : Type} (r : Responder ε) : Nat → Intake → ε → Intake × ε
  | 0, i, e => (i, e)
  | steps + 1, i, e =>
    match i.workStep r e with
    | some (i, e) => workFor r steps i e
    | none => (i, e)

/-- The worker goes on until it is blocked. -/
def settle {ε : Type} (r : Responder ε) (i : Intake) (e : ε) : Intake × ε :=
  workFor r i.backfill.workBound i e

end Intake
end MeshView
