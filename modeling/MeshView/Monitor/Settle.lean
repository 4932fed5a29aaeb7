/-
# The schedule of a monitor

Settling alternates between two activities.  First everything that waits is absorbed; absorbing
never queues new items.  Then the worker goes on until it is blocked: it ends the running request
once its answer is there and issues the next one when none is running; this never adds requests.
The answers that arrive are absorbed in the next round.  Settling ends with the first round after
which nothing waits.
-/

import MeshView.Monitor
import MeshView.Responder

namespace MeshView
namespace Monitor
variable {ε : Type}

/-- Absorbs everything that waits. -/
def pumpAll (m : Monitor) : Monitor := m.inbound.foldl (fun m _ => m.perform .pump) m

/-- One step of the worker, unless it is blocked. -/
def workStep (r : Responder ε) (m : Monitor) (e : ε) : Option (Monitor × ε) :=
  match m.backfill.running with
  | some id => (r.answer? e id).map fun (answer, e) => (m.perform (.finish answer), e)
  | none => m.backfill.queue.head?.map fun id => (m.perform .issue, r.call e id)

/-- At most `steps` steps of the worker. -/
def workFor (r : Responder ε) : Nat → Monitor → ε → Monitor × ε
  | 0, m, e => (m, e)
  | steps + 1, m, e =>
    match m.workStep r e with
    | some (m, e) => workFor r steps m e
    | none => (m, e)

/-- The worker goes on until it is blocked. -/
def work (r : Responder ε) (m : Monitor) (e : ε) : Monitor × ε :=
  workFor r m.backfill.workBound m e

/-- Absorbs everything that waits, then works. -/
def round (r : Responder ε) (m : Monitor) (e : ε) : Monitor × ε := m.pumpAll.work r e

/-- Nothing waits to be absorbed and the worker is blocked. -/
def isSettled (r : Responder ε) (m : Monitor) (e : ε) : Bool :=
  m.inbound.isEmpty && (m.workStep r e).isNone

/-- Rounds until nothing waits, at most `rounds` of them. -/
def settle (r : Responder ε) : Nat → Monitor → ε → Monitor × ε
  | 0, m, e => (m, e)
  | rounds + 1, m, e =>
    let (m, e) := m.round r e
    if m.inbound.isEmpty then (m, e) else settle r rounds m e

/-- Offers a report; with all permits taken the monitor settles first. -/
def send (r : Responder ε) (rounds : Nat) (m : Monitor) (e : ε) (report : Report) : Monitor × ε :=
  let (m, e) := if m.isOpen && m.permits = 0 then m.settle r rounds e else (m, e)
  (m.perform (.offer report), e)

end Monitor

/-- The number of rounds after which settling is cut off. -/
def roundLimit : Nat := 1000000000

end MeshView
