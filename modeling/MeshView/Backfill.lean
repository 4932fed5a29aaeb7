/-
# Backfill: asking nodes for their neighbours

Requests wait in a queue of bounded length and are issued one at a time, in the order in which they
were accepted.  An identity is pending from the acceptance of its request until the request fails
or until the receiver is done with the answer; while it is pending, further requests for it are
ignored.  A request that finds the queue full is dropped and counted.
-/

import MeshView.Neighbors

namespace MeshView

/-- An answer on its way to the receiver, as the reports that it stands for. -/
structure Delivery where
  id : NodeId
  reports : List Report
deriving DecidableEq

def Delivery.shown (d : Delivery) : String :=
  Shown.record "FetchedNeighbors"
    [("node_id", d.id.shown), ("notifications", Shown.list (d.reports.map Report.shown))]

/-- The state of the request queue. -/
structure Backfill where
  /-- How many identities may wait in the queue. -/
  capacity : Nat
  /-- Waiting, running, or delivered and not yet released. -/
  pending : IdSet
  /-- Waiting identities, the next one first. -/
  queue : List NodeId
  /-- The identity of the request that was issued and not answered yet. -/
  running : Option NodeId
  issued : Nat
  failed : Nat
  dropped : Nat
deriving DecidableEq

namespace Backfill

/-- An idle queue with room for at least one identity. -/
def idle (capacity : Nat) : Backfill := ⟨max capacity 1, ∅, [], none, 0, 0, 0⟩

def isPending (b : Backfill) (id : NodeId) : Bool := b.pending.contains id

/-- A request for `id` would be queued. -/
def accepts (b : Backfill) (id : NodeId) : Bool :=
  !b.isPending id && b.queue.length < b.capacity

/-- Asks for the neighbours of `id`. -/
def request (b : Backfill) (id : NodeId) : Backfill :=
  if b.isPending id then b
  else if b.queue.length < b.capacity then
    { b with pending := b.pending.add id, queue := b.queue ++ [id] }
  else { b with dropped := b.dropped + 1 }

/-- Issues the request that waits longest, unless one is running. -/
def issue (b : Backfill) : Backfill :=
  match b.running, b.queue with
  | none, id :: rest => { b with queue := rest, running := some id, issued := b.issued + 1 }
  | _, _ => b

/-- Ends the running request with its answer.  A failure releases the identity; after a success it
stays pending until the receiver releases it. -/
def finish (b : Backfill) : Answer → Backfill
  | .ok _ => { b with running := none }
  | .error _ =>
    match b.running with
    | some id =>
      { b with running := none, pending := b.pending.erase id, failed := b.failed + 1 }
    | none => b

/-- What the receiver gets when the running request ends with the answer. -/
def delivery? (b : Backfill) : Answer → Option Delivery
  | .ok list => b.running.map fun id => ⟨id, list.reports id⟩
  | .error _ => none

/-- The receiver is done with the answer of `id`. -/
def release (b : Backfill) (id : NodeId) : Backfill := { b with pending := b.pending.erase id }

/-- More steps than the worker can take before it is blocked: two for each waiting identity and
one for the running one. -/
def workBound (b : Backfill) : Nat := 2 * b.queue.length + 1

def shown (b : Backfill) : String :=
  Shown.record "Fetcher" [
    ("pending", toString b.pending.size),
    ("stats", Shown.record "FetcherStats" [
      ("requests_issued", toString b.issued), ("requests_failed", toString b.failed),
      ("requests_dropped", toString b.dropped)])]

end Backfill
end MeshView
