/-
# A monitor keeps a topology up to date

External reports, submitted reports and fetched neighbour lists wait in one queue and are absorbed
one after another.  The differences that an item makes are published to the subscribers as one
message, in the order of their subscription; when there are any, every node that still lacks its
links, or its cost if costs are wanted, is requested.  A bounded number of external reports may
wait; each takes a permit, which it gives back once it has been absorbed.  A new subscriber first
gets the whole topology.

`perform` is one action; any schedule is a list of actions.
-/

import MeshView.Backfill
import MeshView.Settings

namespace MeshView

/-- What waits to be absorbed. -/
inductive Inbound where
  /-- A report from outside; it holds a permit. -/
  | external (report : Report)
  /-- A report whose sender waits for the differences under a ticket. -/
  | submitted (ticket : Nat) (report : Report)
  /-- A fetched neighbour list, pending until it has been absorbed. -/
  | fetched (delivery : Delivery)
deriving DecidableEq

/-- The reports of an item, which are absorbed together. -/
def Inbound.reports : Inbound → List Report
  | .external r => [r]
  | .submitted _ r => [r]
  | .fetched d => d.reports

def Inbound.isExternal : Inbound → Bool
  | .external _ => true
  | _ => false

/-- The state of a monitor. -/
structure Monitor where
  topology : Topology
  fetchCosts : Bool
  backfill : Backfill
  /-- Waiting items, the next one first. -/
  inbound : List Inbound
  /-- How many more external reports may be queued. -/
  permits : Nat
  /-- The subscribers, in the order of their subscription. -/
  subscribers : List Nat
  nextSubscriber : Nat
  /-- Everything that was handed to subscribers, oldest first. -/
  messages : List (Nat × Diff)
  nextTicket : Nat
  /-- The differences that submitted reports made, by ticket, oldest first. -/
  replies : List (Nat × Diff)
  isOpen : Bool
deriving DecidableEq

namespace Monitor

/-- A monitor of the local node alone, with nothing waiting. -/
def start (localId : NodeId) (s : Settings) : Monitor where
  topology := .root localId
  fetchCosts := s.fetchCosts
  backfill := .idle s.fetchQueueCapacity
  inbound := []
  permits := max s.notificationBuffer 1
  subscribers := []
  nextSubscriber := 0
  messages := []
  nextTicket := 0
  replies := []
  isOpen := true

/-- What happens to a monitor. -/
inductive Action where
  /-- An external report is offered. -/
  | offer (report : Report)
  /-- A report is queued whose differences are wanted. -/
  | submit (report : Report)
  | subscribe
  | unsubscribe (subscriber : Nat)
  /-- The next waiting item is absorbed. -/
  | pump
  /-- The next waiting request is issued. -/
  | issue
  /-- The running request ends. -/
  | finish (answer : Answer)
  /-- The monitor stops. -/
  | close

/-- An external report that is offered now is queued. -/
def accepts (m : Monitor) : Bool := m.isOpen && 0 < m.permits

/-- Queues an external report if there is a permit for it. -/
def offer (m : Monitor) (r : Report) : Monitor :=
  if m.accepts then
    { m with inbound := m.inbound ++ [.external r], permits := m.permits - 1 }
  else m

/-- Queues a report behind everything that waits; a stopped monitor replies that nothing changed. -/
def submit (m : Monitor) (r : Report) : Monitor :=
  let ticket := m.nextTicket
  if m.isOpen then
    { m with inbound := m.inbound ++ [.submitted ticket r], nextTicket := ticket + 1 }
  else { m with replies := m.replies ++ [(ticket, ∅)], nextTicket := ticket + 1 }

/-- Adds a subscriber and hands it the whole topology. -/
def subscribe (m : Monitor) : Monitor :=
  if m.isOpen then
    { m with
      subscribers := m.subscribers ++ [m.nextSubscriber]
      nextSubscriber := m.nextSubscriber + 1
      messages := m.messages ++ [(m.nextSubscriber, m.topology.snapshot)] }
  else m

def unsubscribe (m : Monitor) (subscriber : Nat) : Monitor :=
  { m with subscribers := m.subscribers.filter (· ≠ subscriber) }

/-- The nodes to ask: those without links, and those without a cost if costs are wanted; never the
local node. -/
def candidates (m : Monitor) : List NodeId :=
  let wanted := m.topology.unfetched ++ if m.fetchCosts then m.topology.uncosted else []
  ((IdSet.ofIds wanted).erase m.topology.localId).keys

/-- Hands differences to every subscriber. -/
def publish (m : Monitor) (d : Diff) : Monitor :=
  { m with messages := m.messages ++ m.subscribers.map fun s => (s, d) }

/-- Requests every candidate, in identity order. -/
def requestMissing (m : Monitor) : Monitor :=
  { m with backfill := m.candidates.foldl Backfill.request m.backfill }

/-- Takes over a changed topology; if anything changed, publishes the differences and requests
what is missing. -/
def absorb (m : Monitor) (change : Change) : Monitor :=
  let m := { m with topology := change.topology }
  if change.diff.isEmpty then m else (m.publish change.diff).requestMissing

/-- What follows once an item has been absorbed: a permit is given back, a reply is sent, or a
fetched list is released. -/
def conclude (m : Monitor) (item : Inbound) (d : Diff) : Monitor :=
  match item with
  | .external _ => { m with permits := m.permits + 1 }
  | .submitted ticket _ => { m with replies := m.replies ++ [(ticket, d)] }
  | .fetched delivery => { m with backfill := m.backfill.release delivery.id }

/-- Applies the reports of the next waiting item together and absorbs what they changed. -/
def pump (m : Monitor) : Monitor :=
  match m.inbound with
  | [] => m
  | item :: rest =>
    let change := m.topology.applyAll item.reports
    ({ m with inbound := rest }.absorb change).conclude item change.diff

/-- Ends the running request; its answer is queued, or discarded once the monitor has stopped. -/
def finish (m : Monitor) (answer : Answer) : Monitor :=
  let after := { m with backfill := m.backfill.finish answer }
  match m.backfill.delivery? answer with
  | none => after
  | some d =>
    if m.isOpen then { after with inbound := m.inbound ++ [.fetched d] }
    else { after with backfill := after.backfill.release d.id }

/-- Gives up a waiting item. -/
def discard (m : Monitor) : Inbound → Monitor
  | .external _ => { m with permits := m.permits + 1 }
  | .submitted ticket _ => { m with replies := m.replies ++ [(ticket, ∅)] }
  | .fetched d => { m with backfill := m.backfill.release d.id }

/-- Stops the monitor; what waits is lost. -/
def close (m : Monitor) : Monitor :=
  m.inbound.foldl discard { m with inbound := [], subscribers := [], isOpen := false }

def perform (m : Monitor) : Action → Monitor
  | .offer r => m.offer r
  | .submit r => m.submit r
  | .subscribe => m.subscribe
  | .unsubscribe s => m.unsubscribe s
  | .pump => m.pump
  | .issue => { m with backfill := m.backfill.issue }
  | .finish answer => m.finish answer
  | .close => m.close

/-- Any actions, one after another. -/
def run (m : Monitor) (actions : List Action) : Monitor := actions.foldl perform m

end Monitor
end MeshView
