/-
# A monitor at work

`Monitor` absorbs an item in one action and stops in one action, and whoever sends finds a permit or
does not.  Here the same monitor is taken apart into what others see of it in between.

The pump takes an item off the queue, applies it, looks up the subscribers, tells one after another,
requests one node after another, and only then gives back the permit, sends the reply or releases the
fetched list.  A permit that comes back goes to the sender who waits longest, and counts as free only
if none waits.  A sender with a permit queues its report in a step of its own.

Dropping a monitor fails the senders who wait, and lets no permit be taken any more.  The pump ends when
it yields next, which it never does with an item in hand; until then it goes on with what waits, and
what waits when it ends is lost.

`perform` is one step of any of the parties; any schedule is a list of steps.
-/

import MeshView.Monitor

namespace MeshView

/-- What the pump is about. -/
inductive Pump where
  /-- It has yielded. -/
  | asleep
  /-- It is about to take the next item. -/
  | awake
  /-- An item was taken and is not applied yet. -/
  | taken (item : Inbound)
  /-- The item was applied, and made the differences. -/
  | applied (item : Inbound) (diff : Diff) (ids : List NodeId)
  /-- Some subscribers are still to be told of the differences, and then some identities to be
  requested. -/
  | publishing (item : Inbound) (diff : Diff) (subscribers : List Nat) (ids : List NodeId)
deriving DecidableEq

namespace Pump

/-- The item in hand. -/
def item? : Pump → Option Inbound
  | asleep | awake => none
  | taken item | applied item _ _ | publishing item _ _ _ => some item

/-- What was applied is being published; nobody can subscribe meanwhile. -/
def isPublishing : Pump → Bool
  | asleep | awake | taken _ | publishing _ _ [] [] => false
  | applied .. | publishing .. => true

end Pump

/-- A monitor, its pump, and its senders. -/
structure Engine where
  /-- Its permits are those that are free; it is open until the pump has ended. -/
  monitor : Monitor
  pump : Pump
  /-- Nobody holds the monitor any more. -/
  dropped : Bool
  /-- Reports whose senders wait for a permit, the one who waits longest first. -/
  line : List Report
  /-- Reports whose senders were handed a permit while they waited, and do not know it yet. -/
  handed : List Report
  /-- Reports whose senders have a permit and are about to queue them. -/
  held : List Report
deriving DecidableEq

namespace Engine

/-- A monitor with its pump asleep and no senders. -/
def resting (m : Monitor) : Engine := ⟨m, .asleep, !m.isOpen, [], [], []⟩

/-- A monitor of the local node alone, with nothing waiting. -/
def start (localId : NodeId) (s : Settings) : Engine := resting (.start localId s)

/-- What any of the parties does next.  Senders are given by their place among those who are in the
same position. -/
inductive Step where
  /-- A sender takes a permit if one is free, and does not wait for one. -/
  | offer (report : Report)
  /-- A sender takes a permit, or waits for one. -/
  | send (report : Report)
  /-- A sender who was handed a permit goes on. -/
  | resume (place : Nat)
  /-- A sender with a permit queues its report. -/
  | enqueue (place : Nat)
  /-- A sender who waits gives up. -/
  | leave (place : Nat)
  /-- A sender who was handed a permit gives up. -/
  | forgo (place : Nat)
  /-- A report is queued whose differences are wanted. -/
  | submit (report : Report)
  | subscribe
  | unsubscribe (subscriber : Nat)
  /-- The pump is woken. -/
  | wake
  /-- The pump takes the next item, or goes on with the one in hand. -/
  | pump
  /-- The pump yields. -/
  | yield
  /-- The next waiting request is issued. -/
  | issue
  /-- The running request ends. -/
  | finish (answer : Answer)
  /-- The monitor is dropped. -/
  | drop

/-! ## Senders -/

/-- A permit is free, and may be taken. -/
def accepts (e : Engine) : Bool := !e.dropped && 0 < e.monitor.permits

/-- A permit comes back: whoever waits longest gets it. -/
def giveBack (e : Engine) : Engine :=
  match e.line with
  | [] => { e with monitor := { e.monitor with permits := e.monitor.permits + 1 } }
  | r :: rest => { e with line := rest, handed := e.handed ++ [r] }

/-- A free permit is taken. -/
def take (e : Engine) (r : Report) : Engine :=
  { e with
    monitor := { e.monitor with permits := e.monitor.permits - 1 }
    held := e.held ++ [r] }

def offer (e : Engine) (r : Report) : Engine := if e.accepts then e.take r else e

/-- With no permit free the sender waits, unless the monitor was dropped. -/
def send (e : Engine) (r : Report) : Engine :=
  if e.accepts then e.take r else if e.dropped then e else { e with line := e.line ++ [r] }

/-- Whoever goes on after the monitor was dropped fails, and gives the permit back. -/
def resume (e : Engine) (place : Nat) : Engine :=
  match e.handed[place]? with
  | none => e
  | some r =>
    let e := { e with handed := e.handed.eraseIdx place }
    if e.dropped then e.giveBack else { e with held := e.held ++ [r] }

/-- Queues a report, as long as the pump has not ended. -/
def enqueue (e : Engine) (place : Nat) : Engine :=
  match e.held[place]? with
  | none => e
  | some r =>
    let e := { e with held := e.held.eraseIdx place }
    if e.monitor.isOpen then
      { e with monitor := { e.monitor with inbound := e.monitor.inbound ++ [.external r] } }
    else e.giveBack

def leave (e : Engine) (place : Nat) : Engine := { e with line := e.line.eraseIdx place }

def forgo (e : Engine) (place : Nat) : Engine :=
  match e.handed[place]? with
  | none => e
  | some _ => { e with handed := e.handed.eraseIdx place }.giveBack

/-! ## Pump -/

/-- Applies the reports of an item together. -/
def apply (e : Engine) (item : Inbound) : Engine :=
  let change := e.monitor.topology.applyAll item.reports
  let monitor := { e.monitor with topology := change.topology }
  let pump :=
    if change.diff.isEmpty then .publishing item change.diff [] []
    else .applied item change.diff monitor.candidates
  { e with monitor, pump }

/-- What follows once an item has been published: a permit is given back, a reply is sent, or a
fetched list is released. -/
def conclude (e : Engine) (item : Inbound) (d : Diff) : Engine :=
  match item with
  | .external _ => e.giveBack
  | .submitted .. | .fetched _ => { e with monitor := e.monitor.conclude item d }

/-- The pump goes on.  Whom it tells is settled by who is subscribed when it looks. -/
def advance (e : Engine) : Engine :=
  match e.pump with
  | .asleep => e
  | .awake =>
    match e.monitor.inbound with
    | [] => e
    | item :: rest =>
      { e with monitor := { e.monitor with inbound := rest }, pump := .taken item }
  | .taken item => e.apply item
  | .applied item d ids => { e with pump := .publishing item d e.monitor.subscribers ids }
  | .publishing item d (s :: rest) ids =>
    { e with
      monitor := { e.monitor with messages := e.monitor.messages ++ [(s, d)] }
      pump := .publishing item d rest ids }
  | .publishing item d [] (id :: rest) =>
    { e with
      monitor := { e.monitor with backfill := e.monitor.backfill.request id }
      pump := .publishing item d [] rest }
  | .publishing item d [] [] => { e with pump := .awake }.conclude item d

/-- The pump yields if it has nothing in hand; once the monitor was dropped it ends. -/
def yield (e : Engine) : Engine :=
  match e.pump.item? with
  | some _ => e
  | none =>
    if e.dropped then { e with monitor := e.monitor.close, pump := .asleep }
    else { e with pump := .asleep }

/-! ## Any step -/

def perform (e : Engine) : Step → Engine
  | .offer r => e.offer r
  | .send r => e.send r
  | .resume place => e.resume place
  | .enqueue place => e.enqueue place
  | .leave place => e.leave place
  | .forgo place => e.forgo place
  | .submit r => { e with monitor := e.monitor.submit r }
  | .subscribe =>
    if e.dropped || e.pump.isPublishing then e else { e with monitor := e.monitor.subscribe }
  | .unsubscribe s => { e with monitor := e.monitor.unsubscribe s }
  | .wake => if !e.dropped && e.pump = .asleep then { e with pump := .awake } else e
  | .pump => e.advance
  | .yield => e.yield
  | .issue => { e with monitor := { e.monitor with backfill := e.monitor.backfill.issue } }
  | .finish answer => { e with monitor := e.monitor.finish answer }
  | .drop => { e with dropped := true, line := [] }

/-- Any steps, one after another. -/
def run (e : Engine) (steps : List Step) : Engine := steps.foldl perform e

end Engine
end MeshView
