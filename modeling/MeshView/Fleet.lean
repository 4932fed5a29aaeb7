/-
# Monitors on one mesh

Any number of monitors watch one mesh, each under a name.  A report that the mesh raises is offered
to all of them, in the order in which they were started; requests go to the mesh.  In a round every
monitor, in that order, absorbs what waits and then works; the fleet is settled after the first
round that leaves nothing waiting.  What subscribers get is logged with the name of the monitor.

A stopped monitor takes no more reports, but its worker still ends what it was asked to do.
-/

import MeshView.Mesh.Convergence
import MeshView.Monitor.Settle

namespace MeshView

/-- A monitor on a mesh. -/
structure Member where
  name : String
  monitor : Monitor
  /-- The mesh still offers reports to it. -/
  attached : Bool

/-- What a monitor handed to its subscribers since it was `before`. -/
def Member.news (x : Member) (before : Monitor) : List (String × Diff) :=
  (x.monitor.messages.drop before.messages.length).map fun message => (x.name, message.2)

/-- A mesh and the monitors that watch it. -/
structure Fleet where
  mesh : Mesh
  /-- How long an answer of the mesh takes, in milliseconds. -/
  latency : Nat
  /-- The number of rounds after which settling is cut off. -/
  rounds : Nat
  /-- The monitors, in the order in which they were started. -/
  members : List Member
  /-- Everything that subscribers got, oldest first. -/
  log : List (String × Diff)

namespace Fleet

/-- A mesh without monitors, where settling is cut off after a number of rounds. -/
def within (rounds : Nat) (mesh : Mesh) (latency : Nat) : Fleet := ⟨mesh, latency, rounds, [], []⟩

/-- A mesh without monitors. -/
def on (mesh : Mesh) (latency : Nat) : Fleet := within roundLimit mesh latency

/-- The running monitor of a name. -/
def member? (f : Fleet) (name : String) : Option Monitor :=
  (f.members.find? fun x => x.name == name && x.monitor.isOpen).map Member.monitor

/-- The running monitors. -/
def running (f : Fleet) : List Member := f.members.filter (·.monitor.isOpen)

/-! ## Schedule -/

/-- One round: the members, the mesh, and what subscribers got. -/
def round : List Member → Mesh → List Member × Mesh × List (String × Diff)
  | [], mesh => ([], mesh, [])
  | x :: rest, mesh =>
    let (monitor, mesh) := x.monitor.round Mesh.responder mesh
    let x' := { x with monitor }
    let (rest, mesh, news) := round rest mesh
    (x' :: rest, mesh, x'.news x.monitor ++ news)

/-- Nothing waits to be absorbed. -/
def isSettled (f : Fleet) : Bool := f.members.all (·.monitor.inbound.isEmpty)

/-- At most `rounds` rounds, up to the first one that leaves nothing waiting. -/
def settleFor : Nat → Fleet → Fleet
  | 0, f => f
  | rounds + 1, f =>
    let (members, mesh, news) := round f.members f.mesh
    let f := { f with members, mesh, log := f.log ++ news }
    if f.isSettled then f else settleFor rounds f

/-- Rounds until nothing waits. -/
def settle (f : Fleet) : Fleet := settleFor f.rounds f

/-! ## Starting, stopping, offering -/

/-- The monitor of a member does something. -/
def perform (f : Fleet) (index : Nat) (action : Monitor.Action) : Fleet :=
  { f with members := f.members.modify index fun x =>
    { x with monitor := x.monitor.perform action } }

/-- Stops the running monitor of a name, if there is one. -/
def stop (f : Fleet) (name : String) : Fleet :=
  match f.members.findIdx? fun x => x.name == name && x.monitor.isOpen with
  | some index => f.perform index .close
  | none => f

/-- Starts a monitor with one subscriber, who gets the topology at once.  A running monitor of the
same name is stopped afterwards. -/
def start (f : Fleet) (name : String) (localId : NodeId) (settings : Settings) : Fleet :=
  let monitor := (Monitor.start localId settings).perform .subscribe
  let f' := f.stop name
  { f' with
    members := f'.members ++ [⟨name, monitor, true⟩]
    log := f'.log ++ monitor.messages.map fun message => (name, message.2) }

/-- Offers a report to one member; if it has no permit left, the fleet settles first. -/
def offer (f : Fleet) (report : Report) (index : Nat) : Fleet :=
  match f.members[index]? with
  | none => f
  | some x =>
    if x.attached then
      let f := if x.monitor.isOpen && x.monitor.permits = 0 then f.settle else f
      f.perform index (.offer report)
    else f

/-- Offers a report to all attached members; those that were stopped are detached afterwards. -/
def emit (f : Fleet) (report : Report) : Fleet :=
  let f := (List.range f.members.length).foldl (·.offer report) f
  { f with members := f.members.map fun x => { x with attached := x.attached && x.monitor.isOpen } }

/-- Plays an event and emits the report that it raises. -/
def play (f : Fleet) (event : Event NodeId) : Fleet × Option Report :=
  let (mesh, report) := f.mesh.play event
  let f := { f with mesh }
  match report with
  | some r => (f.emit r, report)
  | none => (f, report)

/-- Plays events one after another and settles after each. -/
def playAll (f : Fleet) : List (Event NodeId) → Fleet × List (Event NodeId × Option Report)
  | [] => (f, [])
  | event :: rest =>
    let (f, report) := f.play event
    let (f, played) := f.settle.playAll rest
    (f, (event, report) :: played)

/-- Emits reports one after another and settles after each. -/
def emitAll (f : Fleet) (reports : List Report) : Fleet :=
  reports.foldl (fun f report => (f.emit report).settle) f

/-- Emits the reports by which a node announces itself and settles after each. -/
def announce (f : Fleet) (id : NodeId) : Fleet := f.emitAll (f.mesh.localView id)

/-- The nodes that a monitor knows, compared with the mesh. -/
def convergence (f : Fleet) (monitor : Monitor) : Convergence :=
  f.mesh.convergence monitor.topology.localId (IdSet.ofIds monitor.topology.nodes.keys)

/-- How many monitors reports are offered to. -/
def attachedCount (f : Fleet) : Nat := (f.members.filter (·.attached)).length

def shown (f : Fleet) : String :=
  Shown.record "SimulatedNetwork" [
    ("nodes", toString f.mesh.size), ("sinks", toString f.attachedCount),
    ("rpc_latency", Shown.milliseconds f.latency), ("requests", toString f.mesh.requests)]

end Fleet
end MeshView
