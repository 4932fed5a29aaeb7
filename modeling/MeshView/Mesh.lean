/-
# The mesh itself

A mesh is the ground truth that local topologies are compared with: every node with its address,
its cost, and its links, which both ends hold.  It answers requests for neighbours on behalf of its
nodes; nodes that are offline stay in the mesh but do not answer.  Playing an event changes the mesh
and yields the report that the network layer would raise.
-/

import MeshView.Component
import MeshView.Event
import MeshView.Responder

namespace MeshView

/-- A node of a mesh. -/
structure Site where
  address : String
  cost : Option Cost
  online : Bool
  /-- The costs of its links by neighbour. -/
  links : IdMap Cost
deriving DecidableEq

/-- What the node tells about itself. -/
def Site.neighborList (s : Site) : NeighborList := ⟨s.cost, s.links.entries⟩

/-- A mesh and the number of requests that were put to it. -/
structure Mesh where
  sites : IdMap Site
  requests : Nat
deriving DecidableEq

namespace Mesh

def empty : Mesh := ⟨∅, 0⟩

def site? (m : Mesh) (id : NodeId) : Option Site := m.sites.get? id

def contains (m : Mesh) (id : NodeId) : Bool := m.sites.contains id

/-- The identities of all nodes, ascending. -/
def ids (m : Mesh) : List NodeId := m.sites.keys

def size (m : Mesh) : Nat := m.sites.size

/-- The neighbours of a node with the costs of the links; none for an unknown node. -/
def neighbors (m : Mesh) (id : NodeId) : List (NodeId × Cost) :=
  match m.site? id with
  | some s => s.links.entries
  | none => []

/-- Changes one node, if it is known. -/
def onSite (m : Mesh) (id : NodeId) (change : Site → Site) : Mesh :=
  { m with sites := m.sites.modify id change }

/-- Changes the links of one node, if it is known. -/
def onLinks (m : Mesh) (id : NodeId) (change : IdMap Cost → IdMap Cost) : Mesh :=
  m.onSite id fun s => { s with links := change s.links }

/-- Sets the cost of a known node, if a cost is given. -/
def setCost (m : Mesh) (id : NodeId) (cost : Option Cost) : Mesh :=
  match cost with
  | some c => m.onSite id fun s => { s with cost := some c }
  | none => m

/-! ## Changes -/

/-- Adds a node under its address.  A node that is known keeps its address and its links, and takes
the cost if one is given. -/
def addNode (m : Mesh) (address : String) (cost : Option Cost) : Mesh :=
  let id := NodeId.ofAddress address
  if m.contains id then m.setCost id cost
  else { m with sites := m.sites.insert id ⟨address, cost, true, ∅⟩ }

/-- A link between the two can be added: they are different and known. -/
def canLink (m : Mesh) (a b : NodeId) : Bool := a ≠ b && m.contains a && m.contains b

/-- Links two different known nodes, or sets the cost of their link. -/
def addLink (m : Mesh) (a b : NodeId) (cost : Cost) : Mesh :=
  if m.canLink a b then (m.onLinks a (·.insert b cost)).onLinks b (·.insert a cost) else m

/-- One of the two holds a link to the other. -/
def linked (m : Mesh) (a b : NodeId) : Bool :=
  (m.neighbors a).any (·.1 = b) || (m.neighbors b).any (·.1 = a)

/-- Removes the link between two nodes, if there is one. -/
def removeLink (m : Mesh) (a b : NodeId) : Mesh :=
  (m.onLinks a (·.erase b)).onLinks b (·.erase a)

/-- Removes a node with all its links, if it is known. -/
def removeNode (m : Mesh) (id : NodeId) : Mesh :=
  (m.neighbors id).foldl (fun m n => m.onLinks n.1 (·.erase id))
    { m with sites := m.sites.erase id }

/-- Takes a known node offline or back. -/
def setOnline (m : Mesh) (id : NodeId) (online : Bool) : Mesh :=
  m.onSite id fun s => { s with online }

/-- The mesh after an event, and the report that it raises.  A link between nodes of which one is
unknown, and a link of a node to itself, is rejected and raises nothing, like a pause. -/
def play (m : Mesh) : Event NodeId → Mesh × Option Report
  | .node id cost => (m.setCost id cost, some (.node id cost))
  | .nodeGone id => (m.removeNode id, some (.nodeGone id))
  | .link a b cost =>
    if m.canLink a b then (m.addLink a b cost, some (.link a b cost)) else (m, none)
  | .linkGone a b => (m.removeLink a b, some (.linkGone a b))
  | .wait _ => (m, none)

/-! ## What nodes tell -/

/-- The reports by which a node announces itself: its cost, then its links. -/
def localView (m : Mesh) (id : NodeId) : List Report :=
  match m.site? id with
  | some s => s.neighborList.reports id
  | none => []

/-- The answer of a node that is asked for its neighbours. -/
def answer (m : Mesh) (id : NodeId) : Answer :=
  match m.site? id with
  | some s => if s.online then .ok s.neighborList else .error (.unreachable id)
  | none => .error (.unreachable id)

/-- Counts a request. -/
def count (m : Mesh) : Mesh := { m with requests := m.requests + 1 }

/-- The mesh answers every request at once and counts it. -/
def responder : Responder Mesh where
  call := fun m _ => m.count
  answer? := fun m id => some (m.answer id, m)

/-! ## Components -/

/-- The nodes that links lead to from `start`, itself included; none if `start` is unknown. -/
def component (m : Mesh) (start : NodeId) : IdSet :=
  if m.contains start then
    Component.reach (fun id => (m.neighbors id).map Prod.fst) m.size start
  else ∅

end Mesh
end MeshView
