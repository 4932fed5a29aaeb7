/-
# Scenarios

A scenario lists the nodes and links of a mesh by address, names the node whose view is built, and
has a script of events.  It can be built if every address that a link joins or that an event removes
is the address of a node; the first one that is not is the fault.
-/

import MeshView.Mesh

namespace MeshView
namespace Scenario

/-- A node of a scenario. -/
structure Node where
  address : String
  cost : Option Cost
deriving DecidableEq

/-- A link of a scenario. -/
structure Link where
  a : String
  b : String
  cost : Cost
deriving DecidableEq

end Scenario

/-- A mesh to build and a script to play on it. -/
structure Scenario where
  /-- The address of the node whose view is built. -/
  localAddress : String
  nodes : List Scenario.Node
  links : List Scenario.Link
  events : List (Event String)
deriving DecidableEq

/-- Why a scenario cannot be built. -/
inductive ScenarioFault where
  | unknownAddress (address : String)
deriving DecidableEq

def ScenarioFault.message : ScenarioFault → String
  | .unknownAddress address => s!"scenario references unknown address {address}"

/-- A scenario that was built: the mesh, the local node, and the script by identity. -/
structure Stage where
  mesh : Mesh
  localId : NodeId
  events : List (Event NodeId)

namespace Scenario

/-- The mesh without links: the nodes in their order, then the local node. -/
def population (s : Scenario) : Mesh :=
  (s.nodes.foldl (fun m n => m.addNode n.address n.cost) Mesh.empty).addNode s.localAddress none

/-- The addresses that have to be known: those of links, then those that events remove. -/
def references (s : Scenario) : List String :=
  s.links.flatMap (fun l => [l.a, l.b]) ++ s.events.flatMap Event.removes

/-- The first address that has to be known and is not. -/
def unknown? (s : Scenario) : Option String :=
  s.references.find? fun address => !s.population.contains (NodeId.ofAddress address)

/-- The mesh with its links in their order. -/
def mesh (s : Scenario) : Mesh :=
  s.links.foldl (fun m l => m.addLink (NodeId.ofAddress l.a) (NodeId.ofAddress l.b) l.cost)
    s.population

/-- Builds the scenario. -/
def build (s : Scenario) : Except ScenarioFault Stage :=
  match s.unknown? with
  | some address => .error (.unknownAddress address)
  | none =>
    .ok ⟨s.mesh, NodeId.ofAddress s.localAddress, s.events.map (Event.map NodeId.ofAddress)⟩

end Scenario
end MeshView
