/-
# Properties of a mesh that can be checked

Each check goes through all nodes and their links.  A link has two sides, one at either end; it is
symmetric if both ends give it the same cost.
-/

import MeshView.Mesh

namespace MeshView
namespace Mesh

/-- Every side of every link: the node that holds it, its neighbour and the cost. -/
def sides (m : Mesh) : List (NodeId × NodeId × Cost) :=
  m.ids.flatMap fun id => (m.neighbors id).map fun n => (id, n.1, n.2)

/-- The number of links. -/
def linkCount (m : Mesh) : Nat := m.sides.length / 2

/-- The costs of the nodes that have one. -/
def nodeCosts (m : Mesh) : List Cost := m.sites.values.filterMap Site.cost

def nodeCostsWithin (m : Mesh) (low high : Nat) : Bool :=
  m.nodeCosts.all fun c => low ≤ c.value.toNat ∧ c.value.toNat ≤ high

def linkCostsWithin (m : Mesh) (low high : Nat) : Bool :=
  m.sides.all fun side => low ≤ side.2.2.value.toNat ∧ side.2.2.value.toNat ≤ high

/-- No node is its own neighbour. -/
def isLoopless (m : Mesh) : Bool := m.sides.all fun side => side.1 ≠ side.2.1

/-- Every link has its other side with the same cost. -/
def isSymmetric (m : Mesh) : Bool :=
  m.sides.all fun side => (m.neighbors side.2.1).contains (side.1, side.2.2)

/-- Each of the nodes is linked to the next one. -/
def isChain (m : Mesh) : List NodeId → Bool
  | a :: b :: rest => m.linked a b && isChain m (b :: rest)
  | _ => true

end Mesh
end MeshView
