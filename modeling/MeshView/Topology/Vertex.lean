/-
# One node of a topology and its adjacency

A link belongs to the node that reported it first: that node holds it as a strong entry, the
other end holds the weak mirror of it.  No neighbour is in both maps of one node.  A node counts
as fetched once its own adjacency has been reported; mirrors alone do not count.
-/

import MeshView.IdMap

namespace MeshView

/-- The neighbours of one node with the costs of the links. -/
structure Adjacency where
  /-- Links that this node holds. -/
  strong : IdMap Cost
  /-- Mirrors of links that the neighbour holds. -/
  weak : IdMap Cost
deriving DecidableEq

namespace Adjacency

def none : Adjacency := ⟨∅, ∅⟩

/-- The neighbour is linked by an entry of either kind. -/
def has (a : Adjacency) (neighbour : NodeId) : Bool :=
  a.strong.contains neighbour || a.weak.contains neighbour

def setStrong (a : Adjacency) (neighbour : NodeId) (cost : Cost) : Adjacency :=
  ⟨a.strong.insert neighbour cost, a.weak.erase neighbour⟩

def setWeak (a : Adjacency) (neighbour : NodeId) (cost : Cost) : Adjacency :=
  ⟨a.strong.erase neighbour, a.weak.insert neighbour cost⟩

def dropStrong (a : Adjacency) (neighbour : NodeId) : Adjacency :=
  { a with strong := a.strong.erase neighbour }

def dropWeak (a : Adjacency) (neighbour : NodeId) : Adjacency :=
  { a with weak := a.weak.erase neighbour }

/-- All neighbours with their costs, strong before weak, each group in identity order. -/
def links (a : Adjacency) : List (NodeId × Cost) := a.strong.entries ++ a.weak.entries

/-- All neighbours, in the order of `links`. -/
def neighbours (a : Adjacency) : List NodeId := a.links.map Prod.fst

def size (a : Adjacency) : Nat := a.strong.size + a.weak.size

def isEmpty (a : Adjacency) : Bool := a.strong.isEmpty && a.weak.isEmpty

end Adjacency

/-- A node of the topology. -/
structure Vertex where
  id : NodeId
  /-- Its cost, once it is known. -/
  cost : Option Cost
  adjacency : Adjacency
  /-- Its own adjacency has been reported. -/
  fetched : Bool
deriving DecidableEq

namespace Vertex

/-- A node without links that was never fetched. -/
def bare (id : NodeId) (cost : Option Cost) : Vertex := ⟨id, cost, .none, false⟩

def setCost (v : Vertex) (cost : Cost) : Vertex := { v with cost := some cost }

def markFetched (v : Vertex) : Vertex := { v with fetched := true }

def onAdjacency (v : Vertex) (change : Adjacency → Adjacency) : Vertex :=
  { v with adjacency := change v.adjacency }

/-- The adjacency that the node itself has reported. -/
def reported? (v : Vertex) : Option Adjacency := if v.fetched then some v.adjacency else none

end Vertex
end MeshView
