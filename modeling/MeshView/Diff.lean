/-
# Differences between two topologies

A difference has six lists, each in the order in which the changes happened.  Differences of
consecutive changes are joined list by list; contradicting entries are kept, so the entries of a
joined difference still tell what happened in which order within each list.
-/

import MeshView.Identity

namespace MeshView

/-- A node that appeared, with its cost if it is known. -/
structure NodeAdded where
  id : NodeId
  cost : Option Cost
deriving DecidableEq

/-- A node whose cost changed, with the new cost. -/
structure NodeCost where
  id : NodeId
  cost : Cost
deriving DecidableEq

/-- An undirected link; one that appeared or changed carries its cost. -/
structure LinkChange where
  first : NodeId
  second : NodeId
  cost : Option Cost
deriving DecidableEq

/-- What changed in a topology. -/
structure Diff where
  nodesAdded : List NodeAdded := []
  nodesRemoved : List NodeId := []
  nodeCosts : List NodeCost := []
  linksAdded : List LinkChange := []
  linksRemoved : List LinkChange := []
  linkCosts : List LinkChange := []
deriving DecidableEq

namespace Diff

instance : EmptyCollection Diff := ⟨⟨[], [], [], [], [], []⟩⟩
instance : Inhabited Diff := ⟨∅⟩

def nodeAdded (id : NodeId) (cost : Option Cost) : Diff := { nodesAdded := [⟨id, cost⟩] }
def nodeRemoved (id : NodeId) : Diff := { nodesRemoved := [id] }
def nodeCost (id : NodeId) (cost : Cost) : Diff := { nodeCosts := [⟨id, cost⟩] }
def linkAdded (a b : NodeId) (cost : Cost) : Diff := { linksAdded := [⟨a, b, some cost⟩] }
def linkRemoved (a b : NodeId) : Diff := { linksRemoved := [⟨a, b, none⟩] }
def linkCost (a b : NodeId) (cost : Cost) : Diff := { linkCosts := [⟨a, b, some cost⟩] }

/-- The differences of two consecutive changes, list by list. -/
def append (x y : Diff) : Diff where
  nodesAdded := x.nodesAdded ++ y.nodesAdded
  nodesRemoved := x.nodesRemoved ++ y.nodesRemoved
  nodeCosts := x.nodeCosts ++ y.nodeCosts
  linksAdded := x.linksAdded ++ y.linksAdded
  linksRemoved := x.linksRemoved ++ y.linksRemoved
  linkCosts := x.linkCosts ++ y.linkCosts

instance : Append Diff := ⟨append⟩

/-- The differences of any number of consecutive changes. -/
def concat (diffs : List Diff) : Diff := diffs.foldl (· ++ ·) ∅

/-- Nothing changed. -/
def isEmpty (d : Diff) : Bool :=
  d.nodesAdded.isEmpty && d.nodesRemoved.isEmpty && d.nodeCosts.isEmpty &&
    d.linksAdded.isEmpty && d.linksRemoved.isEmpty && d.linkCosts.isEmpty

/-- The number of entries in all six lists. -/
def size (d : Diff) : Nat :=
  d.nodesAdded.length + d.nodesRemoved.length + d.nodeCosts.length +
    d.linksAdded.length + d.linksRemoved.length + d.linkCosts.length

/-- The nodes that appeared. -/
def addedIds (d : Diff) : List NodeId := d.nodesAdded.map NodeAdded.id

@[simp] theorem empty_append (d : Diff) : ∅ ++ d = d := rfl

@[simp] theorem append_empty (d : Diff) : d ++ ∅ = d := by
  obtain ⟨_, _, _, _, _, _⟩ := d
  show append _ ∅ = _
  simp [append, EmptyCollection.emptyCollection]

theorem append_assoc (x y z : Diff) : x ++ y ++ z = x ++ (y ++ z) := by
  show append (append x y) z = append x (append y z)
  simp [append]

@[simp] theorem size_append (x y : Diff) : (x ++ y).size = x.size + y.size := by
  show (append x y).size = _
  simp only [append, size, List.length_append]
  omega

theorem isEmpty_iff {d : Diff} : d.isEmpty = true ↔ d = ∅ := by
  obtain ⟨_, _, _, _, _, _⟩ := d
  simp [isEmpty, EmptyCollection.emptyCollection, and_assoc]

end Diff
end MeshView
