/-
# The local topology

The topology is one node's view of the mesh, a graph rooted at the local node.  Reports of nodes
and links extend it; the removal of a link or a node is followed by pruning, which leaves the
component of the local node.  An identity that is not stored is no error: what a removal names may
be gone already, and then nothing changes.

Every operation returns a `Change`: the topology after it and the differences that it made.
-/

import MeshView.Component
import MeshView.Diff
import MeshView.Topology.Vertex

namespace MeshView

/-- A graph of nodes with the local node as its root. -/
structure Topology where
  localId : NodeId
  nodes : IdMap Vertex
deriving DecidableEq

/-- A topology after some operations and the differences that they made. -/
structure Change where
  topology : Topology
  diff : Diff

namespace Change

/-- Continues with another operation and joins the differences. -/
def andThen (c : Change) (next : Topology → Change) : Change :=
  let after := next c.topology
  ⟨after.topology, c.diff ++ after.diff⟩

end Change

namespace Topology

/-- The local node alone. -/
def root (localId : NodeId) : Topology :=
  ⟨localId, (∅ : IdMap Vertex).insert localId (.bare localId none)⟩

/-- Nothing happened. -/
def unchanged (t : Topology) : Change := ⟨t, ∅⟩

def vertex? (t : Topology) (id : NodeId) : Option Vertex := t.nodes.get? id

def contains (t : Topology) (id : NodeId) : Bool := t.nodes.contains id

/-- The nodes in identity order. -/
def vertices (t : Topology) : List Vertex := t.nodes.values

def size (t : Topology) : Nat := t.nodes.size

def isEmpty (t : Topology) : Bool := t.nodes.isEmpty

/-- The neighbours of a node with the costs of the links; none for an identity that is not stored. -/
def links (t : Topology) (id : NodeId) : List (NodeId × Cost) :=
  match t.vertex? id with
  | some v => v.adjacency.links
  | none => []

/-- Stores a node without links, over a node of the same identity. -/
def store (t : Topology) (id : NodeId) (cost : Option Cost) : Topology :=
  { t with nodes := t.nodes.insert id (.bare id cost) }

/-- Removes a node, whatever its links. -/
def erase (t : Topology) (id : NodeId) : Topology := { t with nodes := t.nodes.erase id }

/-- Changes one node, if it is stored. -/
def onVertex (t : Topology) (id : NodeId) (change : Vertex → Vertex) : Topology :=
  { t with nodes := t.nodes.modify id change }

/-- Changes the adjacency of one node, if it is stored. -/
def onAdjacency (t : Topology) (id : NodeId) (change : Adjacency → Adjacency) : Topology :=
  t.onVertex id (·.onAdjacency change)

/-- One operation for each element of a list, with the differences joined. -/
def each {α : Type} (operation : Topology → α → Change) (t : Topology) (xs : List α) : Change :=
  xs.foldl (fun c x => c.andThen (operation · x)) t.unchanged

section Each
variable {α : Type} (operation : Topology → α → Change) (t : Topology)

@[simp] theorem each_nil : t.each operation [] = t.unchanged := rfl

theorem foldl_andThen (c : Change) (xs : List α) :
    xs.foldl (fun c x => c.andThen (operation · x)) c = c.andThen (·.each operation xs) := by
  induction xs generalizing c with
  | nil => exact congrArg (Change.mk c.topology) (Diff.append_empty c.diff).symm
  | cons x xs ih =>
    have hx : c.topology.each operation (x :: xs) =
        (operation c.topology x).andThen (·.each operation xs) := ih _
    rw [List.foldl_cons, ih]
    simp only [Change.andThen, hx, Diff.append_assoc]

/-- The first operation, then the others on what it leaves. -/
theorem each_cons (x : α) (xs : List α) :
    t.each operation (x :: xs) = (operation t x).andThen (·.each operation xs) :=
  foldl_andThen operation (operation t x) xs

/-- What every operation preserves, all of them preserve. -/
theorem each_induction {P : Topology → Prop} (xs : List α)
    (hstep : ∀ t, ∀ x ∈ xs, P t → P (operation t x).topology) (ht : P t) :
    P (t.each operation xs).topology := by
  induction xs generalizing t with
  | nil => exact ht
  | cons x xs ih =>
    rw [each_cons]
    exact ih _ (fun t y hy => hstep t y (List.mem_cons_of_mem _ hy))
      (hstep t x List.mem_cons_self ht)

end Each

/-! ## Reports -/

/-- Stores a node that is not stored yet; sets the cost of one that is, if a cost is given. -/
def reportNode (t : Topology) (id : NodeId) (cost : Option Cost) : Change :=
  match t.vertex? id with
  | none => ⟨t.store id cost, .nodeAdded id cost⟩
  | some v =>
    match cost with
    | none => t.unchanged
    | some c =>
      if v.cost = some c then t.unchanged else ⟨t.onVertex id (·.setCost c), .nodeCost id c⟩

/-- Stores a link: `source` holds it, `target` mirrors it. -/
def join (t : Topology) (source target : NodeId) (cost : Cost) : Topology :=
  (t.onAdjacency source (·.setStrong target cost)).onAdjacency target (·.setWeak source cost)

/-- The link part of a link report between two different stored nodes.  A new link goes to the
reporting node; a link that the reporting node holds takes the reported cost; a link that the other
end holds stays as it is. -/
def reportEdge (t : Topology) (source target : NodeId) (cost : Cost) : Change :=
  match t.vertex? source with
  | none => t.unchanged
  | some v =>
    if v.adjacency.has target then
      match v.adjacency.strong.get? target with
      | none => t.unchanged
      | some current =>
        if current = cost then t.unchanged
        else ⟨t.join source target cost, .linkCost source target cost⟩
    else ⟨t.join source target cost, .linkAdded source target cost⟩

/-- `source` reports a link to `target`.  Both are stored, and `source` counts as fetched; a link
of a node to itself has no other effect. -/
def reportLink (t : Topology) (source target : NodeId) (cost : Cost) : Change :=
  ((t.reportNode source none).andThen (·.reportNode target none)).andThen fun t =>
    let t := t.onVertex source .markFetched
    if source = target then t.unchanged else t.reportEdge source target cost

/-! ## Removals -/

/-- The node holds the link to the neighbour. -/
def holds (t : Topology) (id neighbour : NodeId) : Bool :=
  match t.vertex? id with
  | some v => v.adjacency.strong.contains neighbour
  | none => false

/-- Removes both sides of a link.  Only a link that one of the two nodes holds is reported. -/
def unlink (t : Topology) (a b : NodeId) : Change :=
  let heldByFirst := t.holds a b
  let t := t.onAdjacency a (·.dropStrong b)
  let heldBySecond := t.holds b a
  let t := t.onAdjacency b (·.dropStrong a)
  let t := if heldByFirst then t.onAdjacency b (·.dropWeak a) else t
  let t := if heldBySecond then t.onAdjacency a (·.dropWeak b) else t
  if heldByFirst || heldBySecond then ⟨t, .linkRemoved a b⟩
  else ((t.onAdjacency a (·.dropWeak b)).onAdjacency b (·.dropWeak a)).unchanged

/-- Removes a node after all its links, in the order in which it lists them. -/
def detach (t : Topology) (id : NodeId) : Change :=
  match t.vertex? id with
  | none => t.unchanged
  | some v =>
    (t.each (·.unlink id) v.adjacency.neighbours).andThen fun t => ⟨t.erase id, .nodeRemoved id⟩

/-- The stored neighbours of a node. -/
def storedNeighbours (t : Topology) (id : NodeId) : List NodeId :=
  ((t.links id).map Prod.fst).filter t.contains

/-- The component of the local node; nothing if the local node is not stored. -/
def reachable (t : Topology) : IdSet :=
  if t.contains t.localId then Component.reach t.storedNeighbours t.size t.localId else ∅

/-- Removes every node that the local node does not reach, in identity order. -/
def prune (t : Topology) : Change :=
  let reachable := t.reachable
  t.each detach (t.nodes.keys.filter fun id => !reachable.contains id)

/-- Removes a link, then prunes. -/
def dropLink (t : Topology) (a b : NodeId) : Change := (t.unlink a b).andThen prune

/-- Removes a node with all its links, then prunes. -/
def dropNode (t : Topology) (id : NodeId) : Change := (t.detach id).andThen prune

/-! ## What is known -/

/-- The nodes whose own adjacency is still unknown. -/
def unfetched (t : Topology) : List NodeId := (t.vertices.filter (!·.fetched)).map Vertex.id

/-- The nodes whose cost is still unknown. -/
def uncosted (t : Topology) : List NodeId := (t.vertices.filter (·.cost.isNone)).map Vertex.id

/-- The whole topology as additions: every node, and every link once, from the node that holds it. -/
def snapshot (t : Topology) : Diff where
  nodesAdded := t.vertices.map fun v => ⟨v.id, v.cost⟩
  linksAdded := t.vertices.flatMap fun v =>
    v.adjacency.strong.entries.map fun e => ⟨v.id, e.1, some e.2⟩

end Topology
end MeshView
