/-
# How far a view is from the mesh

The nodes that a local view knows are compared with the component of the local node.  The view has
converged if neither has a node that the other lacks.
-/

import MeshView.Mesh

namespace MeshView

/-- A view compared with what its local node can reach. -/
structure Convergence where
  localId : NodeId
  /-- How many nodes the local node reaches. -/
  expected : Nat
  /-- How many nodes the view knows. -/
  known : Nat
  /-- Reachable nodes that the view lacks, ascending. -/
  missing : List NodeId
  /-- Nodes of the view that are not reachable, ascending. -/
  extra : List NodeId
deriving DecidableEq

namespace Convergence

def converged (c : Convergence) : Bool := c.missing.isEmpty && c.extra.isEmpty

/-- The summary, line by line. -/
def lines (c : Convergence) : List String :=
  let shownIds (ids : List NodeId) : String := Shown.list (ids.map NodeId.shown)
  ["Link-State Convergence",
    s!"  Local node: {c.localId.text}",
    s!"  Reachable nodes: {c.expected}",
    s!"  Known nodes: {c.known}",
    "  Convergence: " ++ if c.converged then "ACHIEVED" else "FAILED"] ++
  (if c.missing.isEmpty then [] else ["  Missing: " ++ shownIds c.missing]) ++
  (if c.extra.isEmpty then [] else ["  Stale: " ++ shownIds c.extra])

/-- The summary with every line ended. -/
def text (c : Convergence) : String := String.join (c.lines.map (· ++ "\n"))

end Convergence

/-- Compares the nodes known to a view with the component of its local node. -/
def Mesh.convergence (m : Mesh) (localId : NodeId) (known : IdSet) : Convergence :=
  let reachable := m.component localId
  { localId
    expected := reachable.size
    known := known.size
    missing := reachable.keys.filter fun id => !known.contains id
    extra := known.keys.filter fun id => !reachable.contains id }

end MeshView
