/-
# Reachable identities

The component of an identity is what can be reached from it by following links.  It is searched
level by level: the identities found last are the frontier, and their neighbours that were not
seen before are the next frontier.  With `size` stored identities no shortest path is longer than
`size`, so that many levels are enough.
-/

import MeshView.IdMap

namespace MeshView
namespace Component

/-- Marks the identities as seen and lists those that were not seen before, each once. -/
def enter : IdSet → List NodeId → IdSet × List NodeId
  | seen, [] => (seen, [])
  | seen, id :: ids =>
    if seen.contains id then enter seen ids
    else
      let (seen', fresh) := enter (seen.add id) ids
      (seen', id :: fresh)

/-- Everything seen after at most `levels` more levels. -/
def explore (neighbours : NodeId → List NodeId) : Nat → IdSet → List NodeId → IdSet
  | 0, seen, _ => seen
  | levels + 1, seen, frontier =>
    let (seen', fresh) := enter seen (frontier.flatMap neighbours)
    if fresh.isEmpty then seen' else explore neighbours levels seen' fresh

/-- The identities that links lead to from `start`, itself included, among `size` stored ones. -/
def reach (neighbours : NodeId → List NodeId) (size : Nat) (start : NodeId) : IdSet :=
  explore neighbours size (IdSet.ofIds [start]) [start]

end Component
end MeshView
