/-
# Neighbour lists

A node that is asked for its neighbours answers with its own cost, if it tells one, and its links,
or the request fails.  The answer stands for the reports that the node itself would have sent: its
cost first, then its links in the order of the list.
-/

import MeshView.Report.Shown

namespace MeshView

/-- A node's answer to the request for its neighbours. -/
structure NeighborList where
  cost : Option Cost
  neighbors : List (NodeId × Cost)
deriving DecidableEq

/-- The reports that `id` would have sent. -/
def NeighborList.reports (answer : NeighborList) (id : NodeId) : List Report :=
  (match answer.cost with
    | some c => [.node id (some c)]
    | none => []) ++
  answer.neighbors.map fun n => .link id n.1 n.2

/-- Why a request was not answered. -/
inductive FetchFailure where
  | unreachable (id : NodeId)
  | timedOut (id : NodeId)
  /-- The asked node answered with a message of its own. -/
  | remote (message : String)
deriving DecidableEq

namespace FetchFailure

def message : FetchFailure → String
  | .unreachable id => s!"node {id.text} is unreachable"
  | .timedOut id => s!"request to node {id.text} timed out"
  | .remote message => s!"remote error: {message}"

def shown : FetchFailure → String
  | .unreachable id => Shown.wrapped "Unreachable" id.shown
  | .timedOut id => Shown.wrapped "Timeout" id.shown
  | .remote message => Shown.wrapped "Remote" (Quoted.quoted message)

end FetchFailure

/-- The outcome of one request for neighbours. -/
abbrev Answer := Except FetchFailure NeighborList

end MeshView
