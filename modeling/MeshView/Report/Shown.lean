/-
# Reports and identities in diagnostics
-/

import MeshView.Report
import MeshView.Text.Record

namespace MeshView

/-- An identity by its first four bytes. -/
def NodeId.shown (id : NodeId) : String := Shown.wrapped "NodeId" id.short

def Cost.shown (cost : Cost) : String := Shown.wrapped "Cost" cost.text

/-- A report by the name of its kind and its fields. -/
def Report.shown : Report → String
  | .node id cost =>
    Shown.record "NodeUpdated"
      [("node_id", id.shown), ("cost", Shown.optional (cost.map Cost.shown))]
  | .nodeGone id => Shown.record "NodeRemoved" [("node_id", id.shown)]
  | .link source target cost =>
    Shown.record "LinkUpdated"
      [("node_id1", source.shown), ("node_id2", target.shown), ("cost", cost.shown)]
  | .linkGone a b =>
    Shown.record "LinkRemoved" [("node_id1", a.shown), ("node_id2", b.shown)]

end MeshView
