/-
# Reports about the mesh

The lower network layer reports nodes that appear or announce a cost, links that a node announces,
and nodes and links that go away.  A report is applied to a topology by the operation of its kind;
any number of them is applied one after another.
-/

import MeshView.Topology

namespace MeshView

/-- One event of the network layer. -/
inductive Report where
  /-- A node appeared or announced its cost. -/
  | node (id : NodeId) (cost : Option Cost)
  | nodeGone (id : NodeId)
  /-- `source` announces a link to `target`. -/
  | link (source target : NodeId) (cost : Cost)
  | linkGone (a b : NodeId)
deriving DecidableEq

/-- The name of the kind of report. -/
def Report.kind : Report → String
  | .node _ _ => "node_updated"
  | .nodeGone _ => "node_removed"
  | .link _ _ _ => "link_updated"
  | .linkGone _ _ => "link_removed"

namespace Topology

/-- The effect of one report. -/
def apply (t : Topology) : Report → Change
  | .node id cost => t.reportNode id cost
  | .nodeGone id => t.dropNode id
  | .link source target cost => t.reportLink source target cost
  | .linkGone a b => t.dropLink a b

/-- The effect of reports one after another, with their differences joined. -/
def applyAll (t : Topology) (reports : List Report) : Change := t.each apply reports

/-- The topology after reports one after another. -/
def run (t : Topology) (reports : List Report) : Topology := (t.applyAll reports).topology

end Topology
end MeshView
