/-
# Differences in documents

A difference is written with all six lists; identities are hexadecimal, and no cost is null.
-/

import MeshView.Diff
import MeshView.Json

namespace MeshView

namespace LinkChange

def toJson (l : LinkChange) : Json := .record [
  ("id1", .text l.first.text), ("id2", .text l.second.text),
  ("cost", .optional (l.cost.map fun c => .natural c.value.toNat))]

end LinkChange

namespace Diff

def toJson (d : Diff) : Json := .record [
  ("nodeAdded", .array (d.nodesAdded.map fun n => .record [
    ("id", .text n.id.text),
    ("cost", .optional (n.cost.map fun c => .natural c.value.toNat))])),
  ("nodeRemoved", .array (d.nodesRemoved.map fun id => .text id.text)),
  ("nodeCostChanged", .array (d.nodeCosts.map fun n => .record [
    ("id", .text n.id.text), ("cost", .natural n.cost.value.toNat)])),
  ("linkAdded", .array (d.linksAdded.map LinkChange.toJson)),
  ("linkRemoved", .array (d.linksRemoved.map LinkChange.toJson)),
  ("linkCostChanged", .array (d.linkCosts.map LinkChange.toJson))]

end Diff
end MeshView
