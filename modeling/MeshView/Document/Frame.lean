/-
# Byte frames in documents

A frame has six lists, all of which have to be there.  A byte string is a list of small numbers; the
cost of an added node may be left out.
-/

import MeshView.Diff.Frame
import MeshView.Document.Identity

namespace MeshView

/-- A byte string as a list of numbers below 256. -/
def Source.octets? {α : Type} (source : Source α) (v : α) : Option Octets :=
  source.list? source.octet? v

namespace NodeAddedFrame

def read? {α : Type} (source : Source α) (v : α) : Option NodeAddedFrame := do
  match ← source.fields? ["nodeId", "cost"] v with
  | [id, cost] =>
    return ⟨← required source.octets? id, ← orElse none (source.optional? source.octets?) cost⟩
  | _ => none

/-- The cost is left out if there is none. -/
def toJson (f : NodeAddedFrame) : Json :=
  .record (("nodeId", .octets f.nodeId) :: (f.cost.map fun c => ("cost", .octets c)).toList)

end NodeAddedFrame

namespace NodeCostFrame

def read? {α : Type} (source : Source α) (v : α) : Option NodeCostFrame := do
  match ← source.fields? ["nodeId", "cost"] v with
  | [id, cost] => return ⟨← required source.octets? id, ← required source.octets? cost⟩
  | _ => none

def toJson (f : NodeCostFrame) : Json :=
  .record [("nodeId", .octets f.nodeId), ("cost", .octets f.cost)]

end NodeCostFrame

namespace LinkFrame

def read? {α : Type} (source : Source α) (v : α) : Option LinkFrame := do
  match ← source.fields? ["nodeId1", "nodeId2"] v with
  | [id1, id2] => return ⟨← required source.octets? id1, ← required source.octets? id2⟩
  | _ => none

def toJson (f : LinkFrame) : Json :=
  .record [("nodeId1", .octets f.nodeId1), ("nodeId2", .octets f.nodeId2)]

end LinkFrame

namespace LinkCostFrame

def read? {α : Type} (source : Source α) (v : α) : Option LinkCostFrame := do
  match ← source.fields? ["nodeId1", "nodeId2", "cost"] v with
  | [id1, id2, cost] =>
    return ⟨← required source.octets? id1, ← required source.octets? id2,
      ← required source.octets? cost⟩
  | _ => none

def toJson (f : LinkCostFrame) : Json :=
  .record [("nodeId1", .octets f.nodeId1), ("nodeId2", .octets f.nodeId2),
    ("cost", .octets f.cost)]

end LinkCostFrame

namespace Frame

def fieldNames : List String :=
  ["nodeAdded", "nodeRemoved", "nodeCostChanged", "linkAdded", "linkRemoved", "linkCostChanged"]

def read? {α : Type} (source : Source α) (v : α) : Option Frame := do
  match ← source.fields? fieldNames v with
  | [added, removed, costs, links, unlinks, linkCosts] =>
    return {
      nodeAdded := ← required (source.list? (NodeAddedFrame.read? source)) added
      nodeRemoved := ← required (source.list? source.octets?) removed
      nodeCostChanged := ← required (source.list? (NodeCostFrame.read? source)) costs
      linkAdded := ← required (source.list? (LinkCostFrame.read? source)) links
      linkRemoved := ← required (source.list? (LinkFrame.read? source)) unlinks
      linkCostChanged := ← required (source.list? (LinkCostFrame.read? source)) linkCosts }
  | _ => none

def toJson (f : Frame) : Json := .record [
  ("nodeAdded", .array (f.nodeAdded.map NodeAddedFrame.toJson)),
  ("nodeRemoved", .array (f.nodeRemoved.map Json.octets)),
  ("nodeCostChanged", .array (f.nodeCostChanged.map NodeCostFrame.toJson)),
  ("linkAdded", .array (f.linkAdded.map LinkCostFrame.toJson)),
  ("linkRemoved", .array (f.linkRemoved.map LinkFrame.toJson)),
  ("linkCostChanged", .array (f.linkCostChanged.map LinkCostFrame.toJson))]

end Frame
end MeshView
