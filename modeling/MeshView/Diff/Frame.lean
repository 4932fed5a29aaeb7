/-
# The byte frame of a difference

A frame has the six lists of a difference with every identity and cost replaced by its bytes.
Added links and link cost changes without a cost have no byte form and are left out; a removed link
is framed without a cost.  Decoding reads the lists in their order, entry by entry and field by
field, and stops at the first field that is not a value.
-/

import MeshView.Diff
import MeshView.Wire

namespace MeshView

/-- A byte string of any length, where a value is expected. -/
abbrev Octets := List UInt8

structure NodeAddedFrame where
  nodeId : Octets
  cost : Option Octets
deriving DecidableEq

structure NodeCostFrame where
  nodeId : Octets
  cost : Octets
deriving DecidableEq

structure LinkFrame where
  nodeId1 : Octets
  nodeId2 : Octets
deriving DecidableEq

structure LinkCostFrame where
  nodeId1 : Octets
  nodeId2 : Octets
  cost : Octets
deriving DecidableEq

/-- The transmitted form of a difference. -/
structure Frame where
  nodeAdded : List NodeAddedFrame
  nodeRemoved : List Octets
  nodeCostChanged : List NodeCostFrame
  linkAdded : List LinkCostFrame
  linkRemoved : List LinkFrame
  linkCostChanged : List LinkCostFrame
deriving DecidableEq

/-- The frame of a link with a cost. -/
def LinkChange.frame? (l : LinkChange) : Option LinkCostFrame :=
  l.cost.map fun c => ⟨l.first.bytes, l.second.bytes, c.bytes⟩

/-- The byte form of a difference. -/
def Diff.frame (d : Diff) : Frame where
  nodeAdded := d.nodesAdded.map fun n => ⟨n.id.bytes, n.cost.map Cost.bytes⟩
  nodeRemoved := d.nodesRemoved.map NodeId.bytes
  nodeCostChanged := d.nodeCosts.map fun n => ⟨n.id.bytes, n.cost.bytes⟩
  linkAdded := d.linksAdded.filterMap LinkChange.frame?
  linkRemoved := d.linksRemoved.map fun l => ⟨l.first.bytes, l.second.bytes⟩
  linkCostChanged := d.linkCosts.filterMap LinkChange.frame?

/-- A frame entry that may be absent. -/
def Wire.Codec.readOptional {α : Type} (codec : Wire.Codec α) :
    Option Octets → Except Wire.Fault (Option α)
  | none => .ok none
  | some bytes => (codec.readWhole bytes).map some

def NodeAddedFrame.decode (f : NodeAddedFrame) : Except Wire.Fault NodeAdded := do
  return ⟨← Wire.nodeId.readWhole f.nodeId, ← Wire.cost.readOptional f.cost⟩

def NodeCostFrame.decode (f : NodeCostFrame) : Except Wire.Fault NodeCost := do
  return ⟨← Wire.nodeId.readWhole f.nodeId, ← Wire.cost.readWhole f.cost⟩

def LinkFrame.decode (f : LinkFrame) : Except Wire.Fault LinkChange := do
  return ⟨← Wire.nodeId.readWhole f.nodeId1, ← Wire.nodeId.readWhole f.nodeId2, none⟩

def LinkCostFrame.decode (f : LinkCostFrame) : Except Wire.Fault LinkChange := do
  let first ← Wire.nodeId.readWhole f.nodeId1
  let second ← Wire.nodeId.readWhole f.nodeId2
  let cost ← Wire.cost.readWhole f.cost
  return ⟨first, second, some cost⟩

/-- The difference that a frame spells, or the fault of its first bad field. -/
def Frame.decode (f : Frame) : Except Wire.Fault Diff := do
  let nodesAdded ← f.nodeAdded.mapM NodeAddedFrame.decode
  let nodesRemoved ← f.nodeRemoved.mapM Wire.nodeId.readWhole
  let nodeCosts ← f.nodeCostChanged.mapM NodeCostFrame.decode
  let linksAdded ← f.linkAdded.mapM LinkCostFrame.decode
  let linksRemoved ← f.linkRemoved.mapM LinkFrame.decode
  let linkCosts ← f.linkCostChanged.mapM LinkCostFrame.decode
  return { nodesAdded, nodesRemoved, nodeCosts, linksAdded, linksRemoved, linkCosts }

end MeshView
