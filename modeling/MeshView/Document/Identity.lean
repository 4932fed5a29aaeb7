/-
# Identities and costs in documents

An identity is a list of its eight bytes, a cost is a number.
-/

import MeshView.Document
import MeshView.Identity
import MeshView.Json

namespace MeshView

/-- A number below 256. -/
def Source.octet? {α : Type} (source : Source α) (v : α) : Option UInt8 :=
  (source.below? 256 v).map UInt8.ofNat

namespace NodeId

/-- Reads a list of exactly eight bytes. -/
def read? {α : Type} (source : Source α) (v : α) : Option NodeId := do
  let bytes ← source.list? source.octet? v
  if bytes.length = 8 then return ofBytes bytes else none

def toJson (id : NodeId) : Json := .octets id.bytes

end NodeId

namespace Cost

/-- Reads a number below 2 ^ 32. -/
def read? {α : Type} (source : Source α) (v : α) : Option Cost :=
  (source.below? UInt32.size v).map ofNat

def toJson (c : Cost) : Json := .natural c.value.toNat

end Cost
end MeshView
