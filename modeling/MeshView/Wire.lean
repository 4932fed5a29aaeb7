/-
# The wire form of identities and costs

Both have a fixed width: eight bytes for an identity, four for a cost.  Values are written one
after another without any framing, so a reader has to know the kinds in advance.  A read takes
exactly the width of its kind from the front of the buffer; with fewer bytes left it fails and
takes nothing.
-/

import MeshView.Identity

namespace MeshView
namespace Wire

/-- Why bytes are not a value. -/
inductive Fault where
  /-- The buffer ends inside the value. -/
  | truncated (name : String) (needed available : Nat)
  /-- The buffer goes on after the one value that it should hold. -/
  | trailing (typeName : String) (count : Nat)
deriving DecidableEq

def Fault.message : Fault → String
  | .truncated name needed available =>
    s!"truncated {name}: need {needed} bytes, have {available}"
  | .trailing typeName count => s!"{count} trailing bytes after {typeName}"

/-- Reading from a shared buffer.  The state is what is left of the buffer, after a failure too. -/
abbrev Reader := EStateM Fault (List UInt8)

/-- Fails if the buffer has fewer bytes than a value needs. -/
def ensure (name : String) (needed : Nat) : Reader Unit := do
  let available := (← get).length
  if available < needed then
    throw (.truncated name needed available)

theorem run_ensure (name : String) (needed : Nat) (buffer : List UInt8) :
    (ensure name needed).run buffer =
      if buffer.length < needed then .error (.truncated name needed buffer.length) buffer
      else .ok () buffer := by
  show (if buffer.length < needed then throw (.truncated name needed buffer.length)
    else pure () : Reader Unit) buffer = _
  split <;> rfl

/-- Takes bytes off the front of the buffer, which has to have them. -/
def advance (count : Nat) : Reader (List UInt8) :=
  modifyGet fun buffer => (buffer.take count, buffer.drop count)

/-- A fixed-width byte form: the values and the byte strings of the width stand for each other. -/
structure Codec (α : Type) where
  /-- The name in reports of truncated values. -/
  name : String
  /-- The name in reports of trailing bytes. -/
  typeName : String
  width : Nat
  write : α → List UInt8
  /-- The value of exactly `width` bytes. -/
  ofBytes : List UInt8 → α
  length_write (a : α) : (write a).length = width
  ofBytes_write (a : α) : ofBytes (write a) = a
  write_ofBytes {bytes : List UInt8} (h : bytes.length = width) : write (ofBytes bytes) = bytes

namespace Codec
variable {α : Type} (codec : Codec α)

/-- Reads one value from the front of the buffer. -/
def read : Reader α := do
  ensure codec.name codec.width
  return codec.ofBytes (← advance codec.width)

/-- A read of a buffer that is too short leaves it as it was; any other read takes one width. -/
theorem run_read (buffer : List UInt8) :
    codec.read.run buffer =
      if buffer.length < codec.width then
        .error (.truncated codec.name codec.width buffer.length) buffer
      else .ok (codec.ofBytes (buffer.take codec.width)) (buffer.drop codec.width) := by
  rw [read, EStateM.run_bind, run_ensure]
  by_cases h : buffer.length < codec.width
  · simp only [if_pos h]
  · simp only [if_neg h]
    rfl

/-- Reads a buffer that holds exactly one value. -/
def readWhole (buffer : List UInt8) : Except Fault α :=
  match codec.read.run buffer with
  | .error fault _ => .error fault
  | .ok value rest =>
    if rest.isEmpty then .ok value else .error (.trailing codec.typeName rest.length)

end Codec

/-- Identities as eight bytes. -/
def nodeId : Codec NodeId where
  name := "NodeId"
  typeName := "mesh_linkstate::primitives::NodeId"
  width := 8
  write := NodeId.bytes
  ofBytes := NodeId.ofBytes
  length_write := NodeId.length_bytes
  ofBytes_write := NodeId.ofBytes_bytes
  write_ofBytes := NodeId.bytes_ofBytes

/-- Costs as four bytes. -/
def cost : Codec Cost where
  name := "Cost"
  typeName := "mesh_linkstate::primitives::Cost"
  width := 4
  write := Cost.bytes
  ofBytes := Cost.ofBytes
  length_write := Cost.length_bytes
  ofBytes_write := Cost.ofBytes_bytes
  write_ofBytes := Cost.bytes_ofBytes

/-- What a read from a shared buffer asks for. -/
inductive Kind where
  | nodeId
  | cost
deriving DecidableEq

/-- A value of either kind. -/
inductive Value where
  | nodeId (id : NodeId)
  | cost (cost : Cost)
deriving DecidableEq

namespace Kind

def name : Kind → String
  | .nodeId => Wire.nodeId.name
  | .cost => Wire.cost.name

def typeName : Kind → String
  | .nodeId => Wire.nodeId.typeName
  | .cost => Wire.cost.typeName

def width : Kind → Nat
  | .nodeId => Wire.nodeId.width
  | .cost => Wire.cost.width

/-- Reads a value of this kind from the front of the buffer. -/
def read : Kind → Reader Value
  | .nodeId => .nodeId <$> Wire.nodeId.read
  | .cost => .cost <$> Wire.cost.read

end Kind

namespace Value

def kind : Value → Kind
  | .nodeId _ => .nodeId
  | .cost _ => .cost

def write : Value → List UInt8
  | .nodeId id => Wire.nodeId.write id
  | .cost c => Wire.cost.write c

end Value

/-- Values one after another. -/
def writeAll (values : List Value) : List UInt8 := values.flatMap Value.write

/-- The outcome of one read from a shared buffer and the bytes left after it. -/
@[ext]
structure Reading where
  outcome : Except Fault Value
  rest : List UInt8

/-- A read of one kind from a buffer. -/
def Kind.reading (kind : Kind) (buffer : List UInt8) : Reading :=
  match kind.read.run buffer with
  | .ok value rest => ⟨.ok value, rest⟩
  | .error fault rest => ⟨.error fault, rest⟩

/-- Reads the kinds in turn from one buffer, each from what the one before it left. -/
def readings : List Kind → List UInt8 → List Reading
  | [], _ => []
  | kind :: kinds, buffer =>
    let reading := kind.reading buffer
    reading :: readings kinds reading.rest

end Wire
end MeshView
