/-
# Node identities and costs

A node is identified by eight bytes, the start of the SHA-256 digest of its network address.  Read
as a big-endian number they fit one 64-bit word, and the order of the words is the order of the
byte strings.  A cost is a 32-bit number attached to a node or to a link.
-/

import MeshView.Sha256

namespace MeshView

/-- Identity of a mesh participant: eight bytes, kept as the number they spell. -/
structure NodeId where
  word : UInt64
deriving DecidableEq, Inhabited

/-- Metric of a node or of a link. -/
structure Cost where
  value : UInt32
deriving DecidableEq, Inhabited

namespace NodeId

instance : LT NodeId := ⟨fun a b => a.word < b.word⟩

instance (a b : NodeId) : Decidable (a < b) := inferInstanceAs (Decidable (a.word < b.word))

theorem lt_iff {a b : NodeId} : a < b ↔ a.word.toNat < b.word.toNat := Iff.rfl

theorem ext_toNat {a b : NodeId} (h : a.word.toNat = b.word.toNat) : a = b := by
  obtain ⟨a⟩ := a
  obtain ⟨b⟩ := b
  exact congrArg NodeId.mk (UInt64.toNat_inj.mp h)

theorem lt_irrefl (a : NodeId) : ¬ a < a := fun h => Nat.lt_irrefl _ (lt_iff.mp h)

theorem lt_trans {a b c : NodeId} (hab : a < b) (hbc : b < c) : a < c :=
  lt_iff.mpr (Nat.lt_trans (lt_iff.mp hab) (lt_iff.mp hbc))

theorem ne_of_lt {a b : NodeId} (h : a < b) : a ≠ b := fun e => lt_irrefl b (e ▸ h)

/-- Two identities that are neither equal nor in order stand in the opposite order. -/
theorem lt_of_not_lt {a b : NodeId} (hne : a ≠ b) (h : ¬ a < b) : b < a := by
  rw [lt_iff] at *
  have : a.word.toNat ≠ b.word.toNat := fun e => hne (ext_toNat e)
  omega

/-- The eight bytes, most significant first. -/
def bytes (id : NodeId) : List UInt8 := Bytes.ofNat 8 id.word.toNat

/-- The identity that eight bytes spell. -/
def ofBytes (bytes : List UInt8) : NodeId := ⟨UInt64.ofNat (Bytes.toNat bytes)⟩

@[simp] theorem length_bytes (id : NodeId) : id.bytes.length = 8 := Bytes.length_ofNat 8 _

theorem ofBytes_bytes (id : NodeId) : ofBytes id.bytes = id := by
  apply ext_toNat
  simp only [ofBytes, bytes, Bytes.toNat_ofNat, Bytes.capacity_eight, UInt64.toNat_ofNat']
  rw [Nat.mod_eq_of_lt id.word.toNat_lt_size, Nat.mod_eq_of_lt id.word.toNat_lt_size]

theorem bytes_ofBytes {bytes : List UInt8} (h : bytes.length = 8) : (ofBytes bytes).bytes = bytes := by
  have hlt := Bytes.toNat_lt bytes
  rw [h, Bytes.capacity_eight] at hlt
  simp only [ofBytes, NodeId.bytes, UInt64.toNat_ofNat', Nat.mod_eq_of_lt hlt]
  rw [← h, Bytes.ofNat_toNat]

/-- The identity of a network address: the first eight bytes of the digest of its UTF-8 text. -/
def ofAddress (address : String) : NodeId :=
  ofBytes ((Sha256.digest address.toUTF8.data.toList).take 8)

/-- Sixteen hexadecimal digits. -/
def text (id : NodeId) : String := Bytes.hex id.bytes

/-- The first four bytes in hexadecimal. -/
def short (id : NodeId) : String := Bytes.hex (id.bytes.take 4)

/-- The identity that sixteen hexadecimal digits spell. -/
def ofText? (text : String) : Option NodeId :=
  match Bytes.ofHex? text.toList with
  | some bytes => if bytes.length = 8 then some (ofBytes bytes) else none
  | none => none

end NodeId

namespace Cost

/-- The four bytes, most significant first. -/
def bytes (cost : Cost) : List UInt8 := Bytes.ofNat 4 cost.value.toNat

/-- The cost that four bytes spell. -/
def ofBytes (bytes : List UInt8) : Cost := ⟨UInt32.ofNat (Bytes.toNat bytes)⟩

/-- The cost of a number below 2 ^ 32. -/
def ofNat (n : Nat) : Cost := ⟨UInt32.ofNat n⟩

@[simp] theorem length_bytes (cost : Cost) : cost.bytes.length = 4 := Bytes.length_ofNat 4 _

theorem ofBytes_bytes (cost : Cost) : ofBytes cost.bytes = cost := by
  obtain ⟨v⟩ := cost
  simp only [ofBytes, bytes, Bytes.toNat_ofNat, Bytes.capacity_four, Cost.mk.injEq]
  apply UInt32.toNat_inj.mp
  rw [UInt32.toNat_ofNat', Nat.mod_eq_of_lt v.toNat_lt_size, Nat.mod_eq_of_lt v.toNat_lt_size]

theorem bytes_ofBytes {bytes : List UInt8} (h : bytes.length = 4) : (ofBytes bytes).bytes = bytes := by
  have hlt := Bytes.toNat_lt bytes
  rw [h, Bytes.capacity_four] at hlt
  simp only [ofBytes, Cost.bytes, UInt32.toNat_ofNat', Nat.mod_eq_of_lt hlt]
  rw [← h, Bytes.ofNat_toNat]

/-- Decimal digits. -/
def text (cost : Cost) : String := toString cost.value.toNat

end Cost
end MeshView
