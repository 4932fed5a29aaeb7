/-
# Socket addresses as text

An IPv4 address is four decimal numbers and the port after a colon.  An IPv6 address stands in
brackets, in the canonical form of hexadecimal groups: the first of the longest runs of at least
two zero groups is written as `::`, and an address that embeds an IPv4 address after `ffff` ends in
its dotted form.
-/

namespace MeshView

/-- An address and a port. -/
inductive SocketAddress where
  | v4 (octets : List UInt8) (port : UInt16)
  | v6 (octets : List UInt8) (port : UInt16)

namespace SocketAddress

/-- Four decimal numbers with points between them. -/
def dotted (octets : List UInt8) : String := ".".intercalate (octets.map fun o => toString o.toNat)

/-- The 16-bit groups of a byte string. -/
def groups : List UInt8 → List Nat
  | high :: low :: rest => (high.toNat * 256 + low.toNat) :: groups rest
  | _ => []

/-- Lowercase hexadecimal groups with colons between them. -/
def colons (gs : List Nat) : String :=
  ":".intercalate (gs.map fun g => String.ofList (Nat.toDigits 16 g))

/-- The length of the run of zeros at the front. -/
def zeroRun (gs : List Nat) : Nat := (gs.takeWhile (· == 0)).length

/-- Position and length of the first of the longest runs of zeros, for groups from position `i`. -/
def longestRun (i : Nat) : List Nat → Nat × Nat
  | [] => (i, 0)
  | g :: rest =>
    let later := longestRun (i + 1) rest
    let here := zeroRun (g :: rest)
    if later.2 ≤ here then (i, here) else later

/-- The canonical text of eight groups. -/
def canonical (gs : List Nat) : String :=
  let run := longestRun 0 gs
  if run.2 < 2 then colons gs
  else colons (gs.take run.1) ++ "::" ++ colons (gs.drop (run.1 + run.2))

/-- The canonical text of sixteen octets. -/
def v6Text (octets : List UInt8) : String :=
  if octets.take 12 = [0, 0, 0, 0, 0, 0, 0, 0, 0, 0, 255, 255] then
    "::ffff:" ++ dotted (octets.drop 12)
  else canonical (groups octets)

/-- The address with its port. -/
def text : SocketAddress → String
  | .v4 octets port => dotted octets ++ ":" ++ toString port.toNat
  | .v6 octets port => "[" ++ v6Text octets ++ "]:" ++ toString port.toNat

end SocketAddress
end MeshView
