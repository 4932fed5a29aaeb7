/-
# Bytes: big-endian numbers and hexadecimal text

A number of a fixed width is written as its base-256 digits, the most significant first.  Writing
and reading undo each other: `toNat_ofNat` on numbers that fit the width, `ofNat_toNat` on byte
strings.  Hexadecimal text has two lowercase digits per byte.
-/

namespace MeshView
namespace Bytes

/-- How many byte strings of a width there are. -/
def capacity : Nat → Nat
  | 0 => 1
  | width + 1 => 256 * capacity width

/-- The `width` lowest base-256 digits of `n`, most significant first. -/
def ofNat : Nat → Nat → List UInt8
  | 0, _ => []
  | width + 1, n => UInt8.ofNat (n / capacity width) :: ofNat width n

/-- The number whose base-256 digits, most significant first, are the given bytes. -/
def toNat : List UInt8 → Nat
  | [] => 0
  | b :: rest => b.toNat * capacity rest.length + toNat rest

theorem capacity_pos (width : Nat) : 0 < capacity width := by
  induction width with
  | zero => decide
  | succ width ih => exact Nat.mul_pos (by decide) ih

/-- Eight bytes hold the values of a 64-bit word. -/
theorem capacity_eight : capacity 8 = UInt64.size := rfl

/-- Four bytes hold the values of a 32-bit word. -/
theorem capacity_four : capacity 4 = UInt32.size := rfl

@[simp] theorem length_ofNat (width n : Nat) : (ofNat width n).length = width := by
  induction width with
  | zero => rfl
  | succ width ih => simp [ofNat, ih]

/-- Digits above the width are dropped. -/
theorem toNat_ofNat (width n : Nat) : toNat (ofNat width n) = n % capacity width := by
  induction width with
  | zero => simp [ofNat, toNat, capacity, Nat.mod_one]
  | succ width ih =>
    have hsplit : n % (capacity width * 256) =
        n % capacity width + capacity width * (n / capacity width % 256) := Nat.mod_mul
    simp only [ofNat, toNat, length_ofNat, ih, UInt8.toNat_ofNat']
    rw [capacity, Nat.mul_comm 256, hsplit, Nat.mul_comm (capacity width), Nat.add_comm]

theorem toNat_lt (bytes : List UInt8) : toNat bytes < capacity bytes.length := by
  induction bytes with
  | nil => simp [toNat, capacity]
  | cons b rest ih =>
    have hb : b.toNat < 256 := b.toNat_lt
    have hle : (b.toNat + 1) * capacity rest.length ≤ 256 * capacity rest.length :=
      Nat.mul_le_mul_right _ hb
    simp only [toNat, List.length_cons, capacity]
    rw [Nat.add_mul, Nat.one_mul] at hle
    omega

theorem ofNat_add_mul (width k n : Nat) : ofNat width (k * capacity width + n) = ofNat width n := by
  induction width generalizing k with
  | zero => rfl
  | succ width ih =>
    have hsplit : k * capacity (width + 1) + n = (k * 256) * capacity width + n := by
      rw [capacity, Nat.mul_assoc]
    rw [hsplit]
    simp only [ofNat, ih]
    congr 1
    rw [Nat.mul_comm (k * 256), Nat.mul_add_div (capacity_pos width)]
    apply UInt8.toNat_inj.mp
    simp only [UInt8.toNat_ofNat']
    omega

/-- Every byte string is the written form of the number that it reads as. -/
theorem ofNat_toNat (bytes : List UInt8) : ofNat bytes.length (toNat bytes) = bytes := by
  induction bytes with
  | nil => rfl
  | cons b rest ih =>
    have hlt := toNat_lt rest
    simp only [List.length_cons, ofNat, toNat, ofNat_add_mul, ih]
    congr 1
    rw [Nat.mul_comm, Nat.mul_add_div (capacity_pos rest.length), Nat.div_eq_of_lt hlt]
    simp

/-- The hexadecimal digit of a number below sixteen. -/
def hexDigit (n : Nat) : Char :=
  if n < 10 then Char.ofNat (48 + n) else Char.ofNat (87 + n)

/-- Two lowercase hexadecimal digits per byte. -/
def hex (bytes : List UInt8) : String :=
  String.ofList (bytes.flatMap fun b => [hexDigit (b.toNat / 16), hexDigit (b.toNat % 16)])

/-- The value of a hexadecimal digit of either case. -/
def hexValue? (c : Char) : Option Nat :=
  if '0' ≤ c ∧ c ≤ '9' then some (c.toNat - 48)
  else if 'a' ≤ c ∧ c ≤ 'f' then some (c.toNat - 87)
  else if 'A' ≤ c ∧ c ≤ 'F' then some (c.toNat - 55)
  else none

/-- The bytes that hexadecimal text stands for; odd lengths and other characters stand for none. -/
def ofHex? : List Char → Option (List UInt8)
  | [] => some []
  | high :: low :: rest => do
    let h ← hexValue? high
    let l ← hexValue? low
    let bytes ← ofHex? rest
    return UInt8.ofNat (16 * h + l) :: bytes
  | [_] => none

end Bytes
end MeshView
