/-
# JSON values

A JSON value is kept as its text says it: the members of an object in their order, repeated names
included, and numbers in two sorts, plain digits on the one hand and everything with a sign, a
fraction or an exponent on the other.  A string can name half of a surrogate pair by an escape;
it has a place in the grammar but stands for no text.
-/

namespace MeshView

/-- A JSON value. -/
inductive Json where
  | null
  | bool (b : Bool)
  /-- A number written with digits only. -/
  | natural (n : Nat)
  /-- Any other number: `digits * 10 ^ exponent` with its sign. -/
  | real (negative : Bool) (digits : Nat) (exponent : Int)
  /-- No text if an escape names half of a surrogate pair. -/
  | string (text : Option String)
  | array (items : List Json)
  | object (members : List (Option String × Json))
deriving Inhabited

namespace Json

def text (s : String) : Json := .string (some s)

/-- An object with proper names. -/
def record (members : List (String × Json)) : Json :=
  .object (members.map fun m => (some m.1, m.2))

/-- An array of small numbers. -/
def octets (bytes : List UInt8) : Json := .array (bytes.map fun b => .natural b.toNat)

/-- `null` for no value. -/
def optional (value : Option Json) : Json := value.getD .null

mutual

/-- How many arrays and objects lie around the innermost value, the value itself included. -/
def depth : Json → Nat
  | .array items => depthItems items + 1
  | .object members => depthMembers members + 1
  | _ => 0

def depthItems : List Json → Nat
  | [] => 0
  | v :: rest => max (depth v) (depthItems rest)

def depthMembers : List (Option String × Json) → Nat
  | [] => 0
  | (_, v) :: rest => max (depth v) (depthMembers rest)

end

/-- The least number that rounds to no finite double. -/
def doubleLimit : Nat := Nat.pow 2 1024 - Nat.pow 2 970

/-- `digits * 10 ^ exponent` rounds to a finite double. -/
def fitsDouble (digits : Nat) (exponent : Int) : Bool :=
  let places := (Nat.toDigits 10 digits).length
  if digits = 0 ∨ places + exponent ≤ 308 then true
  else if 309 < places + exponent then false
  else if 0 ≤ exponent then digits * Nat.pow 10 exponent.toNat < doubleLimit
  else digits < doubleLimit * Nat.pow 10 (-exponent).toNat

mutual

/-- Every string in the value stands for a text and every number rounds to a finite double. -/
def isProper : Json → Bool
  | .natural n => fitsDouble n 0
  | .real _ digits exponent => fitsDouble digits exponent
  | .string text => text.isSome
  | .array items => itemsProper items
  | .object members => membersProper members
  | _ => true

def itemsProper : List Json → Bool
  | [] => true
  | v :: rest => isProper v && itemsProper rest

def membersProper : List (Option String × Json) → Bool
  | [] => true
  | (name, v) :: rest => name.isSome && isProper v && membersProper rest

end

end Json
end MeshView
