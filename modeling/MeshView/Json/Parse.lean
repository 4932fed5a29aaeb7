/-
# Reading JSON text

The grammar is read strictly: no comments, no trailing commas, no leading zeros, no control
characters in strings, one value and nothing but blanks around it.  `fuel` bounds the nesting and
the number of items; the length of the text is enough.
-/

import MeshView.Bytes
import MeshView.Json

namespace MeshView
namespace Json

def isBlank (c : Char) : Bool := c = ' ' ∨ c = '\n' ∨ c = '\t' ∨ c = '\r'

def skipBlanks (cs : List Char) : List Char := cs.dropWhile isBlank

/-- The number that decimal digits spell. -/
def valueOf (digits : List Char) : Nat := digits.foldl (fun n c => 10 * n + (c.toNat - 48)) 0

/-- Digits that stand for a whole number: at least one, and a leading zero only alone. -/
def isWhole : List Char → Bool
  | [] => false
  | ['0'] => true
  | c :: _ => c ≠ '0'

/-- A fraction, if there is one: its digits, at least one after the point. -/
def fraction? : List Char → Option (List Char × List Char)
  | '.' :: cs =>
    let digits := cs.takeWhile Char.isDigit
    if digits.isEmpty then none else some (digits, cs.dropWhile Char.isDigit)
  | cs => some ([], cs)

/-- The sign of an exponent and the rest. -/
def exponentSign : List Char → Bool × List Char
  | '-' :: cs => (true, cs)
  | '+' :: cs => (false, cs)
  | cs => (false, cs)

/-- An exponent, if there is one. -/
def exponent? : List Char → Option (Option Int × List Char)
  | c :: cs =>
    if c = 'e' ∨ c = 'E' then
      let (negative, cs) := exponentSign cs
      let digits := cs.takeWhile Char.isDigit
      if digits.isEmpty then none
      else
        let size : Int := valueOf digits
        some (some (if negative then -size else size), cs.dropWhile Char.isDigit)
    else some (none, c :: cs)
  | [] => some (none, [])

/-- The digits of a number after its sign. -/
def unsignedNumber (negative : Bool) (cs : List Char) : Option (Json × List Char) := do
  let whole := cs.takeWhile Char.isDigit
  guard (isWhole whole)
  let (decimals, cs) ← fraction? (cs.dropWhile Char.isDigit)
  let (exponent, cs) ← exponent? cs
  if !negative && decimals.isEmpty && exponent.isNone then
    return (.natural (valueOf whole), cs)
  else
    return (.real negative (valueOf (whole ++ decimals)) (exponent.getD 0 - decimals.length), cs)

/-- A number at the front of the text. -/
def number : List Char → Option (Json × List Char)
  | '-' :: cs => unsignedNumber true cs
  | cs => unsignedNumber false cs

/-- The 16-bit unit that four hexadecimal digits spell. -/
def unit? (a b c d : Char) : Option Nat := do
  let a ← Bytes.hexValue? a
  let b ← Bytes.hexValue? b
  let c ← Bytes.hexValue? c
  let d ← Bytes.hexValue? d
  return ((a * 16 + b) * 16 + c) * 16 + d

/-- The character of an escape letter. -/
def escapeLetter? : Char → Option Nat
  | '"' => some 0x22
  | '\\' => some 0x5c
  | '/' => some 0x2f
  | 'b' => some 0x08
  | 'f' => some 0x0c
  | 'n' => some 0x0a
  | 'r' => some 0x0d
  | 't' => some 0x09
  | _ => none

/-- The code points of a string after its opening quote, halves of surrogate pairs by themselves,
and the text after the closing quote. -/
def stringUnits : List Char → Option (List Nat × List Char)
  | [] => none
  | '"' :: cs => some ([], cs)
  | '\\' :: 'u' :: a :: b :: c :: d :: cs => do
    let unit ← unit? a b c d
    let (units, rest) ← stringUnits cs
    return (unit :: units, rest)
  | '\\' :: e :: cs => do
    let unit ← escapeLetter? e
    let (units, rest) ← stringUnits cs
    return (unit :: units, rest)
  | c :: cs => do
    guard (c ≠ '\\' ∧ 32 ≤ c.toNat)
    let (units, rest) ← stringUnits cs
    return (c.toNat :: units, rest)

def isHighHalf (unit : Nat) : Bool := 0xd800 ≤ unit ∧ unit < 0xdc00
def isLowHalf (unit : Nat) : Bool := 0xdc00 ≤ unit ∧ unit < 0xe000

/-- The text of code points, in which halves of surrogate pairs have to stand in pairs. -/
def pairUnits : List Nat → Option (List Char)
  | [] => some []
  | high :: rest =>
    if isHighHalf high then
      match rest with
      | low :: rest =>
        if isLowHalf low then do
          let cs ← pairUnits rest
          return Char.ofNat (0x10000 + (high - 0xd800) * 0x400 + (low - 0xdc00)) :: cs
        else none
      | [] => none
    else if isLowHalf high then none
    else do
      let cs ← pairUnits rest
      return Char.ofNat high :: cs

/-- A string after its opening quote. -/
def stringBody (cs : List Char) : Option (Option String × List Char) := do
  let (units, rest) ← stringUnits cs
  return ((pairUnits units).map String.ofList, rest)

/-- The text after a given word at the front. -/
def word? : List Char → List Char → Option (List Char)
  | [], cs => some cs
  | w :: ws, c :: cs => if w = c then word? ws cs else none
  | _ :: _, [] => none

mutual

/-- A value at the front of the text, which starts with no blank. -/
def value : Nat → List Char → Option (Json × List Char)
  | 0, _ => none
  | fuel + 1, cs =>
    match cs with
    | [] => none
    | '"' :: cs => do
      let (s, rest) ← stringBody cs
      return (.string s, rest)
    | '[' :: cs =>
      match skipBlanks cs with
      | ']' :: rest => some (.array [], rest)
      | cs => do
        let (vs, rest) ← items fuel cs
        return (.array vs, rest)
    | '{' :: cs =>
      match skipBlanks cs with
      | '}' :: rest => some (.object [], rest)
      | cs => do
        let (ms, rest) ← members fuel cs
        return (.object ms, rest)
    | 'n' :: cs => do return (.null, ← word? ['u', 'l', 'l'] cs)
    | 't' :: cs => do return (.bool true, ← word? ['r', 'u', 'e'] cs)
    | 'f' :: cs => do return (.bool false, ← word? ['a', 'l', 's', 'e'] cs)
    | cs => number cs

/-- The items of an array, at least one, and its closing bracket. -/
def items : Nat → List Char → Option (List Json × List Char)
  | 0, _ => none
  | fuel + 1, cs => do
    let (v, rest) ← value fuel cs
    match skipBlanks rest with
    | ']' :: rest => return ([v], rest)
    | ',' :: rest =>
      let (vs, rest) ← items fuel (skipBlanks rest)
      return (v :: vs, rest)
    | _ => none

/-- The members of an object, at least one, and its closing brace. -/
def members : Nat → List Char → Option (List (Option String × Json) × List Char)
  | 0, _ => none
  | fuel + 1, cs =>
    match cs with
    | '"' :: cs => do
      let (name, rest) ← stringBody cs
      match skipBlanks rest with
      | ':' :: rest =>
        let (v, rest) ← value fuel (skipBlanks rest)
        match skipBlanks rest with
        | '}' :: rest => return ([(name, v)], rest)
        | ',' :: rest =>
          let (ms, rest) ← members fuel (skipBlanks rest)
          return ((name, v) :: ms, rest)
        | _ => none
      | _ => none
    | _ => none

end

/-- The value that a whole text spells. -/
def parse (cs : List Char) : Option Json := do
  let (v, rest) ← value (cs.length + 1) (skipBlanks cs)
  guard (skipBlanks rest).isEmpty
  return v

/-- The value that a string spells. -/
def ofText? (s : String) : Option Json := parse s.toList

end Json
end MeshView
