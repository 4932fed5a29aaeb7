/-
# What plain scalars stand for

A plain scalar can stand for no value, a truth value or a number.  Whole numbers are decimal without
leading zeros, or hexadecimal, octal or binary behind a mark; a number with a fraction or an
exponent is decimal.
-/

import MeshView.Bytes
import MeshView.Json

namespace MeshView
namespace Yaml

/-- A spelling of no value. -/
def isNull (text : String) : Bool := ["null", "Null", "NULL", "~"].contains text

def truth? (text : String) : Option Bool :=
  if ["true", "True", "TRUE"].contains text then some true
  else if ["false", "False", "FALSE"].contains text then some false
  else none

/-- The number that digits of a base spell; there has to be one. -/
def digits? (base : Nat) (cs : List Char) : Option Nat :=
  if cs.isEmpty then none
  else cs.foldl (fun n c => do
    let digit ← Bytes.hexValue? c
    if digit < base then return base * (← n) + digit else none) (some 0)

/-- The text without a plus sign at the front. -/
def unsigned : List Char → List Char
  | '+' :: cs => cs
  | cs => cs

/-- Digits behind a leading zero, with or without a sign: these spell no number. -/
def isPadded (cs : List Char) : Bool :=
  let cs := match cs with
    | '-' :: cs => cs
    | cs => unsigned cs
  match cs with
  | '0' :: c :: rest => (c :: rest).all Char.isDigit
  | _ => false

/-- The number behind the mark of a base. -/
def marked? : List Char → Option Nat
  | '0' :: 'x' :: cs => digits? 16 cs
  | '0' :: 'o' :: cs => digits? 8 cs
  | '0' :: 'b' :: cs => digits? 2 cs
  | _ => none

/-- A whole number that is not negative, perhaps with a plus sign. -/
def natural? (cs : List Char) : Option Nat :=
  marked? (unsigned cs) <|> if isPadded cs then none else digits? 10 (unsigned cs)

/-- The size of a whole number with a minus sign. -/
def negative? : List Char → Option Nat
  | '-' :: cs => marked? cs <|> if isPadded cs then none else digits? 10 cs
  | _ => none

/-- The digits after a decimal exponent mark, with their sign. -/
def exponent? (cs : List Char) : Option Int :=
  match cs with
  | [] => some 0
  | c :: cs =>
    if c ≠ 'e' ∧ c ≠ 'E' then none
    else match cs with
      | '-' :: cs => (digits? 10 cs).map fun n => -(n : Int)
      | cs => (digits? 10 (unsigned cs)).map fun n => (n : Int)

/-- A decimal number without a sign that rounds to a finite double. -/
def isDecimal (cs : List Char) : Bool :=
  let whole := cs.takeWhile Char.isDigit
  let rest := cs.dropWhile Char.isDigit
  let (fraction, rest) := match rest with
    | '.' :: cs => (cs.takeWhile Char.isDigit, cs.dropWhile Char.isDigit)
    | cs => ([], cs)
  match digits? 10 (whole ++ fraction), exponent? rest with
  | some n, some exponent => Json.fitsDouble n (exponent - fraction.length)
  | _, _ => false

/-- A number that is not whole, in decimal or by one of the spellings of infinity and of no
number. -/
def isReal (text : String) : Bool :=
  let cs := text.toList
  let number := match cs with
    | '-' :: cs => isDecimal cs
    | cs => isDecimal (unsigned cs)
  [".inf", ".Inf", ".INF", "+.inf", "+.Inf", "+.INF", "-.inf", "-.Inf", "-.INF", ".nan", ".NaN",
    ".NAN"].contains text || number

end Yaml
end MeshView
