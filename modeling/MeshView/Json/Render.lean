/-
# The text of a JSON value

The compact form: no blanks, members in their order.  In a string the quote, the backslash and
the control characters are escaped, five of them by a letter of their own; everything else stands
for itself.
-/

import MeshView.Bytes
import MeshView.Json

namespace MeshView
namespace Json

/-- A character as it stands between the quotes. -/
def escape (c : Char) : List Char :=
  if c = '"' then ['\\', '"']
  else if c = '\\' then ['\\', '\\']
  else if c = '\n' then ['\\', 'n']
  else if c = '\r' then ['\\', 'r']
  else if c = '\t' then ['\\', 't']
  else if c = '\x08' then ['\\', 'b']
  else if c = '\x0c' then ['\\', 'f']
  else if c.toNat < 32 then
    ['\\', 'u', '0', '0', Bytes.hexDigit (c.toNat / 16), Bytes.hexDigit (c.toNat % 16)]
  else [c]

/-- A quoted string. -/
def renderText (s : List Char) : List Char := '"' :: s.flatMap escape ++ ['"']

/-- A quoted string; one that stands for no text is written as half of a surrogate pair. -/
def renderString : Option String → List Char
  | some s => renderText s.toList
  | none => "\"\\ud800\"".toList

/-- Decimal digits. -/
def renderNat (n : Nat) : List Char := Nat.toDigits 10 n

def renderReal (negative : Bool) (digits : Nat) (exponent : Int) : List Char :=
  (if negative then ['-'] else []) ++ renderNat digits ++
    'e' :: (if exponent < 0 then ['-'] else []) ++ renderNat exponent.natAbs

mutual

/-- The compact text of a value. -/
def render : Json → List Char
  | .null => "null".toList
  | .bool true => "true".toList
  | .bool false => "false".toList
  | .natural n => renderNat n
  | .real negative digits exponent => renderReal negative digits exponent
  | .string text => renderString text
  | .array [] => ['[', ']']
  | .array (v :: rest) => '[' :: render v ++ renderItems rest
  | .object [] => ['{', '}']
  | .object ((name, v) :: rest) =>
    '{' :: renderString name ++ ':' :: render v ++ renderMembers rest

/-- The items after the first, up to the closing bracket. -/
def renderItems : List Json → List Char
  | [] => [']']
  | v :: rest => ',' :: render v ++ renderItems rest

/-- The members after the first, up to the closing brace. -/
def renderMembers : List (Option String × Json) → List Char
  | [] => ['}']
  | (name, v) :: rest => ',' :: renderString name ++ ':' :: render v ++ renderMembers rest

end

/-- The compact text as a string. -/
def toText (v : Json) : String := String.ofList (render v)

end Json
end MeshView
