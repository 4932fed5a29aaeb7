/-
# Texts of values for diagnostics

A record is shown by its name and its fields between braces, a wrapped value by the name of the
wrapper and the value in parentheses, a list by its items in brackets.
-/

import MeshView.Text.Quoted

namespace MeshView
namespace Shown

/-- A list: `[a, b]`. -/
def list (items : List String) : String := "[" ++ ", ".intercalate items ++ "]"

/-- A wrapped value, such as the name and a number in parentheses. -/
def wrapped (name value : String) : String := name ++ "(" ++ value ++ ")"

/-- A record with at least one field: name, and fields between braces. -/
def record (name : String) (fields : List (String × String)) : String :=
  name ++ " \x7b " ++ ", ".intercalate (fields.map fun f => f.1 ++ ": " ++ f.2) ++ " \x7d"

/-- A value that may be absent. -/
def optional (value : Option String) : String :=
  match value with
  | some v => wrapped "Some" v
  | none => "None"

/-- A span of time given in milliseconds, in the largest unit that it fills. -/
def milliseconds (n : Nat) : String :=
  if n = 0 then "0ns"
  else if n < 1000 then s!"{n}ms"
  else
    let digits := ((toString (1000 + n % 1000)).toList.drop 1).reverse.dropWhile (· == '0')
    if digits.isEmpty then s!"{n / 1000}s"
    else toString (n / 1000) ++ "." ++ String.ofList digits.reverse ++ "s"

end Shown

end MeshView
