/-
# JSON values as documents

A number that is written with digits only is a natural number.  Names that stand for no text cannot
name fields.  Contents of unknown shape have to be proper values and of limited depth.
-/

import MeshView.Document.Content
import MeshView.Json

namespace MeshView
namespace Json

/-- JSON values as a source; a list can stand for a record. -/
def source : Source Json where
  text? | .string s => s
        | _ => none
  natural? | .natural n => some n
           | _ => none
  truth? | .bool b => some b
         | _ => none
  isAbsent | .null => true
           | _ => false
  items? | .array items => some items
         | _ => none
  entries? | .object members => members.mapM fun m => m.1.map fun name => (.name name, m.2)
           | _ => none
  positional := true

mutual

/-- The value as contents of unknown shape; none for strings that stand for no text. -/
def toContent? : Json → Option Content
  | .null => some .null
  | .bool b => some (.truth b)
  | .natural n => some (if n < UInt64.size then .natural n else .number)
  | .real _ _ _ => some .number
  | .string s => s.map .text
  | .array items => (itemsToContent? items).map .list
  | .object members => (membersToContent? members).map .mapping

def itemsToContent? : List Json → Option (List Content)
  | [] => some []
  | v :: rest => do return (← toContent? v) :: (← itemsToContent? rest)

def membersToContent? : List (Option String × Json) → Option (List (Content × Content))
  | [] => some []
  | (name, v) :: rest => do
    return (.text (← name), ← toContent? v) :: (← membersToContent? rest)

end

/-- How deep arrays and objects may be nested. -/
def depthLimit : Nat := 127

/-- The contents of a value that lies in `level` arrays and objects. -/
def content? (level : Nat) (v : Json) : Option Content :=
  if v.isProper && v.depth + level ≤ depthLimit then v.toContent? else none

end Json
end MeshView
