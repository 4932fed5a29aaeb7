/-
# Contents of unknown shape

Where the kind of a record decides which fields it has, its contents are taken in before the kind is
known.  Then every value has to tell by itself what it is, whatever format it comes from.
-/

import MeshView.Document

namespace MeshView

/-- A value that tells by itself what it is. -/
inductive Content where
  | null
  | truth (b : Bool)
  /-- A whole number below 2 ^ 64. -/
  | natural (n : Nat)
  /-- Any other number. -/
  | number
  | text (s : String)
  | list (items : List Content)
  | mapping (entries : List (Content × Content))

namespace Content

/-- The key that a value is: a text names a field, a whole number its place. -/
def key? : Content → Option Key
  | .text s => some (.name s)
  | .natural n => some (.place n)
  | _ => none

def source : Source Content where
  text? | .text s => some s
        | _ => none
  natural? | .natural n => some n
           | _ => none
  truth? | .truth b => some b
         | _ => none
  isAbsent | .null => true
           | _ => false
  items? | .list items => some items
         | _ => none
  entries? | .mapping entries => entries.mapM fun e => (key? e.1).map fun k => (k, e.2)
           | _ => none
  positional := true

/-- Takes the value that a name has among the entries, which is there once, and leaves the others. -/
def extract? (name : String) (entries : List (Content × Content)) :
    Option (Content × List (Content × Content)) :=
  let named (e : Content × Content) : Bool := match e.1 with
    | .text s => s == name
    | _ => false
  match entries.filter named with
  | [e] => some (e.2, entries.filter fun e => !named e)
  | _ => none

/-- The kind of a tagged record and its contents without the kind.  In a mapping the kind is a field
of its own, in a list it is the first item. -/
def tagged? (tag : String) : Content → Option (Content × Content)
  | .mapping entries => (extract? tag entries).map fun (kind, rest) => (kind, .mapping rest)
  | .list (kind :: rest) => some (kind, .list rest)
  | _ => none

end Content
end MeshView
