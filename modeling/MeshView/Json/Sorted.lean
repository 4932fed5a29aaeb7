/-
# Objects with their members in the order of their names
-/

import MeshView.Json

namespace MeshView
namespace Json

/-- Puts a member in front of the first one with a later name. -/
def placeMember (name : Option String) (v : Json) :
    List (Option String × Json) → List (Option String × Json)
  | [] => [(name, v)]
  | (name', v') :: rest =>
    if name.getD "" < name'.getD "" then (name, v) :: (name', v') :: rest
    else (name', v') :: placeMember name v rest

mutual

/-- The value with the members of all objects in the order of their names. -/
def sorted : Json → Json
  | .array items => .array (sortedItems items)
  | .object members => .object (sortedMembers members)
  | v => v

def sortedItems : List Json → List Json
  | [] => []
  | v :: rest => sorted v :: sortedItems rest

def sortedMembers : List (Option String × Json) → List (Option String × Json)
  | [] => []
  | (name, v) :: rest => placeMember name (sorted v) (sortedMembers rest)

end

end Json
end MeshView
