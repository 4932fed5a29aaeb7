/-
# YAML nodes as documents

Where the shape of the contents is known, a scalar of any style is a text as it is written, and a
plain one may be a number or a truth value.  An empty plain scalar stands for an empty mapping, so an
empty document does.  A list cannot stand for a record.

Where the shape is not known, a plain scalar is what it spells: no value, a truth value, a number, or
otherwise a text.  A tag can require one of these; tags of the document's own are refused.
-/

import MeshView.Document.Content
import MeshView.Yaml.Lexer
import MeshView.Yaml.Node
import MeshView.Yaml.Plain

namespace MeshView
namespace Yaml

def coreTag (name : String) : String := "tag:yaml.org,2002:" ++ name

/-- A scalar is read as a value of the kind: a plain one always, a literal block if it has the
tag of the kind. -/
def isOpenTo (kind : String) (tag : Option String) (style : Style) : Bool :=
  style = .plain || style = .literal && tag = some (coreTag kind)

/-- A scalar stands for no value: a plain one that is empty or spells it. -/
def isAbsentScalar (tag : Option String) (style : Style) (text : String) : Bool :=
  style = .plain && match tag with
    | none => text.isEmpty || isNull text
    | some tag => tag = coreTag "null" && isNull text

/-- YAML nodes as a source. -/
def source : Source Node where
  text? | .scalar _ _ text => some text
        | _ => none
  natural? | .scalar tag style text =>
             if isOpenTo "int" tag style then Yaml.natural? text.toList else none
           | _ => none
  truth? | .scalar tag style text => if isOpenTo "bool" tag style then Yaml.truth? text else none
         | _ => none
  isAbsent | .scalar tag style text => isAbsentScalar tag style text
           | _ => false
  items? | .sequence _ items => some items
         | _ => none
  entries? | .mapping _ entries => entries.mapM fun e =>
             match e.1 with
             | .scalar _ _ text => some (.name text, e.2)
             | _ => none
           | .scalar _ .plain text => if text.isEmpty then some [] else none
           | _ => none
  positional := false

/-- A whole number as contents; one that does not fit 64 bits is refused if it fits 128. -/
def wholeContent? (cs : List Char) : Option (Option Content) :=
  match Yaml.natural? cs, negative? cs with
  | some n, _ =>
    if n < UInt64.size then some (some (.natural n))
    else if n < UInt64.size * UInt64.size then some none
    else none
  | none, some n =>
    if n = 0 then some (some (.natural 0))
    else if n ≤ UInt64.size / 2 then some (some .number)
    else if n ≤ UInt64.size * UInt64.size / 2 then some none
    else none
  | none, none => none

/-- What a plain scalar without a tag spells. -/
def plainContent? (text : String) : Option Content :=
  if text.isEmpty || isNull text then some .null
  else match Yaml.truth? text with
    | some b => some (.truth b)
    | none =>
      match wholeContent? text.toList with
      | some content => content
      | none =>
        if !isPadded text.toList && isReal text then some .number else some (.text text)

/-- A scalar as contents. -/
def scalarContent? (tag : Option String) (style : Style) (text : String) : Option Content :=
  match tag with
  | none => if style = .plain then plainContent? text else some (.text text)
  | some tag =>
    if tag.startsWith "!" then none
    else if tag = coreTag "bool" then (Yaml.truth? text).map .truth
    else if tag = coreTag "int" then (wholeContent? text.toList).join
    else if tag = coreTag "float" then if isReal text then some .number else none
    else if tag = coreTag "null" then if isNull text then some .null else none
    else some (.text text)

def isOwnTag (tag : Option String) : Bool := tag.any fun t => t.startsWith "!"

/-- How deep sequences and mappings may be nested. -/
def depthLimit : Nat := 128

mutual

/-- The contents of a node around which `room` levels of nesting are left. -/
def contentWithin? : Nat → Node → Option Content
  | _, .scalar tag style text => scalarContent? tag style text
  | room + 1, .sequence tag items =>
    if isOwnTag tag then none else (itemsWithin? room items).map .list
  | room + 1, .mapping tag entries =>
    if isOwnTag tag then none else (entriesWithin? room entries).map .mapping
  | _, _ => none

def itemsWithin? : Nat → List Node → Option (List Content)
  | _, [] => some []
  | room, v :: rest => do return (← contentWithin? room v) :: (← itemsWithin? room rest)

def entriesWithin? : Nat → List (Node × Node) → Option (List (Content × Content))
  | _, [] => some []
  | room, (k, v) :: rest => do
    return (← contentWithin? room k, ← contentWithin? room v) :: (← entriesWithin? room rest)

end

/-- The contents of a node that lies in `level` sequences and mappings. -/
def content? (level : Nat) (v : Node) : Option Content := contentWithin? (depthLimit - level) v

/-- The root of the only document that a text holds. -/
def Node.ofText? (text : String) : Option Node := tokens? text >>= Node.ofTokens?

end Yaml
end MeshView
