/-
# From tokens to nodes

A stream holds at most one document, whose root is a node: a scalar, a sequence or a mapping.  An
alias is replaced by the node that its anchor names; inside of that node itself it is a loop, which
has no contents that could be read.  A node that is left out is an empty plain scalar.

`fuel` bounds the nesting and the number of nodes; four times the number of tokens are enough.
-/

import MeshView.Yaml.Token

namespace MeshView
namespace Yaml

/-- A node of a document.  Tags are whole: handles have been replaced. -/
inductive Node where
  | scalar (tag : Option String) (style : Style) (text : String)
  | sequence (tag : Option String) (items : List Node)
  | mapping (tag : Option String) (entries : List (Node × Node))
  /-- An alias inside of the node that it names. -/
  | loop
deriving Inhabited

/-- A node that is left out. -/
def Node.empty : Node := .scalar none .plain ""

/-- The state of reading nodes: the tokens that are left, and what the anchors name so far. -/
structure Reading where
  tokens : List Token
  anchors : List (String × Node)

/-- Reads something from the tokens; nothing at a fault. -/
abbrev Reader (α : Type) := StateT Reading Option α

namespace Reader

def fault {α : Type} : Reader α := fun _ => none

def front? : Reader (Option Token) := fun r => some (r.tokens.head?, r)

def skip : Reader Unit := fun r => some ((), { r with tokens := r.tokens.drop 1 })

/-- Skips the token if it is the one at the front. -/
def accept (token : Token) : Reader Bool := fun r =>
  if r.tokens.head? = some token then some (true, { r with tokens := r.tokens.drop 1 })
  else some (false, r)

/-- Skips the token, which has to be the one at the front. -/
def expect (token : Token) : Reader Unit := do
  if ← accept token then return () else fault

/-- One of the tokens is at the front. -/
def isAt (tokens : List Token) : Reader Bool := fun r =>
  some (r.tokens.head?.any tokens.contains, r)

def name (anchor : String) (node : Node) : Reader Unit := fun r =>
  some ((), { r with anchors := (anchor, node) :: r.anchors })

def named (anchor : String) : Reader Node := fun r => do
  let entry ← r.anchors.find? fun e => e.1 == anchor
  return (entry.2, r)

end Reader

/-! ## Properties -/

/-- The anchor and the tag of a node. -/
structure Properties where
  anchor : Option String
  tag : Option String

/-- What a tag stands for, if its handle is known. -/
def wholeTag? (handles : List (String × String)) (handle suffix : String) : Option String :=
  if handle.isEmpty then some suffix
  else (handles.find? fun h => h.1 == handle).map fun h => h.2 ++ suffix

/-- At most one anchor and one tag, in any order. -/
def properties (handles : List (String × String)) : Reader Properties := do
  let tag? (handle suffix : String) : Reader String := do
    Reader.skip
    match wholeTag? handles handle suffix with
    | some tag => return tag
    | none => Reader.fault
  match ← Reader.front? with
  | some (.anchor anchor) =>
    Reader.skip
    match ← Reader.front? with
    | some (.tag handle suffix) => return ⟨some anchor, some (← tag? handle suffix)⟩
    | _ => return ⟨some anchor, none⟩
  | some (.tag handle suffix) =>
    let tag ← tag? handle suffix
    match ← Reader.front? with
    | some (.anchor anchor) =>
      Reader.skip
      return ⟨some anchor, some tag⟩
    | _ => return ⟨none, some tag⟩
  | _ => return ⟨none, none⟩

/-- A lone exclamation mark in front of a scalar is no tag. -/
def scalarTag (tag : Option String) : Option String := if tag = some "!" then none else tag

/-! ## Nodes -/

/-- Where a node stands: in a flow collection, in a block, or after the key or the colon of a block
mapping, where the items of a sequence need not be indented. -/
inductive Place where
  | flow
  | block
  | mappingBlock
deriving DecidableEq

mutual

/-- A node; a fault if there is none. -/
def node (handles : List (String × String)) : Nat → Place → Reader Node
  | 0, _ => Reader.fault
  | fuel + 1, place => do
    match ← Reader.front? with
    | some (.alias anchor) =>
      Reader.skip
      Reader.named anchor
    | _ =>
      let properties ← properties handles
      if let some anchor := properties.anchor then Reader.name anchor .loop
      let result ← contents handles fuel place properties
      if let some anchor := properties.anchor then Reader.name anchor result
      return result

/-- A node without its properties. -/
def contents (handles : List (String × String)) : Nat → Place → Properties → Reader Node
  | 0, _, _ => Reader.fault
  | fuel + 1, place, properties => do
    match place, ← Reader.front? with
    | .mappingBlock, some .entry =>
      return .sequence properties.tag (← sideItems handles fuel)
    | _, some (.scalar style text) =>
      Reader.skip
      return .scalar (scalarTag properties.tag) style text
    | _, some .flowSequence =>
      Reader.skip
      return .sequence properties.tag (← flowItems handles fuel true)
    | _, some .flowMapping =>
      Reader.skip
      return .mapping properties.tag (← flowEntries handles fuel true)
    | .block, some .blockSequence | .mappingBlock, some .blockSequence =>
      Reader.skip
      return .sequence properties.tag (← blockItems handles fuel)
    | .block, some .blockMapping | .mappingBlock, some .blockMapping =>
      Reader.skip
      return .mapping properties.tag (← blockEntries handles fuel)
    | _, _ =>
      if properties.anchor.isSome || properties.tag.isSome then
        return .scalar properties.tag .plain ""
      else Reader.fault

/-- A node, or none in front of one of the tokens. -/
def nodeUnless (handles : List (String × String)) : Nat → Place → List Token → Reader Node
  | 0, _, _ => Reader.fault
  | fuel + 1, place, ends => do
    if ← Reader.isAt ends then return .empty else node handles fuel place

/-- The items of a block sequence and its end. -/
def blockItems (handles : List (String × String)) : Nat → Reader (List Node)
  | 0 => Reader.fault
  | fuel + 1 => do
    if ← Reader.accept .blockEnd then return []
    Reader.expect .entry
    let item ← nodeUnless handles fuel .block [.entry, .blockEnd]
    return item :: (← blockItems handles fuel)

/-- The items of a sequence that is not indented; it ends in front of any other token. -/
def sideItems (handles : List (String × String)) : Nat → Reader (List Node)
  | 0 => Reader.fault
  | fuel + 1 => do
    if ← Reader.accept .entry then
      let item ← nodeUnless handles fuel .block [.entry, .key, .value, .blockEnd]
      return item :: (← sideItems handles fuel)
    else return []

/-- The entries of a block mapping and its end. -/
def blockEntries (handles : List (String × String)) : Nat → Reader (List (Node × Node))
  | 0 => Reader.fault
  | fuel + 1 => do
    if ← Reader.accept .blockEnd then return []
    Reader.expect .key
    let key ← nodeUnless handles fuel .mappingBlock [.key, .value, .blockEnd]
    let value ← if ← Reader.accept .value then
        nodeUnless handles fuel .mappingBlock [.key, .value, .blockEnd]
      else pure .empty
    return (key, value) :: (← blockEntries handles fuel)

/-- The items of a flow sequence and its end; all but the first one follow a comma.  A key makes a
mapping of one entry. -/
def flowItems (handles : List (String × String)) : Nat → Bool → Reader (List Node)
  | 0, _ => Reader.fault
  | fuel + 1, first => do
    if ← Reader.accept .flowSequenceEnd then return []
    if !first then Reader.expect .comma
    if ← Reader.accept .flowSequenceEnd then return []
    let item ← if ← Reader.accept .key then
        pairInSequence handles fuel
      else node handles fuel .flow
    return item :: (← flowItems handles fuel false)

/-- A single entry in a flow sequence.  The token in front of which a key is left out is passed
over. -/
def pairInSequence (handles : List (String × String)) : Nat → Reader Node
  | 0 => Reader.fault
  | fuel + 1 => do
    let key ← if ← Reader.isAt [.value, .comma, .flowSequenceEnd] then do
        Reader.skip
        pure .empty
      else node handles fuel .flow
    let value ← if ← Reader.accept .value then
        nodeUnless handles fuel .flow [.comma, .flowSequenceEnd]
      else pure .empty
    return .mapping none [(key, value)]

/-- The entries of a flow mapping and its end; all but the first one follow a comma.  A node without
a key mark is a key without a value. -/
def flowEntries (handles : List (String × String)) : Nat → Bool → Reader (List (Node × Node))
  | 0, _ => Reader.fault
  | fuel + 1, first => do
    if ← Reader.accept .flowMappingEnd then return []
    if !first then Reader.expect .comma
    if ← Reader.accept .flowMappingEnd then return []
    let entry ← if ← Reader.accept .key then do
        let key ← nodeUnless handles fuel .flow [.value, .comma, .flowMappingEnd]
        let value ← if ← Reader.accept .value then
            nodeUnless handles fuel .flow [.comma, .flowMappingEnd]
          else pure .empty
        pure (key, value)
      else do
        pure (← node handles fuel .flow, .empty)
    return entry :: (← flowEntries handles fuel false)

end

/-! ## Documents -/

/-- The handles that are always known. -/
def standardHandles : List (String × String) := [("!", "!"), ("!!", "tag:yaml.org,2002:")]

/-- The directives of a document: at most one version, which is 1.1 or 1.2, and different handles.
Returns whether there was any and what the handles stand for. -/
def directives : Nat → Bool → List (String × String) → Reader (Bool × List (String × String))
  | 0, _, _ => Reader.fault
  | fuel + 1, versioned, handles => do
    match ← Reader.front? with
    | some (.version major minor) =>
      Reader.skip
      if versioned || major ≠ 1 || (minor ≠ 1 && minor ≠ 2) then Reader.fault
      else
        let (_, handles) ← directives fuel true handles
        return (true, handles)
    | some (.handle name meaning) =>
      Reader.skip
      if handles.any fun h => h.1 == name then Reader.fault
      else
        let (_, handles) ← directives fuel versioned ((name, meaning) :: handles)
        return (true, handles)
    | _ => return (versioned, handles)

/-- Document ends, and then the end of the tokens. -/
def streamEnd : Nat → Reader Unit
  | 0 => Reader.fault
  | fuel + 1 => do
    match ← Reader.front? with
    | none => return ()
    | some .documentEnd =>
      Reader.skip
      streamEnd fuel
    | some _ => Reader.fault

/-- The only document of a stream; an empty stream has an empty one. -/
def document (fuel : Nat) : Reader Node := do
  let (any, handles) ← directives fuel false []
  let handles := handles ++ standardHandles
  let marked ← Reader.accept .documentStart
  if any && !marked then Reader.fault
  let root ← do
    match ← Reader.front? with
    | none => pure .empty
    | some .documentEnd | some .documentStart | some (.version ..) | some (.handle ..) =>
      if marked then pure .empty else Reader.fault
    | some _ => node handles fuel .block
  streamEnd fuel
  return root

/-- The root of the only document. -/
def Node.ofTokens? (tokens : List Token) : Option Node :=
  (document (4 * tokens.length + 8) ⟨tokens, []⟩).map Prod.fst

end Yaml
end MeshView
