/-
# The tokens of a YAML text
-/

namespace MeshView
namespace Yaml

/-- How a scalar is written. -/
inductive Style where
  | plain
  | quoted
  /-- A block whose line breaks are kept. -/
  | literal
  /-- A block whose lines are joined. -/
  | folded
deriving DecidableEq

inductive Token where
  | version (major minor : Nat)
  /-- What a handle stands for. -/
  | handle (name meaning : String)
  | documentStart
  | documentEnd
  | blockSequence
  | blockMapping
  | blockEnd
  | flowSequence
  | flowSequenceEnd
  | flowMapping
  | flowMappingEnd
  /-- A hyphen in front of an item. -/
  | entry
  /-- A comma. -/
  | comma
  | key
  | value
  | alias (name : String)
  | anchor (name : String)
  | tag (handle suffix : String)
  | scalar (style : Style) (text : String)
deriving DecidableEq

end Yaml
end MeshView
