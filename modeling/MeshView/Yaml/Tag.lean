/-
# Names, tags and directives of a YAML text

An anchor has a name of word characters.  A tag is a handle and a suffix, or a whole identifier
between angle brackets.  A directive stands on a line of its own at the start of a document.
-/

import MeshView.Bytes
import MeshView.Yaml.Text
import MeshView.Yaml.Token

namespace MeshView
namespace Yaml

def word (spots : List Spot) : List Char × List Spot :=
  (chars (spots.takeWhile fun s => isWord s.char), spots.dropWhile fun s => isWord s.char)

def skipBlanks (spots : List Spot) : List Spot := spots.dropWhile fun s => isBlank s.char

/-- The name of an anchor or an alias after its mark. -/
def anchorName (spots : List Spot) : Option (String × List Spot) :=
  let (name, rest) := word spots
  let ends := atGap rest || (front? rest).any fun c => ['?', ':', ',', ']', '}', '%', '@', '`'].contains c
  if name.isEmpty || !ends then none else some (String.ofList name, rest)

/-! ## Tags -/

/-- Two hexadecimal digits after a percent sign. -/
def percentOctet : List Spot → Option (Nat × List Spot)
  | p :: a :: b :: rest => do
    guard (p.char = '%')
    let high ← Bytes.hexValue? a.char
    let low ← Bytes.hexValue? b.char
    return (16 * high + low, rest)
  | _ => none

/-- Octets that continue a character. -/
def percentRest : Nat → Nat → List Spot → Option (Nat × List Spot)
  | 0, value, spots => some (value, spots)
  | count + 1, value, spots => do
    let (octet, rest) ← percentOctet spots
    guard (octet / 64 = 2)
    percentRest count (64 * value + octet % 64) rest

/-- A character as percent signs and the octets of its UTF-8 form. -/
def percentChar (spots : List Spot) : Option (Char × List Spot) := do
  let (octet, rest) ← percentOctet spots
  let (count, bits) ←
    if octet < 0x80 then some (0, octet)
    else if octet / 32 = 6 then some (1, octet % 32)
    else if octet / 16 = 14 then some (2, octet % 16)
    else if octet / 8 = 30 then some (3, octet % 8)
    else none
  let (value, rest) ← percentRest count bits rest
  return (Char.ofNat value, rest)

/-- A character that stands for itself in a tag; some only between angle brackets. -/
def isTagChar (whole : Bool) (c : Char) : Bool :=
  isWord c ||
    [';', '/', '?', ':', '@', '&', '=', '+', '$', '.', '!', '~', '*', '\'', '(', ')'].contains c ||
    whole && [',', '[', ']'].contains c

/-- The characters of a tag. -/
def tagChars (whole : Bool) : Nat → List Spot → Option (List Char × List Spot)
  | 0, _ => none
  | _ + 1, [] => some ([], [])
  | fuel + 1, s :: rest =>
    if s.char = '%' then do
      let (c, rest) ← percentChar (s :: rest)
      let (more, rest) ← tagChars whole fuel rest
      return (c :: more, rest)
    else if isTagChar whole s.char then do
      let (more, rest) ← tagChars whole fuel rest
      return (s.char :: more, rest)
    else some ([], s :: rest)

/-- An exclamation mark, word characters, and another exclamation mark if there is one. -/
def tagHandle (spots : List Spot) : Option (List Char × List Spot) := do
  guard (front? spots = some '!')
  let (name, rest) := word (spots.drop 1)
  if front? rest = some '!' then return ('!' :: name ++ ['!'], rest.drop 1)
  else return ('!' :: name, rest)

/-- A tag, of which the exclamation mark stands at the front. -/
def tag (inFlow : Bool) (spots : List Spot) : Option (Token × List Spot) := do
  let fuel := spots.length + 1
  let (token, rest) ←
    if front? (spots.drop 1) = some '<' then do
      let (name, rest) ← tagChars true fuel (spots.drop 2)
      guard (!name.isEmpty && front? rest = some '>')
      some (Token.tag "" (String.ofList name), rest.drop 1)
    else do
      let (handle, rest) ← tagHandle spots
      let (more, rest) ← tagChars false fuel rest
      if 1 < handle.length && handle.getLast? = some '!' then
        guard (!more.isEmpty)
        some (Token.tag (String.ofList handle) (String.ofList more), rest)
      else
        let suffix := handle.drop 1 ++ more
        if suffix.isEmpty then some (Token.tag "" "!", rest)
        else some (Token.tag "!" (String.ofList suffix), rest)
  guard (atGap rest || inFlow && front? rest = some ',')
  return (token, rest)

/-! ## Directives -/

/-- At most nine digits. -/
def versionNumber (spots : List Spot) : Option (Nat × List Spot) :=
  let digits := chars (spots.takeWhile fun s => s.char.isDigit)
  if digits.isEmpty || 9 < digits.length then none
  else some (digits.foldl (fun n c => 10 * n + (c.toNat - 48)) 0,
    spots.dropWhile fun s => s.char.isDigit)

/-- A directive after its percent sign, up to the end of its line. -/
def directive (spots : List Spot) : Option (Token × List Spot) := do
  let (name, rest) := word spots
  guard (atGap rest)
  let rest := skipBlanks rest
  let (token, rest) ← match String.ofList name with
    | "YAML" => do
      let (major, rest) ← versionNumber rest
      guard (front? rest = some '.')
      let (minor, rest) ← versionNumber (rest.drop 1)
      some (Token.version major minor, rest)
    | "TAG" => do
      let (handle, rest) ← tagHandle rest
      guard (handle = ['!'] || 1 < handle.length && handle.getLast? = some '!')
      guard ((front? rest).any isBlank)
      let (meaning, rest) ← tagChars true (rest.length + 1) (skipBlanks rest)
      guard (!meaning.isEmpty && atGap rest)
      some (Token.handle (String.ofList handle) (String.ofList meaning), rest)
    | _ => none
  let rest := skipBlanks rest
  let rest := if front? rest = some '#' then rest.dropWhile fun s => !isBreak s.char else rest
  guard (atBreak rest)
  return (token, rest.drop 1)

end Yaml
end MeshView
