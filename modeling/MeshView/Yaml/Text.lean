/-
# The characters of a YAML text

A text may begin with a byte order mark, which does not count; other than that it consists of
printable characters, tabs and line breaks.  Every character is kept with its line and its column.
The four usual line breaks become one; the two separators of Unicode are breaks of their own.
-/

namespace MeshView
namespace Yaml

/-- A character and its place. -/
structure Spot where
  char : Char
  line : Nat
  column : Nat

/-- The characters that a text may have. -/
def isAllowed (c : Char) : Bool :=
  c = '\t' ∨ c = '\n' ∨ c = '\r' ∨ (0x20 ≤ c.toNat ∧ c.toNat ≤ 0x7e) ∨ c.toNat = 0x85 ∨
    (0xa0 ≤ c.toNat ∧ c.toNat ≤ 0xd7ff) ∨
    (0xe000 ≤ c.toNat ∧ c.toNat ≤ 0xfffd ∧ c.toNat ≠ 0xfeff) ∨ 0x10000 ≤ c.toNat

/-- One of the breaks that are left after `joinBreaks`. -/
def isBreak (c : Char) : Bool := c = '\n' ∨ c.toNat = 0x2028 ∨ c.toNat = 0x2029

def isBlank (c : Char) : Bool := c = ' ' ∨ c = '\t'

/-- A blank or a break. -/
def isGap (c : Char) : Bool := isBlank c || isBreak c

/-- A letter, a digit, a low line or a hyphen. -/
def isWord (c : Char) : Bool := c.isAlphanum || c = '_' || c = '-'

/-- Makes one break of a carriage return with or without a line feed and of a next-line control. -/
def joinBreaks : List Char → List Char
  | '\r' :: '\n' :: cs => '\n' :: joinBreaks cs
  | c :: cs => (if c = '\r' ∨ c.toNat = 0x85 then '\n' else c) :: joinBreaks cs
  | [] => []

/-- Notes the places of characters from a line and a column on. -/
def place (line column : Nat) : List Char → List Spot
  | [] => []
  | c :: cs =>
    ⟨c, line, column⟩ :: if isBreak c then place (line + 1) 0 cs else place line (column + 1) cs

/-- The characters of a text without its byte order mark. -/
def unmarked : List Char → List Char
  | c :: cs => if c.toNat = 0xfeff then cs else c :: cs
  | [] => []

/-- The placed characters of a text, if all of them are allowed. -/
def spots? (text : String) : Option (List Spot) :=
  let cs := unmarked text.toList
  if cs.all isAllowed then some (place 0 0 (joinBreaks cs)) else none

def chars (spots : List Spot) : List Char := spots.map Spot.char

/-- The character at the front. -/
def front? (spots : List Spot) : Option Char := spots.head?.map Spot.char

/-- The text ends here, or a blank or a break stands at the front. -/
def atGap : List Spot → Bool
  | [] => true
  | s :: _ => isGap s.char

/-- The text ends here, or a break stands at the front. -/
def atBreak : List Spot → Bool
  | [] => true
  | s :: _ => isBreak s.char

/-- Three hyphens or three points at the start of a line, and then a gap. -/
def atDocumentMark : List Spot → Bool
  | a :: b :: c :: rest =>
    a.column = 0 && (a.char = '-' || a.char = '.') && b.char = a.char && c.char = a.char &&
      atGap rest
  | _ => false

end Yaml
end MeshView
