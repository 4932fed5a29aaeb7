/-
# Scalars of a YAML text

A scalar is plain, in single or double quotes, or a block.  A gap inside a plain or quoted scalar is
folded: blanks within a line are kept, one line break becomes a space, and of several breaks all but
the first are kept.  The readers take the text up to the end of the scalar and return what follows.
`margin` is the least column that belongs to the innermost open block collection's contents.
-/

import MeshView.Bytes
import MeshView.Yaml.Text

namespace MeshView
namespace Yaml

/-! ## Gaps -/

/-- The breaks of a gap. -/
def breaks (gap : List Spot) : List Char := (chars gap).filter isBreak

/-- What the breaks of a gap are folded to. -/
def foldBreaks : List Char → List Char
  | ['\n'] => [' ']
  | '\n' :: more => more
  | other => other

/-- What a gap stands for. -/
def foldGap (gap : List Spot) : List Char :=
  if (breaks gap).isEmpty then chars gap else foldBreaks (breaks gap)

/-! ## Plain scalars -/

/-- A character that ends a plain scalar in a flow collection. -/
def isFlowMark (c : Char) : Bool :=
  c = ',' ∨ c = '[' ∨ c = ']' ∨ c = '{' ∨ c = '}'

/-- The characters up to a gap or a mark that ends a plain scalar.  A colon ends it in front of a
gap; in a flow collection one in front of a mark is a fault. -/
def plainRun (inFlow : Bool) : List Spot → Option (List Char × List Spot)
  | [] => some ([], [])
  | s :: rest =>
    if isGap s.char then some ([], s :: rest)
    else if inFlow && isFlowMark s.char then some ([], s :: rest)
    else if s.char = ':' && atGap rest then some ([], s :: rest)
    else if s.char = ':' && inFlow && (front? rest).any (fun c => isFlowMark c || c = '?') then none
    else do
      let (run, rest) ← plainRun inFlow rest
      return (s.char :: run, rest)

/-- A tab that stands where an indentation is expected. -/
def hasTabInMargin (margin : Nat) (gap : List Spot) : Bool :=
  (gap.dropWhile fun s => isBlank s.char).any fun s => s.char = '\t' && s.column < margin

/-- A plain scalar; whether a break was passed after its last character, and what follows. -/
def plain (inFlow : Bool) (margin : Nat) :
    Nat → List Spot → Option (List Char × Bool × List Spot)
  | 0, _ => none
  | fuel + 1, spots => do
    let (run, rest) ← plainRun inFlow spots
    let gap := rest.takeWhile fun s => isGap s.char
    let after := rest.dropWhile fun s => isGap s.char
    let broken := !(breaks gap).isEmpty
    if hasTabInMargin margin gap then none
    else if gap.isEmpty then return (run, false, after)
    else
      match after with
      | [] => return (run, broken, after)
      | s :: _ =>
        if !inFlow && s.column < margin then return (run, broken, after)
        else if atDocumentMark after || s.char = '#' then return (run, broken, after)
        else
          let (more, brokenLater, rest) ← plain inFlow margin fuel after
          if more.isEmpty then return (run, broken, rest)
          else return (run ++ foldGap gap ++ more, brokenLater, rest)

/-! ## Quoted scalars -/

/-- The number that hexadecimal digits at the front spell. -/
def hexNumber : Nat → Nat → List Spot → Option (Nat × List Spot)
  | 0, value, spots => some (value, spots)
  | _ + 1, _, [] => none
  | count + 1, value, s :: rest => do
    let digit ← Bytes.hexValue? s.char
    hexNumber count (16 * value + digit) rest

/-- The character that a number of digits at the front spell. -/
def hexChar (count : Nat) (spots : List Spot) : Option (Char × List Spot) := do
  let (value, rest) ← hexNumber count 0 spots
  if h : value.isValidChar then return (Char.ofNatAux value h, rest) else none

/-- What a backslash and the given character stand for, and what follows. -/
def escaped (c : Char) (rest : List Spot) : Option (Char × List Spot) :=
  match c with
  | '0' => some ('\x00', rest)
  | 'a' => some ('\x07', rest)
  | 'b' => some ('\x08', rest)
  | 't' | '\t' => some ('\t', rest)
  | 'n' => some ('\n', rest)
  | 'v' => some ('\x0b', rest)
  | 'f' => some ('\x0c', rest)
  | 'r' => some ('\r', rest)
  | 'e' => some ('\x1b', rest)
  | ' ' => some (' ', rest)
  | '"' => some ('"', rest)
  | '/' => some ('/', rest)
  | '\\' => some ('\\', rest)
  | 'N' => some (Char.ofNat 0x85, rest)
  | '_' => some (Char.ofNat 0xa0, rest)
  | 'L' => some (Char.ofNat 0x2028, rest)
  | 'P' => some (Char.ofNat 0x2029, rest)
  | 'x' => hexChar 2 rest
  | 'u' => hexChar 4 rest
  | 'U' => hexChar 8 rest
  | _ => none

/-- Why a run of characters in quotes ends. -/
inductive RunEnd where
  /-- A gap, or the end of the text. -/
  | gap
  | quote
  /-- A backslash in front of a break. -/
  | escapedBreak
deriving DecidableEq

/-- The characters in single quotes up to a gap or the closing quote. -/
def singleRun : Nat → List Spot → Option (List Char × RunEnd × List Spot)
  | 0, _ => none
  | _ + 1, [] => some ([], .gap, [])
  | fuel + 1, s :: rest =>
    if isGap s.char then some ([], .gap, s :: rest)
    else if s.char = '\'' then
      if front? rest = some '\'' then do
        let (run, reason, rest) ← singleRun fuel (rest.drop 1)
        return ('\'' :: run, reason, rest)
      else some ([], .quote, rest)
    else do
      let (run, reason, rest) ← singleRun fuel rest
      return (s.char :: run, reason, rest)

/-- The characters in double quotes up to a gap, an escaped break or the closing quote. -/
def doubleRun : Nat → List Spot → Option (List Char × RunEnd × List Spot)
  | 0, _ => none
  | _ + 1, [] => some ([], .gap, [])
  | fuel + 1, s :: rest =>
    if isGap s.char then some ([], .gap, s :: rest)
    else if s.char = '"' then some ([], .quote, rest)
    else if s.char = '\\' then
      match rest with
      | [] => none
      | t :: rest =>
        if isBreak t.char then
          if front? rest = some '"' then some ([], .quote, rest.drop 1)
          else some ([], .escapedBreak, rest)
        else do
          let (c, rest) ← escaped t.char rest
          let (run, reason, rest) ← doubleRun fuel rest
          return (c :: run, reason, rest)
    else do
      let (run, reason, rest) ← doubleRun fuel rest
      return (s.char :: run, reason, rest)

/-- A quoted scalar after its opening quote.  No line of it may look like a document mark. -/
def quoted (run : Nat → List Spot → Option (List Char × RunEnd × List Spot)) :
    Nat → List Spot → Option (List Char × List Spot)
  | 0, _ => none
  | fuel + 1, spots =>
    if atDocumentMark spots || spots.isEmpty then none
    else do
      let (text, reason, rest) ← run (spots.length + 1) spots
      let gap := rest.takeWhile fun s => isGap s.char
      let after := rest.dropWhile fun s => isGap s.char
      match reason with
      | .quote => return (text, rest)
      | .gap =>
        let (more, rest) ← quoted run fuel after
        return (text ++ foldGap gap ++ more, rest)
      | .escapedBreak =>
        let (more, rest) ← quoted run fuel after
        return (text ++ breaks gap ++ more, rest)

def singleQuoted (spots : List Spot) : Option (List Char × List Spot) :=
  quoted singleRun (spots.length + 1) spots

def doubleQuoted (spots : List Spot) : Option (List Char × List Spot) :=
  quoted doubleRun (spots.length + 1) spots

/-! ## Blocks -/

/-- What becomes of the line breaks at the end of a block. -/
inductive Chomping where
  | strip
  /-- One of them is kept. -/
  | clip
  | keep
deriving DecidableEq

/-- The header of a block after its mark: chomping and, if it is given, how far the block is
indented beyond the collection around it. -/
def blockHeader (spots : List Spot) : Option (Chomping × Option Nat × List Spot) := do
  let chomping? (spots : List Spot) : Option Chomping × List Spot :=
    match spots with
    | s :: rest =>
      if s.char = '+' then (some .keep, rest)
      else if s.char = '-' then (some .strip, rest)
      else (none, spots)
    | [] => (none, [])
  let increment? (spots : List Spot) : Option (Option Nat × List Spot) :=
    match spots with
    | s :: rest =>
      if s.char = '0' then none
      else if s.char.isDigit then some (some (s.char.toNat - 48), rest)
      else some (none, spots)
    | [] => some (none, [])
  let (before, spots) := chomping? spots
  let (increment, spots) ← increment? spots
  let (after, spots) := if before.isNone && increment.isSome then chomping? spots else (none, spots)
  let rest := spots.dropWhile fun s => isBlank s.char
  let rest := if front? rest = some '#' then rest.dropWhile fun s => !isBreak s.char else rest
  if atBreak rest then return ((before <|> after).getD .clip, increment, rest.drop 1) else none

/-- The breaks of empty lines, the deepest column that was reached, and what follows the
indentation.  Without an indentation all spaces count as such. -/
def blockBreaks (indentation : Option Nat) :
    Nat → List Spot → Option (List Char × Nat × List Spot)
  | 0, _ => none
  | fuel + 1, spots =>
    let inside (s : Spot) : Bool := match indentation with
      | some n => s.column < n
      | none => true
    match spots.dropWhile fun s => s.char = ' ' && inside s with
    | [] => some ([], 0, [])
    | s :: rest =>
      if s.char = '\t' && inside s then none
      else if isBreak s.char then do
        let (more, deepest, rest) ← blockBreaks indentation fuel rest
        return (s.char :: more, max s.column deepest, rest)
      else some ([], s.column, s :: rest)

/-- What a block has so far: its text, the break after the last line, and the breaks of the empty
lines after that. -/
structure BlockText where
  text : List Char
  lastBreak : List Char
  emptyLines : List Char
  /-- The last line began with a blank. -/
  blankLine : Bool

/-- What stands between the last line and the next one.  In a folded block one break between two
lines that do not begin with a blank is a space, or nothing in front of empty lines. -/
def BlockText.joint (b : BlockText) (folded blankLine : Bool) : List Char :=
  let fold := folded && b.lastBreak = ['\n'] && !b.blankLine && !blankLine
  (if !fold then b.lastBreak else if b.emptyLines.isEmpty then [' '] else []) ++ b.emptyLines

/-- The lines of a block. -/
def blockLines (folded : Bool) (indentation : Nat) :
    Nat → BlockText → List Spot → Option (BlockText × List Spot)
  | 0, _, _ => none
  | _ + 1, b, [] => some (b, [])
  | fuel + 1, b, s :: rest =>
    if s.column ≠ indentation then some (b, s :: rest)
    else do
      let blankLine := isBlank s.char
      let line := (s :: rest).takeWhile fun s => !isBreak s.char
      let after := (s :: rest).dropWhile fun s => !isBreak s.char
      let (emptyLines, _, rest) ← blockBreaks (some indentation) fuel (after.drop 1)
      blockLines folded indentation fuel
        ⟨b.text ++ b.joint folded blankLine ++ chars line, chars (after.take 1), emptyLines,
          blankLine⟩ rest

/-- A block after its mark. -/
def block (folded : Bool) (margin : Nat) (spots : List Spot) : Option (List Char × List Spot) := do
  let fuel := spots.length + 1
  let (chomping, increment, spots) ← blockHeader spots
  let given := increment.map (margin - 1 + ·)
  let (emptyLines, deepest, rest) ← blockBreaks given fuel spots
  let indentation := given.getD (max deepest (max margin 1))
  let (b, rest) ← blockLines folded indentation fuel ⟨[], [], emptyLines, false⟩ rest
  return (b.text ++ (if chomping = .strip then [] else b.lastBreak) ++
    (if chomping = .keep then b.emptyLines else []), rest)

end Yaml
end MeshView
