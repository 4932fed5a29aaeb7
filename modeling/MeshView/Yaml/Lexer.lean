/-
# From characters to tokens

Indentation is made explicit: the first item of a block collection is preceded by a token that
opens it, and a line that begins further left closes it.  Where a key can stand without a mark of
its own, only the colon after it shows that it is one; then the key token, and the token that opens
the mapping if it is new, are put in front of what was read since.

The tokens are kept in slots, one for each step, so that a token can be put in front of a slot
later.
-/

import MeshView.Yaml.Scalar
import MeshView.Yaml.Tag

namespace MeshView
namespace Yaml

/-- A place where a key may have begun. -/
structure KeyStart where
  slot : Nat
  line : Nat
  column : Nat
  /-- Nothing else than a key can stand there. -/
  needed : Bool

/-- The state of reading tokens. -/
structure Lexer where
  rest : List Spot
  slots : Array (List Token)
  /-- The columns of the open block collections, the innermost one first. -/
  columns : List Nat
  /-- Where a key may have begun in each of the open flow collections, the innermost one first. -/
  flowKeys : List (Option KeyStart)
  /-- Where a key may have begun outside of flow collections. -/
  blockKey : Option KeyStart
  /-- A key without a mark may begin here. -/
  keyAllowed : Bool

namespace Lexer

def start (spots : List Spot) : Lexer := ⟨spots, #[], [], [], none, true⟩

def inFlow (x : Lexer) : Bool := !x.flowKeys.isEmpty

/-- The least column that belongs to the innermost block collection's contents. -/
def margin (x : Lexer) : Nat :=
  match x.columns with
  | [] => 0
  | column :: _ => column + 1

def push (x : Lexer) (token : Token) : Lexer := { x with slots := x.slots.push [token] }

/-- Puts a token in front of a slot. -/
def insert (x : Lexer) (slot : Nat) (token : Token) : Lexer :=
  { x with slots := x.slots.modify slot (token :: ·) }

def skip (x : Lexer) (count : Nat) : Lexer := { x with rest := x.rest.drop count }

/-! ## Keys -/

def key? (x : Lexer) : Option KeyStart :=
  match x.flowKeys with
  | [] => x.blockKey
  | key :: _ => key

def setKey (x : Lexer) (key : Option KeyStart) : Lexer :=
  match x.flowKeys with
  | [] => { x with blockKey := key }
  | _ :: outer => { x with flowKeys := key :: outer }

/-- Gives up the key that may have begun; a fault if nothing else can stand there. -/
def dropKey (x : Lexer) : Option Lexer :=
  if x.key?.any KeyStart.needed then none else some (x.setKey none)

/-- Notes that a key may begin here. -/
def noteKey (x : Lexer) : Option Lexer :=
  match x.rest with
  | s :: _ =>
    if x.keyAllowed then do
      let needed := !x.inFlow && x.margin = s.column + 1
      let x ← x.dropKey
      some (x.setKey (some ⟨x.slots.size, s.line, s.column, needed⟩))
    else some x
  | [] => some x

/-- A key is not longer than 1024 characters and lies on one line. -/
def KeyStart.isStale (key : KeyStart) (line column : Nat) : Bool :=
  key.line < line || key.column + 1024 < column

/-- Gives up all keys that are too long by now. -/
def dropStale (x : Lexer) : Option Lexer :=
  match x.rest with
  | [] => some x
  | s :: _ =>
    let stale (key : Option KeyStart) : Bool := key.any fun k => KeyStart.isStale k s.line s.column
    let fresh (key : Option KeyStart) : Option KeyStart := if stale key then none else key
    if (x.blockKey :: x.flowKeys).any fun key => stale key && key.any KeyStart.needed then none
    else some { x with blockKey := fresh x.blockKey, flowKeys := x.flowKeys.map fresh }

/-! ## Indentation -/

/-- Opens a block collection at a column, unless one is open there or further right. -/
def openBlock (x : Lexer) (column : Nat) (slot : Option Nat) (token : Token) : Lexer :=
  if x.inFlow || column < x.margin then x
  else
    let x := { x with columns := column :: x.columns }
    match slot with
    | some slot => x.insert slot token
    | none => x.push token

/-- Closes the block collections whose column is at least the margin. -/
def closeBlocks (x : Lexer) (margin : Nat) : Lexer :=
  if x.inFlow then x
  else
    let (inner, outer) := x.columns.span fun column => margin ≤ column
    { x with columns := outer, slots := x.slots.push (inner.map fun _ => .blockEnd) }

/-! ## What stands between tokens -/

/-- Skips blanks, comments and breaks.  Where a key may begin in a block, a tab is no blank. -/
def skipGap : Nat → Lexer → Lexer
  | 0, x => x
  | fuel + 1, x =>
    let blank (s : Spot) : Bool := s.char = ' ' || s.char = '\t' && (x.inFlow || !x.keyAllowed)
    let rest := x.rest.dropWhile blank
    let rest := if front? rest = some '#' then rest.dropWhile fun s => !isBreak s.char else rest
    match rest with
    | s :: rest' =>
      if isBreak s.char then
        skipGap fuel { x with rest := rest', keyAllowed := x.keyAllowed || !x.inFlow }
      else { x with rest }
    | [] => { x with rest }

/-! ## Tokens -/

/-- Closes all block collections and gives up the key; then comes a token of the document. -/
def documentLevel (x : Lexer) : Option Lexer := do
  let x ← (x.closeBlocks 0).dropKey
  return { x with keyAllowed := false }

def openFlow (x : Lexer) (token : Token) : Option Lexer := do
  let x ← x.noteKey
  return ({ x with flowKeys := none :: x.flowKeys, keyAllowed := true }.push token).skip 1

def closeFlow (x : Lexer) (token : Token) : Option Lexer := do
  let x ← x.dropKey
  return ({ x with flowKeys := x.flowKeys.drop 1, keyAllowed := false }.push token).skip 1

def comma (x : Lexer) : Option Lexer := do
  let x ← x.dropKey
  return ({ x with keyAllowed := true }.push .comma).skip 1

/-- A hyphen in front of an item. -/
def entry (x : Lexer) (column : Nat) : Option Lexer := do
  guard (x.inFlow || x.keyAllowed)
  let x ← (x.openBlock column none .blockSequence).dropKey
  return ({ x with keyAllowed := true }.push .entry).skip 1

/-- A question mark in front of a key. -/
def markedKey (x : Lexer) (column : Nat) : Option Lexer := do
  guard (x.inFlow || x.keyAllowed)
  let x ← (x.openBlock column none .blockMapping).dropKey
  return ({ x with keyAllowed := !x.inFlow }.push .key).skip 1

/-- A colon in front of a value; it shows that what may have been a key is one. -/
def value (x : Lexer) (column : Nat) : Option Lexer :=
  match x.key? with
  | some key =>
    let x := (x.insert key.slot .key).openBlock key.column (some key.slot) .blockMapping
    some (({ x.setKey none with keyAllowed := false }.push .value).skip 1)
  | none => do
    guard (x.inFlow || x.keyAllowed)
    let x := x.openBlock column none .blockMapping
    return ({ x with keyAllowed := !x.inFlow }.push .value).skip 1

/-- A token that can be a key or the beginning of one. -/
def keyed (x : Lexer) (read : List Spot → Option (Token × List Spot)) : Option Lexer := do
  let x ← x.noteKey
  let (token, rest) ← read x.rest
  return { x with rest, keyAllowed := false }.push token

def blockScalar (x : Lexer) (style : Style) : Option Lexer := do
  let x ← x.dropKey
  let (text, rest) ← block (style = .folded) x.margin (x.rest.drop 1)
  return { x with rest, keyAllowed := true }.push (.scalar style (String.ofList text))

def plainScalar (x : Lexer) : Option Lexer := do
  let x ← x.noteKey
  let (text, broken, rest) ← plain x.inFlow x.margin (x.rest.length + 1) x.rest
  return { x with rest, keyAllowed := broken }.push (.scalar .plain (String.ofList text))

def quotedScalar (x : Lexer) (read : List Spot → Option (List Char × List Spot)) : Option Lexer :=
  x.keyed fun spots => do
    let (text, rest) ← read (spots.drop 1)
    return (.scalar .quoted (String.ofList text), rest)

/-- Characters that a plain scalar cannot begin with, or only under conditions. -/
def isMark (c : Char) : Bool :=
  isGap c || ['-', '?', ':', ',', '[', ']', '{', '}', '#', '&', '*', '!', '|', '>', '\'', '"', '%',
    '@', '`'].contains c

/-- Reads the token at the front, which is the given spot. -/
def token (x : Lexer) (s : Spot) (after : List Spot) : Option Lexer :=
  let c := s.char
  let spaced := x.inFlow || atGap after
  if s.column = 0 && c = '%' then do
    let x ← x.documentLevel
    let (token, rest) ← directive after
    return { x with rest }.push token
  else if atDocumentMark x.rest then do
    let x ← x.documentLevel
    return (x.push (if c = '-' then .documentStart else .documentEnd)).skip 3
  else if c = '[' then x.openFlow .flowSequence
  else if c = '{' then x.openFlow .flowMapping
  else if c = ']' then x.closeFlow .flowSequenceEnd
  else if c = '}' then x.closeFlow .flowMappingEnd
  else if c = ',' then x.comma
  else if c = '-' && atGap after then x.entry s.column
  else if c = '?' && spaced then x.markedKey s.column
  else if c = ':' && spaced then x.value s.column
  else if c = '*' then
    x.keyed fun spots => (anchorName (spots.drop 1)).map fun (name, rest) => (.alias name, rest)
  else if c = '&' then
    x.keyed fun spots => (anchorName (spots.drop 1)).map fun (name, rest) => (.anchor name, rest)
  else if c = '!' then x.keyed (tag x.inFlow)
  else if c = '|' && !x.inFlow then x.blockScalar .literal
  else if c = '>' && !x.inFlow then x.blockScalar .folded
  else if c = '\'' then x.quotedScalar singleQuoted
  else if c = '"' then x.quotedScalar doubleQuoted
  else if !isMark c || c = '-' || !x.inFlow && (c = '?' || c = ':') then x.plainScalar
  else none

/-- The tokens to the end of the text. -/
def run : Nat → Lexer → Option (List Token)
  | 0, _ => none
  | fuel + 1, x => do
    let x ← (x.skipGap (x.rest.length + 1)).dropStale
    match x.rest with
    | [] =>
      let x ← x.documentLevel
      return x.slots.toList.flatten
    | s :: after =>
      let x ← (x.closeBlocks (s.column + 1)).token s after
      run fuel x

end Lexer

/-- The tokens of a text. -/
def tokens? (text : String) : Option (List Token) := do
  let spots ← spots? text
  Lexer.run (spots.length + 1) (.start spots)

end Yaml
end MeshView
