/-
# Reading records from documents

A document format offers its values through a `Source`: what a value is when it is taken for a
text, a number, a list or a mapping.  Whoever reads a record from it names the fields, and gets for
each of them its value or nothing.  A mapping gives the fields in any order; fields that are not
named are ignored, and a named field that is given twice is a fault.  Where the format allows it, a
list gives the fields in their order and may end early.
-/

namespace MeshView

/-- How a mapping names one of its values. -/
inductive Key where
  | name (s : String)
  /-- The place of the field among all fields of the record. -/
  | place (n : Nat)
deriving DecidableEq

/-- What a value of a document is when it is taken for a value of each kind. -/
structure Source (α : Type) where
  text? : α → Option String
  natural? : α → Option Nat
  truth? : α → Option Bool
  /-- The value stands for no value where one may be absent. -/
  isAbsent : α → Bool
  items? : α → Option (List α)
  /-- Nothing for a value that is no mapping, and for a mapping with a key that names nothing. -/
  entries? : α → Option (List (Key × α))
  /-- A list can stand for a record. -/
  positional : Bool

namespace Source
variable {α β : Type}

/-- The index of the field that a key names. -/
def place? (names : List String) : Key → Option Nat
  | .name s => names.findIdx? (· == s)
  | .place n => if n < names.length then some n else none

/-- The value of one field among the entries of a mapping; a fault if it is there twice. -/
def field? (names : List String) (entries : List (Key × α)) (index : Nat) : Option (Option α) :=
  match entries.filter fun e => place? names e.1 == some index with
  | [] => some none
  | [e] => some (some e.2)
  | _ => none

/-- The values of the named fields, in the order of the names. -/
def fields? (source : Source α) (names : List String) (v : α) : Option (List (Option α)) :=
  match source.entries? v with
  | some entries => (List.range names.length).mapM (field? names entries)
  | none =>
    match source.items? v with
    | some items =>
      if source.positional && items.length ≤ names.length then
        some (items.map some ++ List.replicate (names.length - items.length) none)
      else none
    | none => none

/-- A natural number below a limit. -/
def below? (source : Source α) (limit : Nat) (v : α) : Option Nat :=
  (source.natural? v).filter (· < limit)

/-- A list of values of one kind. -/
def list? (source : Source α) (read : α → Option β) (v : α) : Option (List β) := do
  (← source.items? v).mapM read

/-- A value that may be absent. -/
def optional? (source : Source α) (read : α → Option β) (v : α) : Option (Option β) :=
  if source.isAbsent v then some none else (read v).map some

end Source

/-- A field that has to be there. -/
def required {α β : Type} (read : α → Option β) (field : Option α) : Option β := field >>= read

/-- A field that takes a standard value if it is not there. -/
def orElse {α β : Type} (standard : β) (read : α → Option β) : Option α → Option β
  | none => some standard
  | some v => read v

end MeshView
