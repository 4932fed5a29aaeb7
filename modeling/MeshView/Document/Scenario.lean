/-
# Scenarios in documents

A scenario needs the address of its local node; its lists may be left out.  The kind of an event
decides which fields it has, so events are read from contents of unknown shape.  Writing gives every
field, and no cost as null.
-/

import MeshView.Document.Content
import MeshView.Document.Identity
import MeshView.Scenario

namespace MeshView

namespace Event

def kinds : List String := ["node_updated", "node_removed", "link_updated", "link_removed", "wait"]

/-- Reads the fields of an event of a given kind. -/
def readFields? {α : Type} (source : Source α) (kind : String) (v : α) :
    Option (Event String) := do
  match kind with
  | "node_updated" =>
    match ← source.fields? ["address", "cost"] v with
    | [address, cost] =>
      return .node (← required source.text? address)
        (← orElse none (source.optional? (Cost.read? source)) cost)
    | _ => none
  | "node_removed" =>
    match ← source.fields? ["address"] v with
    | [address] => return .nodeGone (← required source.text? address)
    | _ => none
  | "link_updated" =>
    match ← source.fields? ["a", "b", "cost"] v with
    | [a, b, cost] =>
      return .link (← required source.text? a) (← required source.text? b)
        (← required (Cost.read? source) cost)
    | _ => none
  | "link_removed" =>
    match ← source.fields? ["a", "b"] v with
    | [a, b] => return .linkGone (← required source.text? a) (← required source.text? b)
    | _ => none
  | "wait" =>
    match ← source.fields? ["millis"] v with
    | [millis] => return .wait (UInt64.ofNat (← required (source.below? UInt64.size) millis))
    | _ => none
  | _ => none

/-- Reads an event, whose kind is a field of its own. -/
def read? (v : Content) : Option (Event String) := do
  let (kind, rest) ← v.tagged? "kind"
  readFields? Content.source (← Content.source.text? kind) rest

/-- The event as an object whose first member is its kind. -/
def toJson (e : Event String) : Json :=
  let cost? (c : Option Cost) : Json := .optional (c.map Cost.toJson)
  .record (("kind", .text e.kind) :: match e with
    | .node address cost => [("address", .text address), ("cost", cost? cost)]
    | .nodeGone address => [("address", .text address)]
    | .link a b cost => [("a", .text a), ("b", .text b), ("cost", cost.toJson)]
    | .linkGone a b => [("a", .text a), ("b", .text b)]
    | .wait millis => [("millis", .natural millis.toNat)])

end Event

namespace Scenario

namespace Node

def read? {α : Type} (source : Source α) (v : α) : Option Node := do
  match ← source.fields? ["address", "cost"] v with
  | [address, cost] =>
    return ⟨← required source.text? address,
      ← orElse none (source.optional? (Cost.read? source)) cost⟩
  | _ => none

def toJson (n : Node) : Json :=
  .record [("address", .text n.address), ("cost", .optional (n.cost.map Cost.toJson))]

end Node

namespace Link

def read? {α : Type} (source : Source α) (v : α) : Option Link := do
  match ← source.fields? ["a", "b", "cost"] v with
  | [a, b, cost] =>
    return ⟨← required source.text? a, ← required source.text? b,
      ← required (Cost.read? source) cost⟩
  | _ => none

def toJson (l : Link) : Json :=
  .record [("a", .text l.a), ("b", .text l.b), ("cost", l.cost.toJson)]

end Link

/-- Reads a scenario; `content?` takes in the contents of an event. -/
def read? {α : Type} (source : Source α) (content? : α → Option Content) (v : α) :
    Option Scenario := do
  match ← source.fields? ["local", "nodes", "links", "events"] v with
  | [address, nodes, links, events] =>
    return {
      localAddress := ← required source.text? address
      nodes := ← orElse [] (source.list? (Node.read? source)) nodes
      links := ← orElse [] (source.list? (Link.read? source)) links
      events := ← orElse [] (source.list? fun v => content? v >>= Event.read?) events }
  | _ => none

def toJson (s : Scenario) : Json := .record [
  ("local", .text s.localAddress),
  ("nodes", .array (s.nodes.map Node.toJson)),
  ("links", .array (s.links.map Link.toJson)),
  ("events", .array (s.events.map Event.toJson))]

end Scenario
end MeshView
