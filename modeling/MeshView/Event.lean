/-
# Events of a mesh

An event changes a mesh, or lets time pass.  The type of the names is a parameter: a script names
nodes by address, and the same event is played with identities.
-/

import MeshView.Identity

namespace MeshView

/-- A change of a mesh whose nodes are named by `ν`, or a pause. -/
inductive Event (ν : Type) where
  /-- A node announces its cost, or only that it is there. -/
  | node (name : ν) (cost : Option Cost)
  | nodeGone (name : ν)
  | link (a b : ν) (cost : Cost)
  | linkGone (a b : ν)
  | wait (millis : UInt64)
deriving DecidableEq

namespace Event
variable {ν μ : Type}

/-- The same event with other names. -/
def map (rename : ν → μ) : Event ν → Event μ
  | .node n cost => .node (rename n) cost
  | .nodeGone n => .nodeGone (rename n)
  | .link a b cost => .link (rename a) (rename b) cost
  | .linkGone a b => .linkGone (rename a) (rename b)
  | .wait millis => .wait millis

/-- The names that the event takes away or takes apart. -/
def removes : Event ν → List ν
  | .nodeGone n => [n]
  | .linkGone a b => [a, b]
  | _ => []

/-- The name of the kind of event. -/
def kind : Event ν → String
  | .node _ _ => "node_updated"
  | .nodeGone _ => "node_removed"
  | .link _ _ _ => "link_updated"
  | .linkGone _ _ => "link_removed"
  | .wait _ => "wait"

end Event
end MeshView
