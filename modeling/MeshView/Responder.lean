/-
# Who answers requests for neighbours

A responder has a state of its own.  It is told when a request is issued; later it is asked for the
answer, and it may not have one yet.  A scripted responder works from a list of answers for each
identity: the answer to the k-th request for an identity is the k-th of its list, and the last one
from then on.  It may be gated, and then every answer uses up one permit.
-/

import MeshView.Neighbors

namespace MeshView

/-- A source of answers with state `ε`. -/
structure Responder (ε : Type) where
  /-- A request for the identity was issued. -/
  call : ε → NodeId → ε
  /-- The answer for the running request, if there is one yet. -/
  answer? : ε → NodeId → Option (Answer × ε)

/-- The state of the responder shows which calls were made. -/
structure Responder.Records {ε : Type} (r : Responder ε) (calls : ε → List NodeId) : Prop where
  call : ∀ e id, calls (r.call e id) = calls e ++ [id]
  answer : ∀ e id answer e', r.answer? e id = some (answer, e') → calls e' = calls e

/-- The state of a scripted responder. -/
structure Script where
  answers : List (NodeId × List Answer)
  /-- Permits for gated answers; none if answers are not gated. -/
  permits : Option Nat
  /-- The requests so far, oldest first. -/
  calls : List NodeId

namespace Script

/-- The answer to the request for `id` that was issued last. -/
def current (s : Script) (id : NodeId) : Answer :=
  match (s.answers.find? fun entry => entry.1 = id).map Prod.snd with
  | none | some [] => .error (.unreachable id)
  | some (first :: rest) =>
    (first :: rest).getD (s.calls.count id - 1) ((first :: rest).getLastD first)

def call (s : Script) (id : NodeId) : Script := { s with calls := s.calls ++ [id] }

def answer? (s : Script) (id : NodeId) : Option (Answer × Script) :=
  match s.permits with
  | none => some (s.current id, s)
  | some 0 => none
  | some (n + 1) => some (s.current id, { s with permits := some n })

/-- Adds permits, if answers are gated. -/
def permit (s : Script) (n : Nat) : Script := { s with permits := s.permits.map (· + n) }

def responder : Responder Script := ⟨call, answer?⟩

end Script
end MeshView
