/-
# What is pending

An identity is pending from its request until its answer is released: it waits in the queue, its
request is running, or its answer is out with the receiver.  `Orderly` says that these are all that
is pending and that no identity is in two of these places or in one place twice.  The queue then
never holds more than what may be asked for, and with room for that many nothing is dropped.
-/

import MeshView.Backfill
import MeshView.Proofs.Component
import Mathlib.Data.List.Nodup

namespace MeshView
namespace Backfill

/-- Every identity under way, if the answers of `out` are with the receiver. -/
def waiting (b : Backfill) (out : List NodeId) : List NodeId :=
  out ++ (b.running.toList ++ b.queue)

/-- Pending is what is under way, and everything is under way once. -/
structure Orderly (b : Backfill) (out : List NodeId) : Prop where
  nodup : (b.waiting out).Nodup
  pending_iff : ∀ id, b.isPending id = true ↔ id ∈ b.waiting out

theorem orderly_idle (capacity : Nat) : (idle capacity).Orderly [] where
  nodup := List.nodup_nil
  pending_iff id := by
    show (∅ : IdSet).contains id = true ↔ id ∈ []
    simp [IdMap.contains]

variable {b : Backfill} {out : List NodeId} {id : NodeId}

theorem contains_erase (s : IdSet) (id x : NodeId) :
    (s.erase id).contains x = true ↔ s.contains x = true ∧ x ≠ id := by
  rw [IdMap.contains, IdMap.contains, IdMap.get?_erase]
  by_cases h : id = x
  · simp [h]
  · simp [h, Ne.symm h]

/-! ## Requests -/

theorem accepts_iff (b : Backfill) (id : NodeId) :
    b.accepts id = true ↔ b.isPending id = false ∧ b.queue.length < b.capacity := by
  rw [accepts, Bool.and_eq_true, Bool.not_eq_true', decide_eq_true_iff]

theorem request_of_accepts {id : NodeId} (h : b.accepts id = true) :
    b.request id = { b with pending := b.pending.add id, queue := b.queue ++ [id] } := by
  obtain ⟨hpending, hroom⟩ := (b.accepts_iff id).1 h
  rw [request, if_neg (Bool.eq_false_iff.1 hpending), if_pos hroom]

/-- A request that is not accepted is counted, unless the identity is pending. -/
theorem request_of_not_accepts {id : NodeId} (h : b.accepts id = false) :
    b.request id = { b with dropped := b.dropped + if b.isPending id then 0 else 1 } := by
  by_cases hpending : b.isPending id = true
  · rw [request, if_pos hpending, if_pos hpending]
    rfl
  · have hfull : ¬ b.queue.length < b.capacity := fun hroom =>
      Bool.eq_false_iff.1 h ((b.accepts_iff id).2 ⟨Bool.eq_false_iff.2 hpending, hroom⟩)
    rw [request, if_neg hpending, if_neg hfull, if_neg hpending]

/-- What requests do when none of them is dropped. -/
structure Requested (b : Backfill) (out ids : List NodeId) (b' : Backfill) : Prop where
  orderly : b'.Orderly out
  mem_waiting : ∀ x, x ∈ b'.waiting out ↔ x ∈ b.waiting out ∨ x ∈ ids
  running_eq : b'.running = b.running
  capacity_eq : b'.capacity = b.capacity
  dropped_eq : b'.dropped = b.dropped

/-- With room in the queue, a request is not dropped. -/
theorem Orderly.request (h : b.Orderly out) (hroom : b.queue.length < b.capacity) (id : NodeId) :
    Requested b out [id] (b.request id) := by
  by_cases hp : b.isPending id = true
  · have heq : b.request id = b := by rw [Backfill.request, if_pos hp]
    rw [heq]
    refine ⟨h, fun x => ⟨.inl, ?_⟩, rfl, rfl, rfl⟩
    rintro (hx | hx)
    · exact hx
    · rw [List.mem_singleton.1 hx, ← h.pending_iff, hp]
  · have hnew : id ∉ b.waiting out := fun hid => hp ((h.pending_iff id).2 hid)
    have heq : b.request id = { b with pending := b.pending.add id, queue := b.queue ++ [id] } := by
      rw [Backfill.request, if_neg hp, if_pos hroom]
    have hwaiting : (b.request id).waiting out = b.waiting out ++ [id] := by
      rw [heq, waiting, waiting, List.append_assoc, List.append_assoc]
    have hmem : ∀ x, x ∈ (b.request id).waiting out ↔ x ∈ b.waiting out ∨ x ∈ [id] := fun x => by
      rw [hwaiting, List.mem_append]
    refine ⟨⟨?_, fun x => ?_⟩, hmem, by rw [heq], by rw [heq], by rw [heq]⟩
    · rw [hwaiting]
      exact h.nodup.append (List.nodup_singleton id) fun x hx hx' =>
        hnew (List.mem_singleton.1 hx' ▸ hx)
    · rw [hmem, ← h.pending_iff, heq, List.mem_singleton]
      show x ∈ b.pending.add id ↔ _
      rw [IdSet.mem_add, or_comm, eq_comm]
      rfl

/-- With or without room, a request keeps order. -/
theorem Orderly.request_any (h : b.Orderly out) (id : NodeId) : (b.request id).Orderly out := by
  cases haccepts : b.accepts id with
  | true => exact (h.request ((b.accepts_iff id).1 haccepts).2 id).orderly
  | false =>
    rw [request_of_not_accepts haccepts]
    exact ⟨h.nodup, h.pending_iff⟩

/-- What requests do, whether or not some of them are dropped: `new` is what is accepted. -/
structure Asked (b : Backfill) (ids new : List NodeId) (b' : Backfill) : Prop where
  queue_eq : b'.queue = b.queue ++ new
  sublist : new.Sublist ids
  fresh : ∀ x ∈ new, b.isPending x = false
  isPending_iff : ∀ x, b'.isPending x = true ↔ b.isPending x = true ∨ x ∈ new
  pending_or_full : ∀ x ∈ ids, b'.isPending x = true ∨ b.capacity ≤ b'.queue.length
  running_eq : b'.running = b.running
  capacity_eq : b'.capacity = b.capacity
  issued_eq : b'.issued = b.issued

theorem exists_asked_one (b : Backfill) (id : NodeId) : ∃ new, Asked b [id] new (b.request id) := by
  cases haccepts : b.accepts id with
  | true =>
    have hpending : ∀ x, (b.request id).isPending x = true ↔ b.isPending x = true ∨ x ∈ [id] := by
      intro x
      rw [request_of_accepts haccepts, List.mem_singleton, or_comm, @eq_comm _ x]
      exact IdSet.mem_add
    refine ⟨[id], ?_, .refl _, fun x hx => ?_, hpending,
      fun x hx => .inl ((hpending x).2 (.inr hx)), ?_, ?_, ?_⟩
    case refine_2 => exact List.mem_singleton.1 hx ▸ ((b.accepts_iff id).1 haccepts).1
    all_goals rw [request_of_accepts haccepts]
  | false =>
    have heq := request_of_not_accepts haccepts
    refine ⟨[], ?_, List.nil_sublist _, nofun, fun x => ?_, fun x hx => ?_, ?_, ?_, ?_⟩
    case refine_3 =>
      rw [List.mem_singleton.1 hx, heq]
      refine or_iff_not_imp_left.2 fun hp => not_lt.1 fun hroom => ?_
      exact Bool.eq_false_iff.1 haccepts ((b.accepts_iff id).2 ⟨Bool.eq_false_iff.2 hp, hroom⟩)
    all_goals rw [heq]
    · exact (List.append_nil _).symm
    · exact (or_iff_left List.not_mem_nil).symm

theorem Asked.trans {b' b'' : Backfill} {ids ids' new new' : List NodeId} (h : Asked b ids new b')
    (h' : Asked b' ids' new' b'') : Asked b (ids ++ ids') (new ++ new') b'' where
  queue_eq := by rw [h'.queue_eq, h.queue_eq, List.append_assoc]
  sublist := h.sublist.append h'.sublist
  fresh x hx := by
    rcases List.mem_append.1 hx with hx | hx
    · exact h.fresh x hx
    · by_contra hp
      exact Bool.eq_false_iff.1 (h'.fresh x hx)
        ((h.isPending_iff x).2 (.inl (Bool.not_eq_false _ ▸ hp)))
  isPending_iff x := by rw [h'.isPending_iff, h.isPending_iff, or_assoc, List.mem_append]
  pending_or_full x hx := by
    rcases List.mem_append.1 hx with hx | hx
    · refine (h.pending_or_full x hx).imp (fun hp => (h'.isPending_iff x).2 (.inl hp)) fun hfull => ?_
      rw [h'.queue_eq, List.length_append]
      exact hfull.trans (Nat.le_add_right _ _)
    · exact h.capacity_eq ▸ h'.pending_or_full x hx
  running_eq := h'.running_eq.trans h.running_eq
  capacity_eq := h'.capacity_eq.trans h.capacity_eq
  issued_eq := h'.issued_eq.trans h.issued_eq

/-- **Every identity is pending afterwards, or else the queue is full.** -/
theorem exists_asked (b : Backfill) (ids : List NodeId) :
    ∃ new, Asked b ids new (ids.foldl Backfill.request b) := by
  induction ids generalizing b with
  | nil =>
    exact ⟨[], (List.append_nil _).symm, .slnil, nofun,
      fun _ => (or_iff_left List.not_mem_nil).symm, nofun, rfl, rfl, rfl⟩
  | cons id ids ih =>
    obtain ⟨new, hone⟩ := b.exists_asked_one id
    obtain ⟨new', hrest⟩ := ih (b.request id)
    exact ⟨new ++ new', hone.trans hrest⟩

theorem Orderly.foldl_request (h : b.Orderly out) (ids : List NodeId) :
    (ids.foldl Backfill.request b).Orderly out := by
  induction ids generalizing b with
  | nil => exact h
  | cons id ids ih => exact ih (h.request_any id)

theorem Asked.mem_waiting {ids new : List NodeId} {b' : Backfill} (h : Asked b ids new b')
    (x : NodeId) : x ∈ b'.waiting out ↔ x ∈ b.waiting out ∨ x ∈ new := by
  simp only [waiting, h.queue_eq, h.running_eq, List.mem_append, or_assoc]

/-- The queue is no longer than what may be asked for. -/
theorem Orderly.length_queue_le (h : b.Orderly out) {allowed : Finset NodeId}
    (hallowed : ∀ x ∈ b.waiting out, x ∈ allowed) : b.queue.length ≤ allowed.card := by
  have hsub : b.queue.Sublist (b.waiting out) :=
    (List.sublist_append_right _ _).trans (List.sublist_append_right _ _)
  rw [← List.toFinset_card_of_nodup (h.nodup.sublist hsub)]
  exact Finset.card_le_card fun x hx => hallowed x (hsub.subset (List.mem_toFinset.1 hx))

/-- **With room for all that may be asked for, no request is dropped.** -/
theorem Orderly.requestAll {allowed : Finset NodeId} (h : b.Orderly out) {ids : List NodeId}
    (hroom : allowed.card < b.capacity) (hallowed : ∀ x ∈ b.waiting out, x ∈ allowed)
    (hids : ∀ x ∈ ids, x ∈ allowed) : Requested b out ids (ids.foldl Backfill.request b) := by
  induction ids generalizing b with
  | nil => exact ⟨h, fun x => (or_iff_left List.not_mem_nil).symm, rfl, rfl, rfl⟩
  | cons id ids ih =>
    have hone := h.request ((h.length_queue_le hallowed).trans_lt hroom) id
    have hrest := ih hone.orderly (hone.capacity_eq ▸ hroom) (fun x hx => ?_)
      fun x hx => hids x (List.mem_cons_of_mem _ hx)
    · refine ⟨hrest.orderly, fun x => ?_, hrest.running_eq.trans hone.running_eq,
        hrest.capacity_eq.trans hone.capacity_eq, hrest.dropped_eq.trans hone.dropped_eq⟩
      rw [List.foldl_cons, hrest.mem_waiting, hone.mem_waiting, or_assoc, List.mem_singleton,
        List.mem_cons]
    · rcases (hone.mem_waiting x).1 hx with hx | hx
      · exact hallowed x hx
      · exact hids x (List.mem_singleton.1 hx ▸ List.mem_cons_self)

/-! ## The worker -/

theorem Orderly.issue (h : b.Orderly out) {rest : List NodeId} (hrunning : b.running = none)
    (hqueue : b.queue = id :: rest) :
    b.issue = { b with queue := rest, running := some id, issued := b.issued + 1 } ∧
      b.issue.Orderly out ∧ b.issue.waiting out = b.waiting out := by
  have heq : b.issue = { b with queue := rest, running := some id, issued := b.issued + 1 } := by
    simp only [Backfill.issue, hrunning, hqueue]
  have hwaiting : b.issue.waiting out = b.waiting out := by
    rw [heq, waiting, waiting, hrunning, hqueue]
    rfl
  exact ⟨heq, ⟨hwaiting ▸ h.nodup, fun x => by rw [hwaiting, ← h.pending_iff, heq]; rfl⟩, hwaiting⟩

theorem Orderly.issue_any (h : b.Orderly out) : b.issue.Orderly out := by
  rw [Backfill.issue]
  split
  · rename_i id rest hrunning hqueue
    have hissue := (h.issue hrunning hqueue).2.1
    rwa [Backfill.issue, hrunning, hqueue] at hissue
  · exact h

/-- An answer changes nothing about what waits, whether it succeeds or not. -/
theorem finish_queue (b : Backfill) (answer : Answer) : (b.finish answer).queue = b.queue := by
  cases answer with
  | ok list => rfl
  | error failure =>
    rw [finish]
    split <;> rfl

theorem finish_running (b : Backfill) (answer : Answer) : (b.finish answer).running = none := by
  cases answer with
  | ok list => rfl
  | error failure =>
    rw [finish]
    split
    · rfl
    · assumption

theorem finish_issued (b : Backfill) (answer : Answer) : (b.finish answer).issued = b.issued := by
  cases answer with
  | ok list => rfl
  | error failure =>
    rw [finish]
    split <;> rfl

/-- An answer goes out; its identity stays under way. -/
theorem Orderly.finish_ok (h : b.Orderly out) (hrunning : b.running = some id)
    (list : NeighborList) : (b.finish (.ok list)).Orderly (out ++ [id]) ∧
      (b.finish (.ok list)).waiting (out ++ [id]) = b.waiting out := by
  have hwaiting : (b.finish (.ok list)).waiting (out ++ [id]) = b.waiting out := by
    rw [waiting, waiting, hrunning, List.append_assoc]
    rfl
  exact ⟨⟨hwaiting ▸ h.nodup, fun x => hwaiting ▸ h.pending_iff x⟩, hwaiting⟩

/-- What loses one identity of those under way, and the same one of those pending. -/
theorem Orderly.drop {b' : Backfill} {out' : List NodeId} (h : b.Orderly out)
    (left right : List NodeId) (hpending : b'.pending = b.pending.erase id)
    (hbefore : b.waiting out = left ++ id :: right) (hafter : b'.waiting out' = left ++ right) :
    b'.Orderly out' ∧ ∀ x, x ∈ b'.waiting out' ↔ x ∈ b.waiting out ∧ x ≠ id := by
  have hnodup : (id :: (left ++ right)).Nodup :=
    List.perm_middle.nodup (hbefore ▸ h.nodup)
  obtain ⟨hid, hrest⟩ := List.nodup_cons.1 hnodup
  have hmem : ∀ x, x ∈ b'.waiting out' ↔ x ∈ b.waiting out ∧ x ≠ id := by
    intro x
    rw [hafter, hbefore, List.perm_middle.mem_iff, List.mem_cons]
    constructor
    · exact fun hx => ⟨.inr hx, fun he => hid (he ▸ hx)⟩
    · exact fun hx => hx.1.resolve_left hx.2
  refine ⟨⟨hafter ▸ hrest, fun x => ?_⟩, hmem⟩
  rw [hmem, ← h.pending_iff, isPending, hpending, contains_erase]
  rfl

/-- A failure releases the identity. -/
theorem Orderly.finish_error (h : b.Orderly out) (hrunning : b.running = some id)
    (failure : FetchFailure) : (b.finish (.error failure)).Orderly out ∧
      ∀ x, x ∈ (b.finish (.error failure)).waiting out ↔ x ∈ b.waiting out ∧ x ≠ id := by
  have heq : b.finish (.error failure) =
      { b with running := none, pending := b.pending.erase id, failed := b.failed + 1 } := by
    simp only [Backfill.finish, hrunning]
  rw [heq]
  refine h.drop out b.queue rfl ?_ rfl
  rw [waiting, hrunning]
  rfl

/-- The receiver releases one of the identities that are out. -/
theorem Orderly.release (left right : List NodeId) (h : b.Orderly (left ++ id :: right)) :
    (b.release id).Orderly (left ++ right) ∧
      ∀ x, x ∈ (b.release id).waiting (left ++ right) ↔
        x ∈ b.waiting (left ++ id :: right) ∧ x ≠ id := by
  refine h.drop left (right ++ (b.running.toList ++ b.queue)) rfl ?_ ?_
  · rw [waiting, List.append_assoc, List.cons_append]
  · exact List.append_assoc left right _

end Backfill
end MeshView
