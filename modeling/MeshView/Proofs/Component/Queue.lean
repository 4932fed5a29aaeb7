/-
# The search by a queue

The usual breadth-first search has no levels: it takes the identities of a queue out one after
another, marks the neighbours of each that were not seen before, and queues them behind the others.
`Searched` is that loop without any bound, so a derivation of it is a run that ends.

In a finite set that links do not leave, the loop ends (`exists_searched`): a turn takes one identity
out of the queue and moves as many into it as it marks, so the length of the queue and the number of
identities that are not marked sum up to one less after every turn.  What it has marked then is what
the search by levels finds (`searched_reach`).
-/

import MeshView.Proofs.Component

namespace MeshView

namespace IdSet

/-- A set is determined by its members. -/
theorem ext {s t : IdSet} (h : ∀ x, x ∈ s ↔ x ∈ t) : s = t := by
  refine IdMap.ext_get? fun x => ?_
  have hx : (s.get? x).isSome = (t.get? x).isSome := Bool.eq_iff_iff.2 (h x)
  revert hx
  cases s.get? x <;> cases t.get? x <;> simp

end IdSet

namespace Component

/-- The loop of the search, from what is seen and what is queued to what is seen in the end. -/
inductive Searched (neighbours : NodeId → List NodeId) : IdSet → List NodeId → IdSet → Prop
  | done (seen : IdSet) : Searched neighbours seen [] seen
  | turn {seen : IdSet} {id : NodeId} {queue : List NodeId} {found : IdSet}
      (h : Searched neighbours (enter seen (neighbours id)).1
        (queue ++ (enter seen (neighbours id)).2) found) :
      Searched neighbours seen (id :: queue) found

variable {neighbours : NodeId → List NodeId} {seen found : IdSet} {queue : List NodeId}

theorem card_seenSet_add {id : NodeId} (hid : id ∉ seen) :
    (seenSet (seen.add id)).card = (seenSet seen).card + 1 := by
  have hinsert : seenSet (seen.add id) = insert id (seenSet seen) := Finset.ext fun x => by
    rw [mem_seenSet, IdSet.mem_add, Finset.mem_insert, mem_seenSet, eq_comm]
  rw [hinsert, Finset.card_insert_of_notMem fun h => hid (mem_seenSet.1 h)]

/-- As many identities are marked as are listed to be queued. -/
theorem card_enter (seen : IdSet) (ids : List NodeId) :
    (seenSet (enter seen ids).1).card = (seenSet seen).card + (enter seen ids).2.length := by
  induction ids generalizing seen with
  | nil => rfl
  | cons id ids ih =>
    rw [enter]
    split
    · exact ih seen
    · rename_i hid
      show (seenSet (enter (seen.add id) ids).1).card = _ + ((enter (seen.add id) ids).2.length + 1)
      rw [ih, card_seenSet_add hid]
      omega

section Finite
variable {stored : Finset NodeId} (hclosed : ∀ a ∈ stored, ∀ b, Leads neighbours a b → b ∈ stored)
include hclosed

/-- **The loop ends.** -/
theorem exists_searched (hseen : ∀ x ∈ seen, x ∈ stored) (hqueue : ∀ x ∈ queue, x ∈ stored) :
    ∃ found, Searched neighbours seen queue found := by
  -- the measure of the loop: what is queued and what is not marked yet
  induction hn : queue.length + (stored.card - (seenSet seen).card) using Nat.strongRecOn
    generalizing seen queue with
  | _ n ih =>
    cases queue with
    | nil => exact ⟨seen, .done seen⟩
    | cons id queue =>
      have hnext : ∀ x ∈ neighbours id, x ∈ stored := hclosed id (hqueue id List.mem_cons_self)
      obtain ⟨hseen', hfresh⟩ := forall_enter hseen hnext
      have hqueue' : ∀ x ∈ queue ++ (enter seen (neighbours id)).2, x ∈ stored := fun x hx =>
        (List.mem_append.1 hx).elim (fun hx => hqueue x (List.mem_cons_of_mem _ hx)) (hfresh x)
      have hle : (seenSet (enter seen (neighbours id)).1).card ≤ stored.card :=
        Finset.card_le_card fun x hx => hseen' x (mem_seenSet.1 hx)
      have hcard := card_enter seen (neighbours id)
      have hless : (queue ++ (enter seen (neighbours id)).2).length +
          (stored.card - (seenSet (enter seen (neighbours id)).1).card) < n := by
        rw [List.length_append]
        rw [List.length_cons] at hn
        omega
      obtain ⟨found, hfound⟩ := ih _ hless hseen' hqueue' rfl
      exact ⟨found, .turn hfound⟩

end Finite

/-- What is marked stays marked. -/
theorem Searched.subset (h : Searched neighbours seen queue found) {x : NodeId} (hx : x ∈ seen) :
    x ∈ found := by
  induction h with
  | done => exact hx
  | turn _ ih => exact ih ((mem_enter _ _ x).2 (.inl hx))

/-- Whatever the loop marks is reached by following links. -/
theorem Searched.reached {P : NodeId → Prop} (hstep : ∀ a b, P a → Leads neighbours a b → P b)
    (h : Searched neighbours seen queue found) (hseen : ∀ x ∈ seen, P x)
    (hqueue : ∀ x ∈ queue, P x) : ∀ x ∈ found, P x := by
  induction h with
  | done => exact hseen
  | @turn seen id queue found _ ih =>
    have hnext : ∀ x ∈ neighbours id, P x := fun x hx => hstep id x (hqueue id List.mem_cons_self) hx
    obtain ⟨hseen', hfresh⟩ := forall_enter hseen hnext
    exact ih hseen' fun x hx =>
      (List.mem_append.1 hx).elim (fun hx => hqueue x (List.mem_cons_of_mem _ hx)) (hfresh x)

/-- In the end links do not leave what is marked: nothing is queued any more. -/
theorem Searched.closed (h : Searched neighbours seen queue found)
    (hbehind : Behind neighbours seen queue) :
    ∀ a ∈ found, ∀ b, Leads neighbours a b → b ∈ found := by
  induction h with
  | done => exact fun a ha => hbehind a ha List.not_mem_nil
  | @turn seen id queue found _ ih =>
    have hone : [id].flatMap neighbours = neighbours id := List.flatMap_singleton _ _
    have hbehind' : Behind neighbours seen ([id] ++ queue) := hbehind
    exact ih (hone ▸ hbehind'.enter)

/-- **The search by a queue ends with the component.** -/
theorem searched_reach {stored : Finset NodeId} {size : Nat} {start : NodeId}
    (hstart : start ∈ stored)
    (hclosed : ∀ a ∈ stored, ∀ b, Leads neighbours a b → b ∈ stored)
    (hsize : stored.card ≤ size) :
    Searched neighbours (IdSet.ofIds [start]) [start] (reach neighbours size start) := by
  have hone : ∀ y, y ∈ IdSet.ofIds [start] ↔ y = start := fun y => by
    rw [IdSet.mem_ofIds, List.mem_singleton]
  obtain ⟨found, h⟩ : ∃ found, Searched neighbours (IdSet.ofIds [start]) [start] found :=
    exists_searched hclosed (fun x hx => (hone x).1 hx ▸ hstart)
      fun x hx => List.mem_singleton.1 hx ▸ hstart
  have hfound : found = reach neighbours size start := by
    refine IdSet.ext fun x => ?_
    rw [mem_reach_iff hstart hclosed hsize]
    constructor
    · refine h.reached (fun a b ha hab => ha.tail hab) (fun y hy => ?_) (fun y hy => ?_) x
      · rw [(hone y).1 hy]
      · rw [List.mem_singleton.1 hy]
    · intro hx
      have hends := h.closed fun a ha hnew =>
        absurd (List.mem_singleton.2 ((hone a).1 ha)) hnew
      induction hx with
      | refl => exact h.subset ((hone start).2 rfl)
      | tail _ hab ih => exact hends _ ih _ hab
  exact hfound ▸ h

end Component
end MeshView
