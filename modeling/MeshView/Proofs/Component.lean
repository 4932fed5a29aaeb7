/-
# The search finds what links lead to

The search is sound: whatever it enters is reached by following links (`reached_of_mem_explore`).
It is complete as long as the levels do not run out (`explore_closed`): everything seen behind the
frontier has all its neighbours among the seen (`Behind`), so a level that enters nothing leaves a
closed set.
In a finite set that links do not leave, every level but the last enters something new, so there
cannot be more levels than identities.
-/

import MeshView.Component
import MeshView.Proofs.Topology.Entries
import Mathlib.Data.Finset.Card
import Mathlib.Logic.Relation

namespace MeshView

namespace IdSet

theorem mem_ofIds {ids : List NodeId} {x : NodeId} : x ∈ ofIds ids ↔ x ∈ ids := by
  have hfold : ∀ (ids : List NodeId) (s : IdSet), x ∈ ids.foldl add s ↔ x ∈ s ∨ x ∈ ids := by
    intro ids
    induction ids with
    | nil => simp
    | cons id ids ih =>
      intro s
      rw [List.foldl_cons, ih, mem_add, List.mem_cons, eq_comm (a := id)]
      tauto
  have hempty : x ∉ (IdMap.empty : IdSet) := fun h => by
    obtain ⟨_, hx⟩ := IdMap.mem_iff.1 h
    cases hx
  rw [ofIds, hfold]
  exact or_iff_right hempty

end IdSet

namespace Component

/-- The identities that were seen, as a finite set. -/
def seenSet (seen : IdSet) : Finset NodeId := seen.keys.toFinset

theorem mem_seenSet {seen : IdSet} {x : NodeId} : x ∈ seenSet seen ↔ x ∈ seen := by
  rw [seenSet, List.mem_toFinset, IdMap.mem_keys]

theorem mem_enter (seen : IdSet) (ids : List NodeId) (x : NodeId) :
    x ∈ (enter seen ids).1 ↔ x ∈ seen ∨ x ∈ ids := by
  induction ids generalizing seen with
  | nil => simp [enter]
  | cons id ids ih =>
    rw [enter]
    split
    · rename_i hid
      rw [ih, List.mem_cons]
      constructor
      · exact fun h => h.imp_right .inr
      · rintro (h | rfl | h)
        · exact .inl h
        · exact .inl hid
        · exact .inr h
    · rw [ih, IdSet.mem_add, List.mem_cons, eq_comm (a := id)]
      tauto

theorem mem_enter_fresh (seen : IdSet) (ids : List NodeId) (x : NodeId) :
    x ∈ (enter seen ids).2 ↔ x ∈ ids ∧ x ∉ seen := by
  induction ids generalizing seen with
  | nil => simp [enter]
  | cons id ids ih =>
    rw [enter]
    split
    · rename_i hid
      rw [ih, List.mem_cons]
      constructor
      · exact fun h => ⟨.inr h.1, h.2⟩
      · rintro ⟨rfl | h, hx⟩
        · exact absurd hid hx
        · exact ⟨h, hx⟩
    · rename_i hid
      rw [List.mem_cons, ih, IdSet.mem_add, List.mem_cons, not_or]
      constructor
      · rintro (rfl | ⟨h, -, hx⟩)
        · exact ⟨.inl rfl, hid⟩
        · exact ⟨.inr h, hx⟩
      · rintro ⟨rfl | h, hx⟩
        · exact .inl rfl
        · by_cases he : id = x
          · exact .inl he.symm
          · exact .inr ⟨h, he, hx⟩

theorem mem_enter_iff_fresh (seen : IdSet) (ids : List NodeId) (x : NodeId) :
    x ∈ (enter seen ids).1 ↔ x ∈ seen ∨ x ∈ (enter seen ids).2 := by
  rw [mem_enter, mem_enter_fresh]
  tauto

/-- What holds of all that was seen and of all that is entered holds of all that is seen and fresh. -/
theorem forall_enter {P : NodeId → Prop} {seen : IdSet} {ids : List NodeId}
    (hseen : ∀ x ∈ seen, P x) (hids : ∀ x ∈ ids, P x) :
    (∀ x ∈ (enter seen ids).1, P x) ∧ ∀ x ∈ (enter seen ids).2, P x :=
  ⟨fun x hx => ((mem_enter seen ids x).1 hx).elim (hseen x) (hids x),
    fun x hx => hids x ((mem_enter_fresh seen ids x).1 hx).1⟩

/-- What was not seen before makes the seen identities more. -/
theorem card_lt_card_enter {seen : IdSet} {ids : List NodeId} (hnew : (enter seen ids).2 ≠ []) :
    (seenSet seen).card < (seenSet (enter seen ids).1).card := by
  obtain ⟨x, hx⟩ := List.exists_mem_of_ne_nil _ hnew
  obtain ⟨hxids, hxseen⟩ := (mem_enter_fresh seen ids x).1 hx
  refine Finset.card_lt_card (Finset.ssubset_iff.2 ⟨x, ?_, fun y hy => ?_⟩)
  · exact fun h => hxseen (mem_seenSet.1 h)
  · rw [mem_seenSet, mem_enter]
    rcases Finset.mem_insert.1 hy with rfl | hy
    · exact .inr hxids
    · exact .inl (mem_seenSet.1 hy)

variable (neighbours : NodeId → List NodeId)

/-- A link leads from the one identity to the other. -/
def Leads (a b : NodeId) : Prop := b ∈ neighbours a

/-- What was seen and is not ahead any more has all its neighbours among the seen. -/
def Behind (seen : IdSet) (ahead : List NodeId) : Prop :=
  ∀ a ∈ seen, a ∉ ahead → ∀ b, Leads neighbours a b → b ∈ seen

variable {neighbours}

/-- Entering the neighbours of some that are ahead leaves the others and the fresh ones ahead. -/
theorem Behind.enter {seen : IdSet} {done rest : List NodeId}
    (h : Behind neighbours seen (done ++ rest)) :
    Behind neighbours (enter seen (done.flatMap neighbours)).1
      (rest ++ (enter seen (done.flatMap neighbours)).2) := by
  intro a ha hnew b hb
  rw [List.mem_append, not_or] at hnew
  have hold : a ∈ seen := ((mem_enter_iff_fresh _ _ a).1 ha).resolve_right hnew.2
  refine (mem_enter _ _ b).2 ?_
  by_cases hdone : a ∈ done
  · exact .inr (List.mem_flatMap.2 ⟨a, hdone, hb⟩)
  · exact .inl (h a hold (fun hahead => (List.mem_append.1 hahead).elim hdone hnew.1) b hb)

theorem subset_explore (levels : Nat) (seen : IdSet) (frontier : List NodeId) {x : NodeId}
    (hx : x ∈ seen) : x ∈ explore neighbours levels seen frontier := by
  induction levels generalizing seen frontier with
  | zero => exact hx
  | succ levels ih =>
    have hx' := (mem_enter seen (frontier.flatMap neighbours) x).2 (.inl hx)
    rw [explore]
    dsimp only
    split
    · exact hx'
    · exact ih _ _ hx'

/-- Whatever the search enters is reached by following links. -/
theorem reached_of_mem_explore {P : NodeId → Prop} (hstep : ∀ a b, P a → Leads neighbours a b → P b)
    (levels : Nat) {seen : IdSet} {frontier : List NodeId} (hseen : ∀ x ∈ seen, P x)
    (hfrontier : ∀ x ∈ frontier, P x) :
    ∀ x ∈ explore neighbours levels seen frontier, P x := by
  induction levels generalizing seen frontier with
  | zero => exact hseen
  | succ levels ih =>
    have hnext : ∀ x ∈ frontier.flatMap neighbours, P x := by
      intro x hx
      obtain ⟨a, ha, hx⟩ := List.mem_flatMap.1 hx
      exact hstep a x (hfrontier a ha) hx
    obtain ⟨hseen', hfresh⟩ := forall_enter hseen hnext
    rw [explore]
    dsimp only
    split
    · exact hseen'
    · exact ih hseen' hfresh

/-- With enough levels the search ends with a set that links do not leave. -/
theorem explore_closed {stored : Finset NodeId}
    (hclosed : ∀ a ∈ stored, ∀ b, Leads neighbours a b → b ∈ stored)
    (levels : Nat) (seen : IdSet) (frontier : List NodeId)
    (hseen : ∀ x ∈ seen, x ∈ stored) (hfrontier : ∀ x ∈ frontier, x ∈ stored)
    (hbehind : Behind neighbours seen frontier)
    (hlevels : stored.card < levels + (seenSet seen).card) :
    ∀ a ∈ explore neighbours levels seen frontier, ∀ b, Leads neighbours a b →
      b ∈ explore neighbours levels seen frontier := by
  induction levels generalizing seen frontier with
  | zero =>
    have hle : (seenSet seen).card ≤ stored.card :=
      Finset.card_le_card fun x hx => hseen x (mem_seenSet.1 hx)
    omega
  | succ levels ih =>
    have hnext : ∀ x ∈ frontier.flatMap neighbours, x ∈ stored := by
      intro x hx
      obtain ⟨a, ha, hx⟩ := List.mem_flatMap.1 hx
      exact hclosed a (hfrontier a ha) x hx
    obtain ⟨hseen', hfresh⟩ := forall_enter hseen hnext
    have hbehind' : Behind neighbours (enter seen (frontier.flatMap neighbours)).1
        (enter seen (frontier.flatMap neighbours)).2 := by
      rw [← List.append_nil frontier] at hbehind
      exact hbehind.enter
    rw [explore]
    dsimp only
    split
    · rename_i hempty
      -- the last level: nothing is ahead any more
      rw [List.isEmpty_iff.1 hempty] at hbehind'
      exact fun a ha => hbehind' a ha List.not_mem_nil
    · rename_i hsome
      have hlt : (seenSet seen).card <
          (seenSet (enter seen (frontier.flatMap neighbours)).1).card :=
        card_lt_card_enter fun hnil => hsome (List.isEmpty_iff.2 hnil)
      exact ih _ _ hseen' hfresh hbehind' (by omega)

/-- **The component is what links lead to.**  The stored identities are any finite set that
contains the start and that links do not leave, with at most `size` identities. -/
theorem mem_reach_iff {stored : Finset NodeId} {size : Nat} {start : NodeId}
    (hstart : start ∈ stored)
    (hclosed : ∀ a ∈ stored, ∀ b, Leads neighbours a b → b ∈ stored)
    (hsize : stored.card ≤ size) (x : NodeId) :
    x ∈ reach neighbours size start ↔ Relation.ReflTransGen (Leads neighbours) start x := by
  have hone : ∀ y, y ∈ IdSet.ofIds [start] ↔ y = start := fun y => by
    rw [IdSet.mem_ofIds, List.mem_singleton]
  constructor
  · refine reached_of_mem_explore (fun a b ha hab => ha.tail hab) size (fun y hy => ?_)
      (fun y hy => ?_) x
    · rw [(hone y).1 hy]
    · rw [List.mem_singleton.1 hy]
  · have hcard : (seenSet (IdSet.ofIds [start])).card = 1 :=
      Finset.card_eq_one.2 ⟨start, Finset.ext fun y => by
        rw [mem_seenSet, hone, Finset.mem_singleton]⟩
    have hfound := explore_closed hclosed size (IdSet.ofIds [start]) [start]
      (fun y hy => (hone y).1 hy ▸ hstart)
      (fun y hy => List.mem_singleton.1 hy ▸ hstart)
      (fun a ha hnew => absurd (List.mem_singleton.2 ((hone a).1 ha)) hnew) (by omega)
    intro hx
    induction hx with
    | refl => exact subset_explore size _ _ ((hone start).2 rfl)
    | tail _ hab ih => exact hfound _ ih _ hab

end Component
end MeshView
