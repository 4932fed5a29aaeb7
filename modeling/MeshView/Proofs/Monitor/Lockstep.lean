/-
# Asking for costs leaves the shape alone

Two monitors go from the same report to rest, and only one of them asks for costs.  Their fronts go in
lockstep (`Trails`): the topology of the thrifty one shadows the other, and under way with it are the
nodes that are under way with the other and not fetched yet, in the same order.  An answer of such a
node is the next one for both.  An answer of a node that is fetched is absorbed by the other one only,
and it repeats what is stored, as long as a fetched node has told all its links (`Grounded`).
-/

import MeshView.Proofs.Monitor.Front
import MeshView.Proofs.Topology.Shadow

namespace MeshView

/-! ## What an answer does -/

namespace Topology
variable {t t' : Topology} {g : Mesh} {localId id a : NodeId} {strict : Prop} {sure : NodeId → Prop}

/-- What an answer leaves of the nodes that did not give it. -/
theorem WellFormed.answer_others (h : t.WellFormed) (hne : a ≠ id) :
    (t.applyAll (g.localView id)).topology.isFetched a = t.isFetched a ∧
      ((t.applyAll (g.localView id)).topology.cost? a).join = (t.cost? a).join ∧
      ∀ b, (t.applyAll (g.localView id)).topology.held? a b = t.held? a b := by
  have hgrows : ∀ r ∈ g.localView id, r.Grows := fun _ => grows_of_mem_localView
  have hno : ∀ r ∈ g.localView id, ¬ r.Fetches a := fun r hr hf => hne (eq_of_fetches hr hf).symm
  refine ⟨?_, join_cost?_applyAll t hgrows fun k hk => ?_, h.held?_applyAll hgrows hno⟩
  · rw [Bool.eq_iff_iff, isFetched_applyAll t hgrows]
    exact or_iff_left fun ⟨r, hr, hf⟩ => hno r hr hf
  · rcases Mesh.mem_localView_iff.1 hk with ⟨k', -, heq⟩ | ⟨b, c, -, heq⟩
    · cases heq
      exact hne rfl
    · cases heq

/-- What a node answered is known. -/
theorem Informed.covers_answer (h : t.Informed g localId strict) (hg : g.WellFormed)
    (hid : g.Tells localId id) : (t.applyAll (g.localView id)).topology.Covers g id :=
  (h.faithful.applyAll_advance hg fun _ hr => ⟨id, hid, hr⟩).2

/-- What shadows a topology that was told the truth was told the truth. -/
theorem Shadows.informed (h : t'.Shadows t sure) (ht : t.Informed g localId False) :
    t'.Informed g localId False where
  faithful :=
    { wellFormed := h.wellFormed
      visible := fun x hx => by
        have hstored := contains_iff_cost?.2 hx
        rw [h.contains_eq] at hstored
        exact ht.faithful.visible x (contains_iff_cost?.1 hstored)
      held := fun x y c hxy => by
        have hne : t.held? x y ≠ none := fun hnone => by
          rw [(h.held?_eq_none x y).2 hnone] at hxy
          cases hxy
        obtain ⟨k, hk⟩ := Option.ne_none_iff_exists'.1 hne
        obtain ⟨htells, hlink, -⟩ := ht.faithful.held x y k hk
        exact ⟨htells, hlink, False.elim⟩
      cost := fun x c hc => ht.faithful.cost x c (h.cost x c hc) }
  localId_eq := h.localId_eq.trans ht.localId_eq
  stored := (h.contains_eq localId).trans ht.stored

/-- A fetched node has told all its links; and as long as its cost is not known, the links that it holds
have their costs of now, if it is sure. -/
structure Grounded (t : Topology) (g : Mesh) (localId : NodeId) (sure : NodeId → Prop) : Prop where
  informed : t.Informed g localId False
  linked : ∀ a, a ≠ localId → t.isFetched a = true → ∀ b, g.Linked a b → t.Linked a b
  held : ∀ a, a ≠ localId → sure a → t.isFetched a = true → t.cost? a = some none →
    ∀ b c, t.held? a b = some c → g.link? a b = some c

/-- An answer keeps this up, if a sure node has a cost to tell. -/
theorem Grounded.answer (h : t.Grounded g localId sure) (hg : g.WellFormed)
    (hid : g.Tells localId id) (hsure : sure id → g.cost? id ≠ none) :
    (t.applyAll (g.localView id)).topology.Grounded g localId sure := by
  have htrue : ∀ r ∈ g.localView id, Truthful g localId r := fun r hr => ⟨id, hid, hr⟩
  have hcovers := h.informed.covers_answer hg hid
  obtain ⟨hadvance, -⟩ := h.informed.faithful.applyAll_advance hg htrue
  refine ⟨h.informed.applyAll hg htrue, fun a ha hf b hab => ?_, fun a ha hs hf hc b c hab => ?_⟩
  · rcases eq_or_ne a id with rfl | he
    · exact hcovers.link? hab
    · rw [(h.informed.faithful.wellFormed.answer_others he).1] at hf
      exact Option.isSome_iff_ne_none.1
        (hadvance.keeps (.link a b) (Option.isSome_iff_ne_none.2 (h.linked a ha hf b hab)))
  · rcases eq_or_ne a id with rfl | he
    · obtain ⟨k, hk⟩ := Option.ne_none_iff_exists'.1 (hsure hs)
      obtain ⟨k', hknown⟩ := hcovers.cost? hk
      rw [hc] at hknown
      cases hknown
    · obtain ⟨hf', hc', hheld⟩ := h.informed.faithful.wellFormed.answer_others (g := g) he
      rw [hf'] at hf
      rw [hc, Option.join_some] at hc'
      exact h.held a ha hs hf (cost?_eq_some_none (contains_of_isFetched hf) hc'.symm) b c
        (hheld b ▸ hab)

/-- A fetched node whose cost is not known repeats itself. -/
theorem Grounded.repeats (h : t.Grounded g localId sure) (hne : id ≠ localId)
    (hf : t.isFetched id = true) (hc : t.cost? id = some none) {r : Report}
    (hr : r ∈ g.localView id) : t.Repeats sure id r := by
  rcases Mesh.mem_localView_iff.1 hr with ⟨k, -, rfl⟩ | ⟨b, k, hk, rfl⟩
  · refine .inl ⟨k, rfl, fun c hknown => ?_⟩
    rw [hc] at hknown
    cases hknown
  · have hlink : g.Linked id b := by
      rw [Mesh.Linked, hk]
      exact Option.some_ne_none k
    refine .inr ⟨b, k, rfl, h.linked id hne hf b hlink, fun hs c hheld => ?_⟩
    exact Option.some.inj ((h.held id hne hs hf hc b c hheld).symm.trans hk)

end Topology

/-! ## The front of a monitor that asks for costs -/

namespace Front
variable {g : Mesh} {localId : NodeId} {sure : NodeId → Prop} {f f' : Front}

/-- The topology is grounded, everything that is not fetched is under way, and whatever else is under
way has no cost yet. -/
structure Sound (g : Mesh) (localId : NodeId) (sure : NodeId → Prop) (f : Front) : Prop where
  grounded : f.topology.Grounded g localId sure
  nodup : f.ahead.Nodup
  stored : ∀ id ∈ f.ahead, f.topology.contains id = true ∧ id ≠ localId
  unfetched : ∀ id, f.topology.contains id = true → id ≠ localId →
    f.topology.isFetched id = false → id ∈ f.ahead
  costless : ∀ id ∈ f.ahead, f.topology.isFetched id = true → f.topology.cost? id = some none

section Next
variable (h : f.Sound g localId sure) {id : NodeId} {rest : List NodeId} (hf : f.ahead = id :: rest)
include h hf

/-- The node that answers next can be seen and tells its links, of which it has one at least. -/
theorem Sound.answers (hg : g.WellFormed) (hlocal : g.contains localId = true)
    (honline : g.AllOnline) : g.Tells localId id ∧
      (f.topology.applyAll (g.localView id)).topology.isFetched id = true := by
  obtain ⟨hstored, hne⟩ := h.stored id (hf ▸ List.mem_cons_self)
  have hvisible := h.grounded.informed.faithful.visible id (Topology.contains_iff_cost?.1 hstored)
  obtain ⟨b, c, hbc⟩ := hvisible.exists_link hg hne
  refine ⟨⟨hvisible, .inr (honline id (hvisible.contains hg hlocal))⟩, ?_⟩
  exact (Topology.isFetched_applyAll _ (fun _ => Topology.grows_of_mem_localView) id).2
    (.inr ⟨.link id b c, Mesh.mem_localView_iff.2 (.inr ⟨b, c, hbc, rfl⟩), rfl⟩)

/-- After the answer, what is not fetched and not under way was not stored before. -/
theorem Sound.new_of_unfetched {x : NodeId}
    (hunfetched : (f.topology.applyAll (g.localView id)).topology.isFetched x = false)
    (hne : x ≠ localId) (hahead : x ∉ f.ahead) : f.topology.contains x = false := by
  have hother : x ≠ id := fun he => hahead (hf ▸ he ▸ List.mem_cons_self)
  have hwf := h.grounded.informed.faithful.wellFormed
  rw [(hwf.answer_others hother).1] at hunfetched
  exact Bool.eq_false_iff.2 fun hstored => hahead (h.unfetched x hstored hne hunfetched)

end Next

/-- **An answer leads from a sound front to a sound one.** -/
theorem Sound.next (hg : g.WellFormed) (hlocal : g.contains localId = true) (honline : g.AllOnline)
    (hsure : ∀ a, sure a → a ≠ localId → g.contains a = true → g.cost? a ≠ none)
    (h : f.Sound g localId sure) : (f.next g true).Sound g localId sure := by
  cases hf : f.ahead with
  | nil => rwa [next_of_nil hf]
  | cons id rest =>
    have hgrows : ∀ r ∈ g.localView id, r.Grows := fun _ => Topology.grows_of_mem_localView
    have hwf := h.grounded.informed.faithful.wellFormed
    have haccrual := hwf.applyAll_accrual hgrows
    obtain ⟨htells, hfetched⟩ := h.answers hf hg hlocal honline
    have hne : id ≠ localId := (h.stored id (hf ▸ List.mem_cons_self)).2
    have hgrounded := h.grounded.answer hg htells fun hs =>
      hsure id hs hne (htells.visible.contains hg hlocal)
    obtain ⟨hnot, hnodup⟩ := List.nodup_cons.1 (hf ▸ h.nodup)
    have hstays : ∀ x ∈ rest, (f.topology.applyAll (g.localView id)).topology.contains x = true ∧
        x ≠ localId := fun x hx => by
      obtain ⟨hstored, hx⟩ := h.stored x (hf ▸ List.mem_cons_of_mem id hx)
      exact ⟨hwf.contains_applyAll hgrows hstored, hx⟩
    have hwanted : ∀ x ∈ (f.topology.applyAll (g.localView id)).asked true (id :: rest),
        x ∉ id :: rest ∧ _ := fun x hx =>
      ⟨(Change.mem_asked.1 hx).2.2, (haccrual.wellFormed.mem_wanted x).1 (Change.mem_asked.1 hx).2.1⟩
    rw [next_of_cons hf]
    refine ⟨hgrounded, ?_, fun x hx => ?_, fun x hstored hx hunfetched => ?_, fun x hx hfx => ?_⟩
    · refine hnodup.append ((Change.ascending_asked _ _ _).imp fun hab => NodeId.ne_of_lt hab)
        fun x hx hx' => (hwanted x hx').1 (List.mem_cons_of_mem id hx)
    · rcases List.mem_append.1 hx with hx | hx
      · exact hstays x hx
      · refine ⟨haccrual.wellFormed.contains_of_mem_wanted (Change.mem_asked.1 hx).2.1, ?_⟩
        rw [← hgrounded.informed.localId_eq]
        exact (hwanted x hx).2.2
    · by_cases hahead : x ∈ f.ahead
      · rw [hf] at hahead
        refine List.mem_append_left _ ((List.mem_cons.1 hahead).resolve_left fun he => ?_)
        rw [he, hfetched] at hunfetched
        cases hunfetched
      · have hnew := h.new_of_unfetched hf hunfetched hx hahead
        rw [hf] at hahead
        refine List.mem_append_right _ (Change.mem_asked.2
          ⟨Topology.diff_ne_of_new haccrual.replay_eq hnew hstored, ?_, hahead⟩)
        refine (haccrual.wellFormed.mem_wanted x).2 ⟨.inl ⟨hstored, hunfetched⟩, ?_⟩
        rwa [hgrounded.informed.localId_eq]
    · rcases List.mem_append.1 hx with hx | hx
      · obtain ⟨hmark, hcost, -⟩ :=
          hwf.answer_others (g := g) fun he : x = id => hnot (he ▸ hx)
        rw [h.costless x (hf ▸ List.mem_cons_of_mem id hx) (hmark ▸ hfx)] at hcost
        exact Topology.cost?_eq_some_none (hstays x hx).1 hcost
      · refine ((hwanted x hx).2.1.resolve_left fun hboth => ?_).2
        rw [hboth.2] at hfx
        cases hfx

/-! ## The front of a monitor that does not -/

/-- The nodes under way that were not fetched yet. -/
def fresh (f : Front) : List NodeId := f.ahead.filter fun id => f.topology.isFetched id = false

theorem mem_fresh {id : NodeId} :
    id ∈ f.fresh ↔ id ∈ f.ahead ∧ f.topology.isFetched id = false := by
  rw [fresh, List.mem_filter, decide_eq_true_iff]

/-- The first front has the shape of the second one, and the same nodes to fetch. -/
structure Trails (sure : NodeId → Prop) (f' f : Front) : Prop where
  shadows : f'.topology.Shadows f.topology sure
  ahead_eq : f'.ahead = f.fresh

end Front

/-- Two changes of the same shape lead to the same requests, but for those of fetched nodes, if what is
new to one of them is new to both. -/
theorem Change.asked_of_shadows {c' c : Change} {sure : NodeId → Prop} {waiting' waiting : List NodeId}
    (hwf : c.topology.WellFormed) (hshadows : c'.topology.Shadows c.topology sure)
    (hnew : ∀ x, c.topology.contains x = true → c.topology.isFetched x = false →
      x ≠ c.topology.localId → (x ∈ waiting' ∧ x ∈ waiting) ∨
        (x ∉ waiting' ∧ x ∉ waiting ∧ c'.diff ≠ ∅ ∧ c.diff ≠ ∅)) :
    c'.asked false waiting' =
      (c.asked true waiting).filter fun id => c.topology.isFetched id = false := by
  refine eq_of_ascending (c'.ascending_asked _ _) ((c.ascending_asked _ _).filter _) fun x => ?_
  rw [List.mem_filter, decide_eq_true_iff, mem_asked, mem_asked, hshadows.wellFormed.mem_wanted,
    hwf.mem_wanted, hshadows.contains_eq, hshadows.isFetched_eq, hshadows.localId_eq]
  constructor
  · rintro ⟨-, ⟨⟨hstored, hunfetched⟩ | ⟨hcosts, -⟩, hne⟩, hnot⟩
    · obtain ⟨hwaits, -⟩ | ⟨-, hnot', -, hd⟩ := hnew x hstored hunfetched hne
      · exact absurd hwaits hnot
      · exact ⟨⟨hd, ⟨.inl ⟨hstored, hunfetched⟩, hne⟩, hnot'⟩, hunfetched⟩
    · cases hcosts
  · rintro ⟨⟨-, ⟨hwanted, hne⟩, hnot⟩, hunfetched⟩
    have hstored : c.topology.contains x = true :=
      hwanted.elim And.left fun hcost => Topology.contains_iff_cost?.2 (by simp [hcost.2])
    obtain ⟨-, hwaits⟩ | ⟨hnot', -, hd, -⟩ := hnew x hstored hunfetched hne
    · exact absurd hwaits hnot
    · exact ⟨hd, ⟨.inl ⟨hstored, hunfetched⟩, hne⟩, hnot'⟩

namespace Front
variable {g : Mesh} {localId : NodeId} {sure : NodeId → Prop} {f f' : Front}

section Answer
variable (h : f.Sound g localId sure) (ht : Trails sure f' f) {id : NodeId} {rest : List NodeId}
  (hf : f.ahead = id :: rest)
include h ht hf

/-- **The answer of a node that is not fetched is the next one for both.** -/
theorem Trails.next_both (hg : g.WellFormed) (hlocal : g.contains localId = true)
    (honline : g.AllOnline) (hunfetched : f.topology.isFetched id = false) :
    Trails sure (f'.next g false) (f.next g true) := by
  have hgrows : ∀ r ∈ g.localView id, r.Grows := fun _ => Topology.grows_of_mem_localView
  have hwf := h.grounded.informed.faithful.wellFormed
  have haccrual := hwf.applyAll_accrual hgrows
  have haccrual' := ht.shadows.wellFormed.applyAll_accrual hgrows
  obtain ⟨htells, hfetched⟩ := h.answers hf hg hlocal honline
  have hnot : id ∉ rest := (List.nodup_cons.1 (hf ▸ h.nodup)).1
  have hlocalId : (f.topology.applyAll (g.localView id)).topology.localId = localId :=
    (hwf.localId_applyAll _).trans h.grounded.informed.localId_eq
  have hshadows := ht.shadows.applyAll hwf (g.localView id)
  have hmark : ∀ x ∈ rest, (f.topology.applyAll (g.localView id)).topology.isFetched x =
      f.topology.isFetched x := fun x hx =>
    (hwf.answer_others fun he : x = id => hnot (he ▸ hx)).1
  have hahead' : f'.ahead = id :: rest.filter fun x => f.topology.isFetched x = false := by
    rw [ht.ahead_eq, fresh, hf, List.filter_cons_of_pos (by simp [hunfetched])]
  rw [next_of_cons hahead', next_of_cons hf, ← hahead', ← hf]
  refine ⟨hshadows, ?_⟩
  rw [fresh]
  dsimp only
  rw [List.filter_append, Change.asked_of_shadows haccrual.wellFormed hshadows fun x hstored hx hne => ?_]
  · congr 1
    exact List.filter_congr fun x hx => by rw [hmark x hx]
  · rw [hlocalId] at hne
    by_cases hahead : x ∈ f.ahead
    · refine .inl ⟨?_, hahead⟩
      rw [ht.ahead_eq, mem_fresh, and_iff_right hahead]
      rw [hf] at hahead
      rcases List.mem_cons.1 hahead with rfl | hrest
      · exact hunfetched
      · exact hmark x hrest ▸ hx
    · have hnew := h.new_of_unfetched hf hx hne hahead
      have hahead' : x ∉ f'.ahead := fun hx' => hahead (mem_fresh.1 (ht.ahead_eq ▸ hx')).1
      refine .inr ⟨hahead', hahead, ?_, Topology.diff_ne_of_new haccrual.replay_eq hnew hstored⟩
      refine Topology.diff_ne_of_new haccrual'.replay_eq ?_ ((hshadows.contains_eq x).trans hstored)
      exact (ht.shadows.contains_eq x).trans hnew

/-- **The answer of a node that is fetched is a repetition**, and only the second one absorbs it. -/
theorem Trails.next_second (hfetched : f.topology.isFetched id = true) :
    Trails sure f' (f.next g true) := by
  have hwf := h.grounded.informed.faithful.wellFormed
  have hne : id ≠ localId := (h.stored id (hf ▸ List.mem_cons_self)).2
  have hcost := h.costless id (hf ▸ List.mem_cons_self) hfetched
  have hrepeats : f.topology.Shadows (f.topology.applyAll (g.localView id)).topology sure :=
    hwf.shadows_repeated hfetched fun _ hr => h.grounded.repeats hne hfetched hcost hr
  have hmark : ∀ x, (f.topology.applyAll (g.localView id)).topology.isFetched x =
      f.topology.isFetched x := fun x => (hrepeats.isFetched_eq x).symm
  have hnone : ((f.topology.applyAll (g.localView id)).asked true (id :: rest)).filter
      (fun x => (f.topology.applyAll (g.localView id)).topology.isFetched x = false) = [] := by
    refine List.eq_nil_iff_forall_not_mem.2 fun x hx => ?_
    obtain ⟨hasked, hx⟩ := List.mem_filter.1 hx
    obtain ⟨-, hwanted, hnot⟩ := Change.mem_asked.1 hasked
    have hwf' := (hwf.applyAll (g.localView id))
    have hstored := hwf'.contains_of_mem_wanted hwanted
    have hlocalId := ((hwf'.mem_wanted x).1 hwanted).2
    rw [hwf.localId_applyAll, h.grounded.informed.localId_eq] at hlocalId
    rw [← hrepeats.contains_eq, h.new_of_unfetched hf (of_decide_eq_true hx) hlocalId (hf ▸ hnot)]
      at hstored
    cases hstored
  rw [next_of_cons hf]
  refine ⟨ht.shadows.trans hrepeats, ?_⟩
  rw [ht.ahead_eq, fresh, fresh, hf, List.filter_append, hnone, List.append_nil,
    List.filter_cons_of_neg (by simp [hfetched])]
  exact List.filter_congr fun x _ => by rw [hmark x]

end Answer

/-- **One step of the second front is one step of the first, or none.** -/
theorem Trails.next (hg : g.WellFormed) (hlocal : g.contains localId = true) (honline : g.AllOnline)
    (h : f.Sound g localId sure) (ht : Trails sure f' f) :
    ∃ j, Trails sure ((Front.next g false)^[j] f') (f.next g true) := by
  cases hf : f.ahead with
  | nil => exact ⟨0, by rwa [next_of_nil hf]⟩
  | cons id rest =>
    cases hfetched : f.topology.isFetched id with
    | true => exact ⟨0, ht.next_second h hf hfetched⟩
    | false => exact ⟨1, ht.next_both h hf hg hlocal honline hfetched⟩

/-- **So are all steps.** -/
theorem Trails.iterate (hg : g.WellFormed) (hlocal : g.contains localId = true)
    (honline : g.AllOnline)
    (hsure : ∀ a, sure a → a ≠ localId → g.contains a = true → g.cost? a ≠ none)
    (h : f.Sound g localId sure) (ht : Trails sure f' f) (k : Nat) :
    ∃ j, Trails sure ((Front.next g false)^[j] f') ((Front.next g true)^[k] f) ∧
      ((Front.next g true)^[k] f).Sound g localId sure := by
  induction k with
  | zero => exact ⟨0, ht, h⟩
  | succ k ih =>
    obtain ⟨j, ht', h'⟩ := ih
    obtain ⟨i, hnext⟩ := ht'.next hg hlocal honline h'
    rw [← Function.iterate_add_apply] at hnext
    rw [Function.iterate_succ_apply']
    exact ⟨i + j, hnext, h'.next hg hlocal honline hsure⟩

end Front
end MeshView
