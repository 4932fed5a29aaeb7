/-
# Runs of a monitor

`Regular` holds of a monitor after anything that can happen to it, whatever is reported, whatever
is answered and however full the queue is (`Regular.run`).  Only what the answers are is a parameter:
`tells` says which answers a node may give.

While nothing reaches it from outside, a monitor does three things: it absorbs the next item, it
issues the next request, and the running request ends with the answer of its node (`Move`).  Any
interleaving of the two activities is a sequence of moves, and the monitor has come to rest exactly
where no move is left (`quiescent_iff`).  `Rests` says that it came there in some order, `Settles` that
it does in every order.
-/

import MeshView.Proofs.Monitor.Actions
import MeshView.Proofs.Topology.Fetched

namespace MeshView
namespace Monitor
variable {tells : NodeId → Answer → Prop} {localId : NodeId} {m : Monitor}

/-! ## Anything that can happen -/

/-- If the action ends the running request, the answer is one that its node may give. -/
def Admits (tells : NodeId → Answer → Prop) (m : Monitor) (a : Action) : Prop :=
  ∀ answer id, a = .finish answer → m.backfill.running = some id → tells id answer

/-- Every request that ends during the actions ends with an answer that its node may give. -/
def Answers (tells : NodeId → Answer → Prop) : Monitor → List Action → Prop
  | _, [] => True
  | m, a :: actions => m.Admits tells a ∧ Answers tells (m.perform a) actions

/-- What holds in every run: the topology is well-formed, what is under way is in order and does not
include the local node, and what is queued as fetched is the list that a node told. -/
structure Regular (tells : NodeId → Answer → Prop) (localId : NodeId) (m : Monitor) : Prop where
  wellFormed : m.topology.WellFormed
  localId_eq : m.topology.localId = localId
  holdersFetched : m.topology.HoldersFetched
  orderly : m.backfill.Orderly m.out
  asked : ∀ id ∈ m.backfill.waiting m.out, id ≠ localId
  arrived : ∀ d, Inbound.fetched d ∈ m.inbound →
    ∃ list, tells d.id (.ok list) ∧ d.reports = list.reports d.id

theorem regular_start (tells : NodeId → Answer → Prop) (localId : NodeId) (settings : Settings) :
    (start localId settings).Regular tells localId where
  wellFormed := Topology.wellFormed_root localId
  localId_eq := rfl
  holdersFetched := Topology.holdersFetched_root localId
  orderly := Backfill.orderly_idle _
  asked := nofun
  arrived := nofun

/-- **Every action keeps a monitor regular.** -/
theorem Regular.perform (h : m.Regular tells localId) {a : Action} (ha : m.Admits tells a) :
    (m.perform a).Regular tells localId := by
  have harrived : ∀ d, Inbound.fetched d ∈ (m.perform a).inbound →
      ∃ list, tells d.id (.ok list) ∧ d.reports = list.reports d.id := by
    intro d hd
    rcases mem_inbound_perform a hd with hd | ⟨list, rfl, hrunning, hreports⟩
    · exact h.arrived d hd
    · exact ⟨list, ha _ _ rfl hrunning, hreports⟩
  by_cases hpump : a = .pump
  · subst hpump
    cases hi : m.inbound with
    | nil =>
      have hsame : m.perform .pump = m := by
        show m.pump = m
        rw [pump, hi]
      rwa [hsame]
    | cons item rest =>
      obtain ⟨new, hpumped⟩ := exists_pumped h.orderly hi
      have hlocal := h.wellFormed.localId_applyAll item.reports
      have hwf : m.pump.topology.WellFormed := hpumped.topology_eq ▸ h.wellFormed.applyAll _
      refine ⟨hwf, ?_, ?_, hpumped.orderly, fun x hx => ?_, harrived⟩
      · exact (congrArg _ hpumped.topology_eq).trans (hlocal.trans h.localId_eq)
      · show m.pump.topology.HoldersFetched
        rw [hpumped.topology_eq]
        exact h.wellFormed.holdersFetched_applyAll h.holdersFetched _
      · rcases (hpumped.mem_waiting x).1 hx with ⟨hx, -⟩ | hx
        · exact h.asked x hx
        · have hcandidate := ((mem_candidates hwf x).1 (hpumped.sublist.subset hx)).2
          rwa [hpumped.topology_eq, hlocal, h.localId_eq] at hcandidate
  · have hpasses := Passes.perform h.orderly hpump
    have ht := hpasses.topology_eq
    exact ⟨ht ▸ h.wellFormed, ht ▸ h.localId_eq, ht ▸ h.holdersFetched, hpasses.orderly,
      fun x hx => h.asked x (hpasses.waiting_subset x hx), harrived⟩

/-- **Every run does.** -/
theorem Regular.run (h : m.Regular tells localId) {actions : List Action}
    (hactions : m.Answers tells actions) : (m.run actions).Regular tells localId := by
  induction actions generalizing m with
  | nil => exact h
  | cons a actions ih => exact ih (h.perform hactions.1) hactions.2

theorem Regular.fetchCosts_run (h : m.Regular tells localId) {actions : List Action}
    (hactions : m.Answers tells actions) : (m.run actions).fetchCosts = m.fetchCosts := by
  induction actions generalizing m with
  | nil => rfl
  | cons a actions ih =>
    exact (ih (h.perform hactions.1) hactions.2).trans (fetchCosts_perform h.orderly a)

/-- Any answers will do if nothing is said about them. -/
theorem answers_of_forall (htells : ∀ id answer, tells id answer) (m : Monitor)
    (actions : List Action) : m.Answers tells actions := by
  induction actions generalizing m with
  | nil => trivial
  | cons a actions ih => exact ⟨fun answer id _ _ => htells id answer, ih _⟩

/-! ## What a monitor does by itself -/

/-- One move of a monitor whose requests are answered by `answer`. -/
inductive Move (answer : NodeId → Answer) (m : Monitor) : Monitor → Prop
  /-- The next item is absorbed. -/
  | pump {item : Inbound} {rest : List Inbound} (hi : m.inbound = item :: rest) :
      Move answer m (m.perform .pump)
  /-- The next request is issued. -/
  | issue {id : NodeId} {rest : List NodeId} (hr : m.backfill.running = none)
      (hq : m.backfill.queue = id :: rest) : Move answer m (m.perform .issue)
  /-- The running request ends. -/
  | finish {id : NodeId} (hr : m.backfill.running = some id) :
      Move answer m (m.perform (.finish (answer id)))

/-- A number of moves, one after another. -/
inductive Moves (answer : NodeId → Answer) : Nat → Monitor → Monitor → Prop
  | refl (m : Monitor) : Moves answer 0 m m
  | step {k : Nat} {m m' m'' : Monitor} (h : Move answer m m') (h' : Moves answer k m' m'') :
      Moves answer (k + 1) m m''

/-- Nothing waits to be absorbed, nothing waits to be asked for, and no request runs. -/
def Quiescent (m : Monitor) : Prop :=
  m.inbound = [] ∧ m.backfill.queue = [] ∧ m.backfill.running = none

variable {answer : NodeId → Answer} {m' : Monitor}

/-- **A monitor rests exactly where no move is left.** -/
theorem quiescent_iff : m.Quiescent ↔ ∀ m', ¬ Move answer m m' := by
  constructor
  · rintro ⟨hi, hq, hr⟩ m' hmove
    cases hmove with
    | pump hi' => simp [hi] at hi'
    | issue hr' hq' => simp [hq] at hq'
    | finish hr' => simp [hr] at hr'
  · intro h
    have hr : m.backfill.running = none := by
      cases hr : m.backfill.running with
      | none => rfl
      | some id => exact absurd (.finish hr) (h _)
    refine ⟨?_, ?_, hr⟩
    · cases hi : m.inbound with
      | nil => rfl
      | cons item rest => exact absurd (.pump hi) (h _)
    · cases hq : m.backfill.queue with
      | nil => rfl
      | cons id rest => exact absurd (.issue hr hq) (h _)

/-- A move of a regular monitor leads to a regular one. -/
theorem Regular.move (h : m.Regular (fun id a => a = answer id) localId)
    (hmove : Move answer m m') : m'.Regular (fun id a => a = answer id) localId := by
  cases hmove with
  | pump hi => exact h.perform nofun
  | issue hr hq => exact h.perform nofun
  | finish hr =>
    refine h.perform fun a id ha hid => ?_
    cases ha
    rw [Option.some.inj (hr.symm.trans hid)]

/-- A move issues at most one request. -/
theorem Regular.issued_move (h : m.Regular (fun id a => a = answer id) localId)
    (hmove : Move answer m m') : m'.backfill.issued ≤ m.backfill.issued + 1 := by
  cases hmove with
  | pump hi =>
    obtain ⟨new, hpumped⟩ := exists_pumped h.orderly hi
    exact hpumped.issued_eq.le.trans (Nat.le_succ _)
  | issue hr hq =>
    show m.backfill.issue.issued ≤ _
    rw [(h.orderly.issue hr hq).1]
  | finish hr => exact (m.worker_finish _).2.2.le.trans (Nat.le_succ _)

/-- So moves issue at most as many requests as there are moves. -/
theorem Regular.issued_moves (h : m.Regular (fun id a => a = answer id) localId) {k : Nat}
    (hmoves : Moves answer k m m') : m'.backfill.issued ≤ m.backfill.issued + k := by
  induction hmoves with
  | refl => exact le_rfl
  | step hmove _ ih =>
    have hone := h.issued_move hmove
    have hrest := ih (h.move hmove)
    omega

/-- What every move keeps, any number of them keeps. -/
theorem Moves.keeps {P : Monitor → Prop} (hmove : ∀ m m', P m → Move answer m m' → P m') {k : Nat}
    (hmoves : Moves answer k m m') (h : P m) : P m' := by
  induction hmoves with
  | refl => exact h
  | step hfirst _ ih => exact ih (hmove _ _ h hfirst)

/-- One move more at the end. -/
theorem Moves.concat {k : Nat} {m'' : Monitor} (hmoves : Moves answer k m m')
    (hmove : Move answer m' m'') : Moves answer (k + 1) m m'' := by
  induction hmoves with
  | refl => exact .step hmove (.refl _)
  | step hfirst _ ih => exact .step hfirst (ih hmove)

/-! ## Coming to rest -/

/-- The monitor comes to rest by itself, in some order of its moves. -/
def Rests (answer : NodeId → Answer) (m m' : Monitor) : Prop :=
  (∃ k, Moves answer k m m') ∧ m'.Quiescent

/-- It does so in every order: there is a limit to the number of moves. -/
def Settles (answer : NodeId → Answer) (m : Monitor) : Prop :=
  ∃ limit, ∀ k m', Moves answer k m m' → k ≤ limit

theorem Rests.keeps {P : Monitor → Prop} (hmove : ∀ m m', P m → Move answer m m' → P m')
    (hrests : Rests answer m m') (h : P m) : P m' := by
  obtain ⟨⟨k, hmoves⟩, -⟩ := hrests
  exact hmoves.keeps hmove h

/-- A monitor at rest stays as it is. -/
theorem Quiescent.rests_iff (h : m.Quiescent) : Rests answer m m' ↔ m' = m := by
  constructor
  · rintro ⟨⟨k, hmoves⟩, -⟩
    cases hmoves with
    | refl => rfl
    | step hmove _ => exact absurd hmove (quiescent_iff.1 h _)
  · rintro rfl
    exact ⟨⟨0, .refl _⟩, h⟩

/-- Where only one move is possible, that one is made. -/
theorem Move.rests_iff {n : Monitor} (hmove : Move answer m n)
    (honly : ∀ m'', Move answer m m'' → m'' = n) : Rests answer m m' ↔ Rests answer n m' := by
  constructor
  · rintro ⟨⟨k, hmoves⟩, hrest⟩
    cases hmoves with
    | refl => exact absurd hmove (quiescent_iff.1 hrest _)
    | step hfirst hmoves => exact ⟨⟨_, honly _ hfirst ▸ hmoves⟩, hrest⟩
  · rintro ⟨⟨k, hmoves⟩, hrest⟩
    exact ⟨⟨k + 1, .step hmove hmoves⟩, hrest⟩

end Monitor
end MeshView
