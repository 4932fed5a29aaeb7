/-
# The schedule comes to rest

The schedule of a monitor on an unchanging mesh is a sequence of moves: absorbing all that waits,
then steps of the worker, and so on.  So what every move preserves holds when it ends.  It ends at
rest if a measure of the topology bounds how often requests are made (`settle_rests_of_idle`): a step
of the worker reduces its load by one, so the worker is idle before its steps run out, and in a round
in which no request is made the worker has nothing to do, so no answer waits after it.
-/

import MeshView.Monitor.Settle
import MeshView.Proofs.Mesh.Links
import MeshView.Proofs.Monitor.Moves

namespace MeshView

/-- The steps that the worker can still take. -/
def Backfill.load (b : Backfill) : Nat := 2 * b.queue.length + b.running.toList.length

theorem Backfill.load_eq_zero_iff {b : Backfill} :
    b.load = 0 ↔ b.queue = [] ∧ b.running = none := by
  rw [load]
  cases b.queue <;> cases b.running <;> simp

theorem Backfill.load_le_workBound (b : Backfill) : b.load ≤ b.workBound := by
  rw [load, workBound]
  cases b.running <;> simp

namespace Monitor
variable {g e : Mesh} {m m' : Monitor}

theorem quiescent_of_load (hi : m.inbound = []) (hload : m.backfill.load = 0) : m.Quiescent :=
  ⟨hi, Backfill.load_eq_zero_iff.1 hload⟩

theorem load_issue {b : Backfill} {id : NodeId} {rest : List NodeId} (hr : b.running = none)
    (hq : b.queue = id :: rest) : b.issue.load + 1 = b.load := by
  have heq : b.issue = { b with queue := rest, running := some id, issued := b.issued + 1 } := by
    simp only [Backfill.issue, hr, hq]
  rw [heq, Backfill.load, Backfill.load, hr, hq, List.length_cons]
  show 2 * rest.length + 1 + 1 = 2 * (rest.length + 1) + 0
  omega

theorem load_finish (hr : m.backfill.running ≠ none) (answer : Answer) :
    (m.finish answer).backfill.load + 1 = m.backfill.load := by
  obtain ⟨hrunning, hqueue, -⟩ := m.worker_finish answer
  obtain ⟨id, hid⟩ := Option.ne_none_iff_exists'.1 hr
  rw [Backfill.load, Backfill.load, hrunning, hqueue, hid]
  rfl

/-- The answers of a mesh depend on its nodes only. -/
theorem answer_congr (he : e.sites = g.sites) : e.answer = g.answer := by
  cases e
  cases he
  rfl

/-- **A step of the worker is a move**, and only an idle worker takes none. -/
theorem workStep_move (m : Monitor) (he : e.sites = g.sites) :
    (m.backfill.load = 0 ∧ m.workStep Mesh.responder e = none) ∨
      ∃ m' e', m.workStep Mesh.responder e = some (m', e') ∧ e'.sites = g.sites ∧
        Move g.answer m m' ∧ m'.topology = m.topology ∧ m'.backfill.load + 1 = m.backfill.load := by
  cases hr : m.backfill.running with
  | none =>
    cases hq : m.backfill.queue with
    | nil =>
      refine .inl ⟨Backfill.load_eq_zero_iff.2 ⟨hq, hr⟩, ?_⟩
      simp only [Monitor.workStep, hr, hq, List.head?_nil, Option.map_none]
    | cons id rest =>
      refine .inr ⟨m.perform .issue, e.count, ?_, he, .issue hr hq, rfl, load_issue hr hq⟩
      simp only [Monitor.workStep, hr, hq, List.head?_cons, Option.map_some]
      rfl
  | some id =>
    refine .inr ⟨m.perform (.finish (g.answer id)), e, ?_, he, .finish hr,
      congrArg Feed.topology (m.feed_finish _), load_finish (by simp [hr]) _⟩
    simp only [Monitor.workStep, hr]
    show some (m.perform (.finish (e.answer id)), e) = _
    rw [answer_congr he]

/-- An idle worker does nothing. -/
theorem workFor_of_idle (hidle : m.backfill.load = 0) (steps : Nat) (e : Mesh) :
    m.workFor Mesh.responder steps e = (m, e) := by
  obtain ⟨hq, hr⟩ := Backfill.load_eq_zero_iff.1 hidle
  have hnone : m.workStep Mesh.responder e = none := by
    simp only [Monitor.workStep, hr, hq, List.head?_nil, Option.map_none]
  cases steps with
  | zero => rfl
  | succ steps => rw [workFor, hnone]

/-- If nothing waits and nothing is under way once what waited was absorbed, that was the last
round. -/
theorem settle_of_idle (hidle : m.pumpAll.backfill.load = 0) (hnil : m.pumpAll.inbound = [])
    (rounds : Nat) (e : Mesh) : m.settle Mesh.responder (rounds + 1) e = (m.pumpAll, e) := by
  have hround : m.round Mesh.responder e = (m.pumpAll, e) := workFor_of_idle hidle _ e
  simp only [Monitor.settle, hround, hnil, List.isEmpty_nil, if_true]

section Invariant
variable {P : Monitor → Prop} (hmove : ∀ m m', P m → Move g.answer m m' → P m')
include hmove

/-- **With enough steps the worker goes idle.** -/
theorem workFor_idle (steps : Nat) (h : P m) (he : e.sites = g.sites)
    (hsteps : m.backfill.load ≤ steps) : ∃ m' e', m.workFor Mesh.responder steps e = (m', e') ∧
      e'.sites = g.sites ∧ P m' ∧ m'.backfill.load = 0 ∧ m'.topology = m.topology := by
  induction steps generalizing m e with
  | zero => exact ⟨m, e, rfl, he, h, Nat.le_zero.1 hsteps, rfl⟩
  | succ steps ih =>
    rcases m.workStep_move he with ⟨hidle, hnone⟩ | ⟨m', e', hstep, he', hmoved, ht, hload⟩
    · exact ⟨m, e, by rw [Monitor.workFor, hnone], he, h, hidle, rfl⟩
    · obtain ⟨m'', e'', heq, he'', h'', hidle, ht'⟩ := ih (hmove m m' h hmoved) he' (by omega)
      refine ⟨m'', e'', ?_, he'', h'', hidle, ht'.trans ht⟩
      rw [Monitor.workFor, hstep]
      exact heq

/-- How absorbing an item lowers the measure, unless the worker is left alone. -/
def Lowers (μ : Topology → Nat) (m m' : Monitor) : Prop :=
  (m'.backfill.load = m.backfill.load ∧ μ m'.topology ≤ μ m.topology) ∨ μ m'.topology < μ m.topology

omit hmove in
theorem Lowers.trans {μ : Topology → Nat} {m'' : Monitor} (h : Lowers μ m m')
    (h' : Lowers μ m' m'') : Lowers μ m m'' := by
  rcases h with ⟨hload, hle⟩ | hlt
  · exact h'.imp (fun h' => ⟨h'.1.trans hload, h'.2.trans hle⟩) fun h' => h'.trans_le hle
  · exact .inr (h'.elim (fun h' => h'.2.trans_lt hlt) fun h' => h'.trans hlt)

/-- Everything that waits is absorbed. -/
theorem pumpAll_moves {μ : Topology → Nat}
    (hμ : ∀ m item rest, P m → m.inbound = item :: rest → Lowers μ m m.pump) (h : P m) :
    P m.pumpAll ∧ m.pumpAll.inbound = [] ∧ Lowers μ m m.pumpAll := by
  have hfold : ∀ (items : List Inbound) (m : Monitor), m.inbound = items → P m →
      P (items.foldl (fun m _ => m.perform .pump) m) ∧
        (items.foldl (fun m _ => m.perform .pump) m).inbound = [] ∧
        Lowers μ m (items.foldl (fun m _ => m.perform .pump) m) := by
    intro items
    induction items with
    | nil => exact fun m hi h => ⟨h, hi, .inl ⟨rfl, le_rfl⟩⟩
    | cons item items ih =>
      intro m hi h
      obtain ⟨hend, hnil, hlowers⟩ := ih m.pump (pump_eq hi).2.1 (hmove m _ h (.pump hi))
      exact ⟨hend, hnil, (hμ m item items h hi).trans hlowers⟩
  exact hfold m.inbound m rfl h

variable {μ : Topology → Nat}
  (hμ : ∀ m item rest, P m → m.inbound = item :: rest → Lowers μ m m.pump)
include hμ

/-- A round leaves the worker idle; if it was idle before, the round made progress or is the last. -/
theorem round_moves (h : P m) (he : e.sites = g.sites) :
    ∃ m' e', m.round Mesh.responder e = (m', e') ∧ e'.sites = g.sites ∧ P m' ∧
      m'.backfill.load = 0 ∧ μ m'.topology ≤ μ m.topology ∧
      (m.backfill.load = 0 → m'.inbound = [] ∨ μ m'.topology < μ m.topology) := by
  obtain ⟨hpumped, hnil, hlowers⟩ := pumpAll_moves hmove hμ h
  obtain ⟨m', e', heq, he', h', hidle, ht⟩ :=
    workFor_idle hmove m.pumpAll.backfill.workBound hpumped he (Backfill.load_le_workBound _)
  refine ⟨m', e', heq, he', h', hidle, ?_, fun hload => ?_⟩
  · rw [ht]
    exact hlowers.elim And.right le_of_lt
  · rw [ht]
    refine hlowers.imp_left fun hstays => ?_
    have hsame : m.round Mesh.responder e = (m.pumpAll, e) :=
      workFor_of_idle (hstays.1.trans hload) _ e
    rw [show m.round Mesh.responder e = (m', e') from heq] at hsame
    rw [(Prod.mk.inj hsame).1, hnil]

/-- **The schedule comes to rest**, from an idle worker within one round more than the measure. -/
theorem settle_rests_of_idle (rounds : Nat) (h : P m) (he : e.sites = g.sites)
    (hidle : m.backfill.load = 0) (hrounds : μ m.topology < rounds) :
    ∃ m' e', m.settle Mesh.responder rounds e = (m', e') ∧ e'.sites = g.sites ∧ P m' ∧
      m'.Quiescent := by
  induction rounds generalizing m e with
  | zero => omega
  | succ rounds ih =>
    obtain ⟨m', e', heq, he', h', hidle', -, hend⟩ := round_moves hmove hμ h he
    by_cases hnil : m'.inbound = []
    · refine ⟨m', e', ?_, he', h', quiescent_of_load hnil hidle'⟩
      simp only [Monitor.settle, heq, hnil, List.isEmpty_nil, if_true]
    · have hlt := (hend hidle).resolve_left hnil
      obtain ⟨m'', e'', heq', he'', h'', hrest⟩ := ih h' he' hidle' (by omega)
      refine ⟨m'', e'', ?_, he'', h'', hrest⟩
      simp only [Monitor.settle, heq, List.isEmpty_iff, hnil, if_false]
      exact heq'

/-- If only what waited was absorbed is known to keep the invariant, it takes one round more. -/
theorem settle_rests_of_pumpAll (rounds : Nat) (h : P m.pumpAll) (he : e.sites = g.sites)
    (hrounds : μ m.pumpAll.topology < rounds) :
    ∃ m' e', m.settle Mesh.responder (rounds + 1) e = (m', e') ∧ e'.sites = g.sites ∧ P m' ∧
      m'.Quiescent := by
  obtain ⟨m', e', heq, he', h', hidle, ht⟩ :=
    workFor_idle hmove m.pumpAll.backfill.workBound h he (Backfill.load_le_workBound _)
  have hround : m.round Mesh.responder e = (m', e') := heq
  by_cases hnil : m'.inbound = []
  · refine ⟨m', e', ?_, he', h', quiescent_of_load hnil hidle⟩
    simp only [Monitor.settle, hround, hnil, List.isEmpty_nil, if_true]
  · obtain ⟨m'', e'', heq', he'', h'', hrest⟩ :=
      settle_rests_of_idle hmove hμ rounds h' he' hidle (ht.symm ▸ hrounds)
    refine ⟨m'', e'', ?_, he'', h'', hrest⟩
    simp only [Monitor.settle, hround, List.isEmpty_iff, hnil, if_false]
    exact heq'

end Invariant

end Monitor
end MeshView
