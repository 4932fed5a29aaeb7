/-
# The books of a monitor at work

In the middle of a turn the queue no longer tells the whole story: an item may be in hand, and permits
may be on their way to senders or back.  `Engine.outline` is the monitor as its books see it: an item
that was taken but not applied still waits, one that was applied has been concluded, and a permit that
a sender has is a free one.

Steps of the pump between two items leave the outline alone but for what the books do not tell, applying
an item absorbs it, and a report that is queued pays with the permit of its sender.  So the books
balance after every step (`Books.perform`), and after every run (`Books.run`).
-/

import MeshView.Monitor.Engine
import MeshView.Proofs.Monitor.Ledger

namespace MeshView

namespace Pump

/-- The item that was taken and is not applied yet. -/
def unapplied : Pump → List Inbound
  | taken item => [item]
  | _ => []

/-- The item that was applied and is not concluded yet, and the differences that it made. -/
def concluding : Pump → Option (Inbound × Diff)
  | applied item d _ | publishing item d _ _ => some (item, d)
  | _ => none

/-- The permits that come back once the item has been concluded. -/
def permits (p : Pump) : Nat :=
  match p.concluding with
  | some (item, _) => if item.isExternal then 1 else 0
  | none => 0

/-- The replies that are sent once the item has been concluded. -/
def replies (p : Pump) : List (Nat × Diff) :=
  match p.concluding with
  | some (item, d) => (item.ticket?.map fun ticket => (ticket, d)).toList
  | none => []

theorem idle_eq {p : Pump} (h : p.item? = none) : p.unapplied = [] ∧ p.concluding = none := by
  cases p <;> first | exact ⟨rfl, rfl⟩ | cases h

end Pump

namespace Engine

/-- The items that a step puts into the queue. -/
def entered (e : Engine) : Step → List Inbound
  | .enqueue place => if e.monitor.isOpen then (e.held[place]?.map .external).toList else []
  | .submit r => e.monitor.entered (.submit r)
  | .finish answer => e.monitor.entered (.finish answer)
  | _ => []

/-- The item that a step applies. -/
def applied (e : Engine) : Step → List Inbound
  | .pump => e.pump.unapplied
  | _ => []

/-- The sends that a step ends, and whether they succeeded. -/
def answered (e : Engine) : Step → List (Report × Bool)
  | .offer r => if e.accepts then [] else [(r, false)]
  | .send r => if e.dropped then [(r, false)] else []
  | .resume place => if e.dropped then (e.handed[place]?.map (·, false)).toList else []
  | .enqueue place => (e.held[place]?.map (·, e.monitor.isOpen)).toList
  | .drop => e.line.map (·, false)
  | _ => []

/-- What a run shows, step by step. -/
def log {α : Type} (shows : Engine → Step → List α) (e : Engine) : List Step → List α
  | [] => []
  | a :: steps => shows e a ++ (e.perform a).log shows steps

theorem run_append (e : Engine) (steps more : List Step) :
    e.run (steps ++ more) = (e.run steps).run more := List.foldl_append

theorem log_append {α : Type} (shows : Engine → Step → List α) (e : Engine) (steps more : List Step) :
    e.log shows (steps ++ more) = e.log shows steps ++ (e.run steps).log shows more := by
  induction steps generalizing e with
  | nil => rfl
  | cons a steps ih =>
    rw [List.cons_append, log, ih, log, List.append_assoc]
    rfl

/-- The monitor as its books see it. -/
def outline (e : Engine) : Monitor :=
  { e.monitor with
    inbound := e.pump.unapplied ++ e.monitor.inbound
    permits := e.monitor.permits + e.handed.length + e.held.length + e.pump.permits
    replies := e.monitor.replies ++ e.pump.replies }

/-- The books of a run from the topology `t` with a buffer of `limit` places: `came` was queued and
`done` was applied. -/
structure Books (t : Topology) (limit : Nat) (came done : List Inbound) (e : Engine) : Prop where
  ledger : e.outline.Ledger t limit came done
  /-- Whoever waits, waits because no permit is free. -/
  line : e.line ≠ [] → e.dropped = false ∧ e.monitor.permits = 0
  alive : e.dropped = false → e.monitor.isOpen = true
  ended : e.monitor.isOpen = false → e.pump = .asleep

theorem books_start (localId : NodeId) (settings : Settings) :
    (start localId settings).Books (.root localId) (max settings.notificationBuffer 1) [] [] where
  ledger := Monitor.ledger_start localId settings
  line := fun hline => absurd rfl hline
  alive := fun _ => rfl
  ended := nofun

variable {e : Engine} {t : Topology} {limit : Nat} {came done : List Inbound}

/-! ## Permits on their way -/

/-- A permit that comes back is one more in the books, whoever gets it. -/
theorem outline_giveBack (e : Engine) :
    e.giveBack.outline = { e.outline with permits := e.outline.permits + 1 } := by
  rw [giveBack]
  split
  · simp only [outline]
    congr 1
    omega
  · simp only [outline, List.length_append, List.length_singleton]
    congr 1
    omega

theorem giveBack_eq (e : Engine) : e.giveBack.dropped = e.dropped ∧ e.giveBack.pump = e.pump ∧
    e.giveBack.monitor.isOpen = e.monitor.isOpen ∧ e.giveBack.held = e.held ∧
    (e.giveBack.line ≠ [] → e.line ≠ [] ∧ e.giveBack.monitor = e.monitor) := by
  rw [giveBack]
  split
  · rename_i hline
    exact ⟨rfl, rfl, rfl, rfl, fun h => absurd hline h⟩
  · rename_i hline
    exact ⟨rfl, rfl, rfl, rfl, fun _ => ⟨hline ▸ List.cons_ne_nil _ _, rfl⟩⟩

/-- The books do not see that a pump with nothing in hand goes to sleep. -/
theorem outline_asleep (hidle : e.pump.item? = none) :
    { e with pump := .asleep }.outline = e.outline := by
  obtain ⟨hunapplied, hconcluding⟩ := Pump.idle_eq hidle
  rw [outline, outline, Pump.permits, Pump.permits, Pump.replies, Pump.replies, hunapplied,
    hconcluding]
  rfl

theorem length_eraseIdx {place : Nat} {l : List Report} {r : Report} (h : l[place]? = some r) :
    (l.eraseIdx place).length + 1 = l.length := by
  obtain ⟨hplace, -⟩ := List.getElem?_eq_some_iff.1 h
  rw [List.length_eraseIdx_of_lt hplace]
  omega

section Steps
variable (h : e.Books t limit came done)
include h

/-- The books stay as they are, and so do the pump and the line. -/
theorem Books.still {e' : Engine} (hledger : e'.outline.Ledger t limit came done)
    (hline : e'.line ≠ [] → e.line ≠ []) (hpermits : e'.line ≠ [] → e'.monitor.permits = 0)
    (hdropped : e'.dropped = e.dropped) (hopen : e'.monitor.isOpen = e.monitor.isOpen)
    (hpump : e.pump = .asleep → e'.pump = .asleep) : e'.Books t limit came done where
  ledger := hledger
  line := fun hwaits => ⟨hdropped ▸ (h.line (hline hwaits)).1, hpermits hwaits⟩
  alive := fun halive => hopen ▸ h.alive (hdropped ▸ halive)
  ended := fun hended => hpump (h.ended (hopen ▸ hended))

/-- A permit that was on its way, or came back with an item, is given back. -/
theorem Books.giveBack {e' : Engine}
    (houtline : { e'.outline with permits := e'.outline.permits + 1 } = e.outline)
    (hmonitor : e'.monitor = e.monitor) (hline : e'.line = e.line)
    (hdropped : e'.dropped = e.dropped) (hpump : e.pump = .asleep → e'.pump = .asleep) :
    e'.giveBack.Books t limit came done := by
  obtain ⟨hdropped', hpump', hopen', -, hline'⟩ := e'.giveBack_eq
  refine h.still ?_ (fun hwaits => hline ▸ (hline' hwaits).1) (fun hwaits => ?_)
    (hdropped'.trans hdropped) (hopen'.trans (congrArg Monitor.isOpen hmonitor))
    fun hasleep => hpump'.trans (hpump hasleep)
  · rw [outline_giveBack, houtline]
    exact h.ledger
  · obtain ⟨hwaited, hsame⟩ := hline' hwaits
    rw [hsame, hmonitor]
    exact (h.line (hline ▸ hwaited)).2

/-! ## Senders -/

theorem Books.take (haccepts : e.accepts = true) (r : Report) :
    (e.take r).Books t limit came done := by
  obtain ⟨-, hfree⟩ := Bool.and_eq_true_iff.1 haccepts
  have hpositive : 0 < e.monitor.permits := of_decide_eq_true hfree
  refine h.still ?_ id (fun hwaits => ?_) rfl rfl id
  · refine h.ledger.still rfl rfl rfl rfl ?_ rfl
    show e.monitor.permits - 1 + e.handed.length + (e.held ++ [r]).length + e.pump.permits =
      e.monitor.permits + e.handed.length + e.held.length + e.pump.permits
    rw [List.length_append, List.length_singleton]
    omega
  · exact absurd (h.line hwaits).2 (Nat.ne_of_gt hpositive)

theorem Books.offer (r : Report) : (e.offer r).Books t limit came done := by
  rw [Engine.offer]
  split
  · rename_i haccepts
    exact h.take haccepts r
  · exact h

theorem Books.send (r : Report) : (e.send r).Books t limit came done := by
  rw [Engine.send]
  split
  · rename_i haccepts
    exact h.take haccepts r
  split
  · exact h
  -- no permit is free, so the sender may wait
  · rename_i hrefused hkept
    have hkept : e.dropped = false := Bool.eq_false_iff.2 hkept
    refine ⟨h.ledger, fun _ => ⟨hkept, ?_⟩, h.alive, h.ended⟩
    rw [accepts, hkept] at hrefused
    exact Nat.eq_zero_of_not_pos fun hfree => hrefused (by simpa using hfree)

theorem Books.resume (place : Nat) : (e.resume place).Books t limit came done := by
  rw [Engine.resume]
  cases hplace : e.handed[place]? with
  | none => exact h
  | some r =>
    have hlength := length_eraseIdx hplace
    dsimp only
    split
    · refine h.giveBack ?_ rfl rfl rfl id
      simp only [outline, ← hlength]
      congr 1
      omega
    · refine h.still ?_ id (fun hwaits => (h.line hwaits).2) rfl rfl id
      refine h.ledger.still rfl rfl rfl rfl ?_ rfl
      show e.monitor.permits + (e.handed.eraseIdx place).length + (e.held ++ [r]).length +
        e.pump.permits = e.monitor.permits + e.handed.length + e.held.length + e.pump.permits
      rw [List.length_append, List.length_singleton, ← hlength]
      omega

theorem Books.enqueue (place : Nat) :
    (e.enqueue place).Books t limit (came ++ e.entered (.enqueue place)) done := by
  rw [Engine.enqueue, entered]
  cases hplace : e.held[place]? with
  | none =>
    have hnothing : (if e.monitor.isOpen then
        ((none : Option Report).map Inbound.external).toList else []) = [] := ite_self _
    rw [hnothing, List.append_nil]
    exact h
  | some r =>
    have hlength := length_eraseIdx hplace
    dsimp only
    split
    · rename_i hopen
      refine ⟨?_, h.line, h.alive, h.ended⟩
      have hticket : (Inbound.external r).ticket? = none := rfl
      refine h.ledger.enqueue hticket hopen ?_ rfl rfl rfl ?_ hopen
      · exact (List.append_assoc _ _ _).symm
      · show e.monitor.permits + e.handed.length + (e.held.eraseIdx place).length +
          e.pump.permits + 1 = e.monitor.permits + e.handed.length + e.held.length + e.pump.permits
        omega
    · rw [List.append_nil]
      refine h.giveBack ?_ rfl rfl rfl id
      simp only [outline, ← hlength]
      congr 1
      omega

theorem Books.leave (place : Nat) : (e.leave place).Books t limit came done := by
  refine h.still h.ledger (fun hwaits hnone => hwaits ?_) (fun hwaits => ?_) rfl rfl id
  · rw [Engine.leave, hnone]
    rfl
  · refine (h.line fun hnone => hwaits ?_).2
    rw [Engine.leave, hnone]
    rfl

theorem Books.forgo (place : Nat) : (e.forgo place).Books t limit came done := by
  rw [Engine.forgo]
  cases hplace : e.handed[place]? with
  | none => exact h
  | some r =>
    have hlength := length_eraseIdx hplace
    refine h.giveBack ?_ rfl rfl rfl id
    simp only [outline, ← hlength]
    congr 1
    omega

/-! ## Pump -/

/-- Applying the item in hand absorbs it, as far as the books tell. -/
theorem Books.apply {item : Inbound} (hpump : e.pump = .taken item) :
    (e.apply item).Books t limit came (done ++ [item]) := by
  have hqueue : e.outline.inbound = item :: e.monitor.inbound := by
    rw [outline, hpump]
    rfl
  have habsorbed : e.outline.absorbed .pump = [item] := by
    rw [Monitor.absorbed, hqueue]
    rfl
  obtain ⟨-, hrest, htopology, -⟩ := Monitor.pump_eq hqueue
  obtain ⟨hreplies, hticket⟩ := Monitor.pump_replies hqueue
  have hpermits := Monitor.pump_permits hqueue
  have hdone := h.ledger.pump
  rw [habsorbed] at hdone
  -- whatever is left to publish, the item is the one that is being concluded
  have hconcluding : (e.apply item).pump.concluding =
      some (item, (e.monitor.topology.applyAll item.reports).diff) ∧
      (e.apply item).pump.unapplied = [] := by
    rw [Engine.apply]
    dsimp only
    split <;> exact ⟨rfl, rfl⟩
  refine ⟨?_, h.line, h.alive, fun hended => ?_⟩
  · refine hdone.still ?_ ?_ ?_ ?_ ?_ e.outline.isOpen_pump.symm
    · rw [hrest, outline, hconcluding.2]
      rfl
    · exact htopology.symm
    · rw [hreplies, outline, outline, Pump.replies, Pump.replies, hconcluding.1, hpump]
      simp only [Pump.concluding, List.append_nil]
      rfl
    · exact hticket.symm
    · rw [hpermits, outline, outline, Pump.permits, Pump.permits, hconcluding.1, hpump]
      rfl
  · cases hpump.symm.trans (h.ended hended)

/-- Once an item has been concluded, nothing of it is left to tell. -/
theorem Books.conclude {item : Inbound} {d : Diff} (hpump : e.pump = .publishing item d [] []) :
    ({ e with pump := .awake }.conclude item d).Books t limit came done := by
  have hrunning : e.pump ≠ .asleep := by
    rw [hpump]
    exact nofun
  have hledger := h.ledger
  cases item with
  | external r =>
    refine h.giveBack ?_ rfl rfl rfl fun hasleep => absurd hasleep hrunning
    simp only [outline, hpump, Pump.permits, Pump.concluding, Pump.replies, Pump.unapplied]
    rfl
  | submitted ticket r =>
    refine h.still ?_ id (fun hwaits => (h.line hwaits).2) rfl rfl fun hasleep =>
      absurd hasleep hrunning
    refine hledger.still ?_ rfl ?_ rfl ?_ rfl
    · rw [outline, outline, hpump]
      rfl
    · rw [outline, outline, hpump]
      exact List.append_nil _
    · rw [outline, outline, hpump]
      rfl
  | fetched delivery =>
    refine h.still ?_ id (fun hwaits => (h.line hwaits).2) rfl rfl fun hasleep =>
      absurd hasleep hrunning
    refine hledger.still ?_ rfl ?_ rfl ?_ rfl
    · rw [outline, outline, hpump]
      rfl
    · rw [outline, outline, hpump]
      rfl
    · rw [outline, outline, hpump]
      rfl

/-- The pump goes on without changing what the books tell. -/
theorem Books.goOn {m : Monitor} {p : Pump} (hrunning : e.pump ≠ .asleep)
    (hqueue : p.unapplied ++ m.inbound = e.pump.unapplied ++ e.monitor.inbound)
    (hconcluding : p.concluding = e.pump.concluding)
    (hsame : m = { e.monitor with
      inbound := m.inbound, messages := m.messages, backfill := m.backfill }) :
    { e with monitor := m, pump := p }.Books t limit came done := by
  have hpermits : p.permits = e.pump.permits := by rw [Pump.permits, Pump.permits, hconcluding]
  have hreplies : p.replies = e.pump.replies := by rw [Pump.replies, Pump.replies, hconcluding]
  refine h.still ?_ id (fun hwaits => ?_) rfl ?_ fun hasleep => absurd hasleep hrunning
  · refine h.ledger.still hqueue ?_ ?_ ?_ ?_ ?_ <;> rw [outline, outline, hsame]
    · rw [hreplies]
    · rw [hpermits]
  · rw [hsame]
    exact (h.line hwaits).2
  · rw [hsame]

theorem Books.advance : e.advance.Books t limit came (done ++ e.applied .pump) := by
  have hstill : ∀ {e' : Engine}, e.pump.unapplied = [] → e'.Books t limit came done →
      e'.Books t limit came (done ++ e.applied .pump) := by
    intro e' hnothing h'
    rw [applied, hnothing, List.append_nil]
    exact h'
  rw [Engine.advance]
  split
  case h_1 hpump => exact hstill (hpump ▸ rfl) h
  case h_2 hpump =>
    refine hstill (hpump ▸ rfl) ?_
    split
    · exact h
    · rename_i item rest hqueue
      refine h.goOn (by rw [hpump]; exact nofun) ?_ (by rw [hpump]; rfl) rfl
      rw [hpump, hqueue]
      rfl
  case h_3 item hpump =>
    have happlied : e.applied .pump = [item] := by
      rw [applied, hpump]
      rfl
    rw [happlied]
    exact h.apply hpump
  case h_7 item d hpump => exact hstill (hpump ▸ rfl) (h.conclude hpump)
  -- the item stays in hand
  all_goals
    rename_i hpump
    refine hstill (hpump ▸ rfl) (h.goOn ?_ ?_ ?_ rfl) <;> rw [hpump]
    · exact nofun
    · rfl
    · rfl

/-- What still waits when the pump ends is lost. -/
theorem Books.close (hdropped : e.dropped = true) (hidle : e.pump.item? = none) :
    { e with monitor := e.monitor.close, pump := .asleep }.Books t limit came done := by
  have hasleep := outline_asleep hidle
  have hclosed := (hasleep ▸ h.ledger).close
  obtain ⟨hinbound, htopology, -, hpermits, hreplies, hticket, hopen⟩ := e.monitor.close_eq
  obtain ⟨hinbound', htopology', -, hpermits', hreplies', hticket', hopen'⟩ :=
    { e with pump := .asleep }.outline.close_eq
  refine ⟨hclosed.still ?_ ?_ ?_ ?_ ?_ ?_, fun hwaits => ?_, fun hkept => ?_, fun _ => rfl⟩
  · exact hinbound.trans hinbound'.symm
  · exact htopology.trans htopology'.symm
  · rw [hreplies']
    show e.monitor.close.replies ++ [] = e.monitor.replies ++ [] ++ _
    rw [hreplies, List.append_nil, List.append_nil]
    rfl
  · exact hticket.trans hticket'.symm
  · rw [hpermits']
    show e.monitor.close.permits + e.handed.length + e.held.length + 0 =
      e.monitor.permits + e.handed.length + e.held.length + 0 +
        e.monitor.inbound.countP Inbound.isExternal
    rw [hpermits]
    omega
  · exact hopen.trans hopen'.symm
  · exact Bool.noConfusion (hdropped.symm.trans (h.line hwaits).1)
  · exact Bool.noConfusion (hdropped.symm.trans hkept)

theorem Books.yield : e.yield.Books t limit came done := by
  rw [Engine.yield]
  split
  · exact h
  rename_i hidle
  split
  · rename_i hdropped
    exact h.close hdropped hidle
  · refine h.still ?_ id (fun hwaits => (h.line hwaits).2) rfl rfl fun _ => rfl
    rw [outline_asleep hidle]
    exact h.ledger

/-! ## Any step -/

/-- What an action of the monitor changes besides the permits does not show while it is open. -/
theorem Books.of_monitor {m : Monitor} {came' : List Inbound}
    (hledger : { e with monitor := m }.outline.Ledger t limit came' done)
    (hpermits : m.permits = e.monitor.permits) (hopen : m.isOpen = e.monitor.isOpen) :
    { e with monitor := m }.Books t limit came' done where
  ledger := hledger
  line := fun hwaits => ⟨(h.line hwaits).1, hpermits.trans (h.line hwaits).2⟩
  alive := fun hkept => hopen.trans (h.alive hkept)
  ended := fun hended => h.ended (hopen.symm.trans hended)

theorem Books.submit (r : Report) : { e with monitor := e.monitor.submit r }.Books t limit
    (came ++ e.entered (.submit r)) done := by
  have hledger := h.ledger.submit r
  rw [entered, Monitor.entered, Monitor.submit]
  rw [Monitor.entered, Monitor.submit] at hledger
  by_cases hopen : e.monitor.isOpen = true
  · have hopen' : e.outline.isOpen = true := hopen
    rw [if_pos hopen, if_pos hopen]
    rw [if_pos hopen', if_pos hopen'] at hledger
    refine h.of_monitor (hledger.still ?_ rfl rfl rfl rfl rfl) rfl rfl
    exact (List.append_assoc _ _ _).symm
  -- the pump has ended, so no other reply is under way
  · have hopen' : ¬ e.outline.isOpen = true := hopen
    have hpump := h.ended (Bool.eq_false_iff.2 hopen)
    rw [if_neg hopen, if_neg hopen]
    rw [if_neg hopen', if_neg hopen'] at hledger
    refine h.of_monitor (hledger.still rfl rfl ?_ rfl rfl rfl) rfl rfl
    rw [outline, outline, hpump]
    simp [Pump.replies, Pump.concluding]

theorem Books.finish (answer : Answer) : { e with monitor := e.monitor.finish answer }.Books t limit
    (came ++ e.entered (.finish answer)) done := by
  obtain ⟨backfill, heq⟩ := e.monitor.finish_eq answer
  obtain ⟨backfill', heq'⟩ := e.outline.finish_eq answer
  have hledger := h.ledger.finish answer
  rw [heq'] at hledger
  rw [heq]
  refine h.of_monitor (hledger.still ?_ rfl rfl rfl rfl rfl) rfl rfl
  exact (List.append_assoc _ _ _).symm

/-- Nothing changes but what the books do not tell. -/
theorem Books.aside {m : Monitor} (hinbound : m.inbound = e.monitor.inbound)
    (htopology : m.topology = e.monitor.topology) (hreplies : m.replies = e.monitor.replies)
    (hticket : m.nextTicket = e.monitor.nextTicket) (hpermits : m.permits = e.monitor.permits)
    (hopen : m.isOpen = e.monitor.isOpen) : { e with monitor := m }.Books t limit came done := by
  refine h.of_monitor (h.ledger.still ?_ htopology ?_ hticket ?_ hopen) hpermits hopen
  · rw [outline, outline, hinbound]
  · rw [outline, outline, hreplies]
  · rw [outline, outline, hpermits]

/-- **Every step keeps the books.** -/
theorem Books.perform (a : Step) :
    (e.perform a).Books t limit (came ++ e.entered a) (done ++ e.applied a) := by
  have hsilent : ∀ {e' : Engine}, e'.Books t limit came done →
      e'.Books t limit (came ++ []) (done ++ []) := by
    intro e' h'
    rwa [List.append_nil, List.append_nil]
  cases a with
  | offer r => exact hsilent (h.offer r)
  | send r => exact hsilent (h.send r)
  | resume place => exact hsilent (h.resume place)
  | enqueue place => exact (List.append_nil done).symm ▸ h.enqueue place
  | leave place => exact hsilent (h.leave place)
  | forgo place => exact hsilent (h.forgo place)
  | submit r => exact (List.append_nil done).symm ▸ h.submit r
  | subscribe =>
    refine hsilent ?_
    rw [Engine.perform, Monitor.subscribe]
    split
    · exact h
    · split
      · exact h.aside rfl rfl rfl rfl rfl rfl
      · exact h
  | unsubscribe s => exact hsilent (h.aside rfl rfl rfl rfl rfl rfl)
  | wake =>
    refine hsilent ?_
    rw [Engine.perform]
    split
    · rename_i hwoken
      obtain ⟨hkept, hasleep⟩ : e.dropped = false ∧ e.pump = .asleep := by simpa using hwoken
      have houtline : e.outline = { e with pump := .awake }.outline := by
        rw [outline, outline, hasleep]
        rfl
      refine ⟨houtline ▸ h.ledger, h.line, h.alive, fun hended => ?_⟩
      exact Bool.noConfusion (hended.symm.trans (h.alive hkept))
    · exact h
  | pump => exact (List.append_nil came).symm ▸ h.advance
  | yield => exact hsilent h.yield
  | issue => exact hsilent (h.aside rfl rfl rfl rfl rfl rfl)
  | finish answer => exact (List.append_nil done).symm ▸ h.finish answer
  | drop =>
    exact hsilent ⟨h.ledger, fun hwaits => absurd rfl hwaits, fun hkept => Bool.noConfusion hkept,
      h.ended⟩

/-- **So every run does.** -/
theorem Books.run (steps : List Step) : (e.run steps).Books t limit (came ++ e.log entered steps)
    (done ++ e.log applied steps) := by
  induction steps generalizing e came done with
  | nil =>
    rw [log, log, List.append_nil, List.append_nil]
    exact h
  | cons a steps ih =>
    rw [log, log, ← List.append_assoc, ← List.append_assoc]
    exact ih (h.perform a)

end Steps

end Engine
end MeshView
