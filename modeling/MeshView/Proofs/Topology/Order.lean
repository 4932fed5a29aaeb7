/-
# Reports in any order

A link goes to the end that reports it first, and what the other end reports of it later is not taken
over.  So the order of reports matters for who holds a link.  It matters for nothing else, as long as the
reports agree with each other: what is stored, known and fetched in the end, and which links there are at
what cost, can be said by which reports are in the list and what was there before them.  A node takes the
cost that is told of it (`WellFormed.cost?_run_iff`); a link that is stored stays with its holder and
takes the cost that the holder reports (`WellFormed.held?_run_iff`); a link that is new has the cost that
is reported from whichever end (`WellFormed.link?_run_iff`).  Two orders of the same reports therefore
give the same view, and they put a link into other hands only if it is new and both its ends report it
(`run_reports_perm`).
-/

import MeshView.Proofs.Topology.Settled

namespace MeshView

/-- The report stores the node if it is not stored yet. -/
def Report.Names (r : Report) (id : NodeId) : Prop :=
  match r with
  | .node x _ => x = id
  | .link a b _ => a = id ∨ b = id
  | _ => False

namespace Topology
variable {t : Topology} {reports reports' : List Report}

/-! ## What the reports make of a topology -/

theorem contains_apply (t : Topology) {r : Report} (hr : r.Grows) (id : NodeId) :
    (t.apply r).topology.contains id = true ↔ t.contains id = true ∨ r.Names id := by
  obtain ⟨x, cost, rfl⟩ | ⟨a, b, c, rfl⟩ := hr.node_or_link
  · exact (contains_reportNode t x cost id).trans or_comm
  · exact (contains_reportLink t a b c id).trans or_comm

/-- The reports store the nodes that they name. -/
theorem contains_run_iff (t : Topology) (hgrows : ∀ r ∈ reports, r.Grows) (id : NodeId) :
    (t.run reports).contains id = true ↔ t.contains id = true ∨ ∃ r ∈ reports, r.Names id := by
  induction reports generalizing t with
  | nil => exact (or_iff_left fun ⟨_, h, _⟩ => nomatch h).symm
  | cons r reports ih =>
    have hrest := ih (t.apply r).topology fun r' hr' => hgrows r' (List.mem_cons_of_mem _ hr')
    rw [run, applyAll, each_cons]
    show ((t.apply r).topology.run reports).contains id = true ↔ _
    rw [hrest, contains_apply t (hgrows r List.mem_cons_self), List.exists_mem_cons_iff, or_assoc]

/-- An entry that takes what is told of it and is kept if nothing is told. -/
theorem eq_some_iff_told {entry old : Option Cost} (Told : Cost → Prop)
    (htold : ∀ k, Told k → entry = some k) (hkept : (∀ k, ¬ Told k) → entry = old) (c : Cost) :
    entry = some c ↔ Told c ∨ (∀ k, ¬ Told k) ∧ old = some c := by
  by_cases hno : ∀ k, ¬ Told k
  · rw [hkept hno, or_iff_right (hno c), and_iff_right hno]
  · rw [or_iff_left fun hkeep => hno hkeep.1]
    refine ⟨fun hc => ?_, htold c⟩
    obtain ⟨k, hk⟩ := not_forall_not.1 hno
    cases hc.symm.trans (htold k hk)
    exact hk

section Run
variable (h : t.WellFormed)
include h

/-- What a node holds, it held before, or it reported it. -/
theorem WellFormed.of_held?_run (hgrows : ∀ r ∈ reports, r.Grows) {a b : NodeId} {c : Cost}
    (hab : (t.run reports).held? a b = some c) :
    .link a b c ∈ reports ∨ t.held? a b = some c := by
  refine (each_induction (P := fun t' => t'.WellFormed ∧
    (t'.held? a b = some c → .link a b c ∈ reports ∨ t.held? a b = some c)) Topology.apply t reports
    (fun t' r hr ht => ⟨(ht.1.apply_sound r).wellFormed, fun hab' => ?_⟩) ⟨h, .inr⟩).2 hab
  obtain ⟨x, cost, rfl⟩ | ⟨x, y, k, rfl⟩ := (hgrows r hr).node_or_link
  · exact ht.2 ((held?_reportNode t' x cost a b).symm.trans hab')
  · change (t'.reportLink x y k).topology.held? a b = some c at hab'
    rw [ht.1.held?_reportLink] at hab'
    split at hab'
    · rename_i hends
      obtain ⟨rfl, rfl, -⟩ := hends
      exact .inl (Option.some.inj hab' ▸ hr)
    · exact ht.2 hab'

/-- A link stays with its holder. -/
theorem WellFormed.held?_run_ne_none (hgrows : ∀ r ∈ reports, r.Grows) {a b : NodeId}
    (hab : t.held? a b ≠ none) : (t.run reports).held? a b ≠ none :=
  (each_induction (P := fun t' => t'.WellFormed ∧ t'.held? a b ≠ none) Topology.apply t reports
    (fun _ r hr ht => ⟨(ht.1.apply_sound r).wellFormed, ht.1.held?_apply_ne_none (hgrows r hr) ht.2⟩)
    ⟨h, hab⟩).2

variable (hreports : Report.Consistent reports)
include hreports

/-- **A node has the cost that is told, or else the one that it had.** -/
theorem WellFormed.cost?_run_iff (id : NodeId) (c : Cost) :
    (t.run reports).cost? id = some (some c) ↔ .node id (some c) ∈ reports ∨
      (∀ k, .node id (some k) ∉ reports) ∧ t.cost? id = some (some c) := by
  rw [← Option.join_eq_some_iff, ← Option.join_eq_some_iff]
  refine eq_some_iff_told (fun k => .node id (some k) ∈ reports) (fun k hk => ?_) (fun hno => ?_) c
  · rw [(h.reflects_run hreports _ hk).2 k rfl, Option.join_some]
  · exact join_cost?_applyAll t hreports.grows hno

/-- **A link that is stored takes the cost that its holder reports.**  What the other end reports makes
no difference. -/
theorem WellFormed.held?_run_iff {a b : NodeId} (hab : t.held? a b ≠ none) (c : Cost) :
    (t.run reports).held? a b = some c ↔ .link a b c ∈ reports ∨
      (∀ k, .link a b k ∉ reports) ∧ t.held? a b = some c := by
  have hstays := h.held?_run_ne_none hreports.grows hab
  have hne : a ≠ b := fun he => hab (he ▸ h.held?_self a)
  have hback : (t.run reports).held? b a = none := (h.run reports).held_once a b hstays
  refine eq_some_iff_told (fun k => .link a b k ∈ reports) (fun k hk => ?_) (fun hno => ?_) c
  · exact (h.reflects_run hreports _ hk).2.2 hne hback
  · obtain ⟨k, hk⟩ := Option.ne_none_iff_exists'.1 hstays
    exact hk.trans ((h.of_held?_run hreports.grows hk).resolve_left (hno k)).symm

/-- A new link has the cost that one end reports, also if the other end has reported it first. -/
theorem WellFormed.link?_run_of_mem {a b : NodeId} {c : Cost} (hnew : t.link? s(a, b) = none)
    (hne : a ≠ b) (hmem : .link a b c ∈ reports) : (t.run reports).link? s(a, b) = some c := by
  refine (h.run reports).link?_eq_some_iff.2 ?_
  cases hback : (t.run reports).held? b a with
  | none => exact .inl ((h.reflects_run hreports _ hmem).2.2 hne hback)
  | some k =>
    rcases h.of_held?_run hreports.grows hback with hmem' | hold
    · exact .inr (congrArg some (hreports.agrees _ hmem' _ hmem hne.symm Sym2.eq_swap))
    · cases (h.link?_eq_none_iff.1 hnew).2.symm.trans hold

/-- **A link that is new has the cost that is reported, from whichever end.** -/
theorem WellFormed.link?_run_iff {a b : NodeId} (hnew : t.link? s(a, b) = none) (c : Cost) :
    (t.run reports).link? s(a, b) = some c ↔
      a ≠ b ∧ (.link a b c ∈ reports ∨ .link b a c ∈ reports) := by
  have hwf := h.run reports
  obtain ⟨hab, hba⟩ := h.link?_eq_none_iff.1 hnew
  have hreported : ∀ {x y}, t.held? x y = none → (t.run reports).held? x y = some c →
      .link x y c ∈ reports := fun hnone hxy =>
    (h.of_held?_run hreports.grows hxy).resolve_right fun hold => nomatch hnone.symm.trans hold
  constructor
  · intro hc
    refine ⟨?_, (hwf.link?_eq_some_iff.1 hc).imp (hreported hab) (hreported hba)⟩
    rintro rfl
    rw [hwf.link?_eq_some_iff, hwf.held?_self, or_self_iff] at hc
    cases hc
  · rintro ⟨hne, hmem | hmem⟩
    · exact h.link?_run_of_mem hreports hnew hne hmem
    · rw [Sym2.eq_swap] at hnew ⊢
      exact h.link?_run_of_mem hreports hnew hne.symm hmem

end Run

/-! ## Two lists of the same reports -/

/-- What is stored and which costs are known says all about the costs. -/
theorem cost?_congr {t' : Topology} {id : NodeId} (hstored : t'.contains id = t.contains id)
    (hknown : ∀ c, t'.cost? id = some (some c) ↔ t.cost? id = some (some c)) :
    t'.cost? id = t.cost? id := by
  have hjoin : (t'.cost? id).join = (t.cost? id).join := by
    refine Option.ext fun c => ?_
    rw [Option.join_eq_some_iff, Option.join_eq_some_iff]
    exact hknown c
  cases hid : t.contains id with
  | false =>
    rw [cost?_of_not_contains hid, cost?_of_not_contains (hstored.trans hid)]
  | true =>
    obtain ⟨k, hk⟩ := Option.ne_none_iff_exists'.1 (contains_iff_cost?.1 hid)
    obtain ⟨k', hk'⟩ := Option.ne_none_iff_exists'.1 (contains_iff_cost?.1 (hstored.trans hid))
    rw [hk, hk', Option.join_some, Option.join_some] at hjoin
    rw [hk, hk', hjoin]

/-- Which nodes are marked depends on the reports and not on their order. -/
theorem isFetched_run_eq (t : Topology) (hgrows : ∀ r ∈ reports, r.Grows)
    (hsame : ∀ r, r ∈ reports' ↔ r ∈ reports) (id : NodeId) :
    (t.run reports').isFetched id = (t.run reports).isFetched id := by
  have hgrows' : ∀ r ∈ reports', r.Grows := fun r hr => hgrows r ((hsame r).1 hr)
  rw [Bool.eq_iff_iff, run, isFetched_applyAll t hgrows', run, isFetched_applyAll t hgrows]
  simp only [hsame]

section Same
variable (h : t.WellFormed) (hreports : Report.Consistent reports)
  (hreports' : Report.Consistent reports') (hsame : ∀ r, r ∈ reports' ↔ r ∈ reports)
include h hreports hreports' hsame

theorem WellFormed.cost?_run_eq (id : NodeId) :
    (t.run reports').cost? id = (t.run reports).cost? id := by
  refine cost?_congr ?_ fun c => ?_
  · rw [Bool.eq_iff_iff, contains_run_iff t hreports'.grows, contains_run_iff t hreports.grows]
    simp only [hsame]
  · rw [h.cost?_run_iff hreports', h.cost?_run_iff hreports]
    simp only [hsame]

/-- The entries for a link that was stored before. -/
theorem WellFormed.held?_run_eq {a b : NodeId} (hold : t.link? s(a, b) ≠ none) :
    (t.run reports').held? a b = (t.run reports).held? a b := by
  rw [ne_eq, h.link?_eq_none_iff, not_and_or] at hold
  rcases hold with hab | hba
  · refine Option.ext fun c => ?_
    rw [h.held?_run_iff hreports' hab, h.held?_run_iff hreports hab]
    simp only [hsame]
  · rw [(h.run reports).held_once b a (h.held?_run_ne_none hreports.grows hba),
      (h.run reports').held_once b a (h.held?_run_ne_none hreports'.grows hba)]

theorem WellFormed.link?_run_eq (a b : NodeId) :
    (t.run reports').link? s(a, b) = (t.run reports).link? s(a, b) := by
  by_cases hnew : t.link? s(a, b) = none
  · refine Option.ext fun c => ?_
    rw [h.link?_run_iff hreports' hnew, h.link?_run_iff hreports hnew]
    simp only [hsame]
  · have hback : t.link? s(b, a) ≠ none := Sym2.eq_swap (a := a) ▸ hnew
    rw [(h.run reports').link?_mk, (h.run reports').seen?_eq, (h.run reports).link?_mk,
      (h.run reports).seen?_eq, h.held?_run_eq hreports hreports' hsame hnew,
      h.held?_run_eq hreports hreports' hsame hback]

/-- If a node holds a link after the one list and not after the other, both ends have reported it. -/
theorem WellFormed.both_report {a b : NodeId} {c : Cost} (hc : (t.run reports).held? a b = some c)
    (hother : (t.run reports').held? a b ≠ some c) :
    t.link? s(a, b) = none ∧ .link a b c ∈ reports ∧ .link b a c ∈ reports := by
  have hnew : t.link? s(a, b) = none := by
    by_contra hold
    exact hother ((h.held?_run_eq hreports hreports' hsame hold).trans hc)
  obtain ⟨hab, hba⟩ := h.link?_eq_none_iff.1 hnew
  have hlink : (t.run reports').link? s(a, b) = some c :=
    (h.link?_run_eq hreports hreports' hsame a b).trans
      ((h.run reports).link?_eq_some_iff.2 (.inl hc))
  have hback : (t.run reports').held? b a = some c :=
    ((h.run reports').link?_eq_some_iff.1 hlink).resolve_left hother
  refine ⟨hnew, ?_, (hsame _).1 ?_⟩
  · exact (h.of_held?_run hreports.grows hc).resolve_right fun hold => nomatch hab.symm.trans hold
  · exact (h.of_held?_run hreports'.grows hback).resolve_right fun hold =>
      nomatch hba.symm.trans hold

end Same

/-- **The order of reports does not matter.**  Let consistent reports of nodes and links come in two
orders to any topology that can arise.  Then the same nodes are stored in the end, with the same costs
and the same marks, and the same undirected links with the same costs.  Only the holder of a link may
differ, and only if the link is new and both its ends report it. -/
theorem run_reports_perm (localId : NodeId) (history : List Report)
    (hreports : Report.Consistent reports) (horder : reports'.Perm reports) :
    let t := (root localId).run history
    let u := t.run reports
    let u' := t.run reports'
    u'.localId = u.localId ∧
    (∀ id, u'.cost? id = u.cost? id ∧ u'.isFetched id = u.isFetched id) ∧
    (∀ a b c, (b, c) ∈ u'.links a ↔ (b, c) ∈ u.links a) ∧
    ∀ a b, u'.held? a b ≠ u.held? a b ∨ u'.mirrored? b a ≠ u.mirrored? b a →
      t.link? s(a, b) = none ∧ ∃ c, .link a b c ∈ reports ∧ .link b a c ∈ reports := by
  intro t u u'
  have h : t.WellFormed := wellFormed_run localId history
  have hu : u.WellFormed := h.run reports
  have hu' : u'.WellFormed := h.run reports'
  have hsame : ∀ r, r ∈ reports' ↔ r ∈ reports := fun _ => horder.mem_iff
  have hreports' : Report.Consistent reports' := hreports.mono fun r => (hsame r).1
  refine ⟨?_, fun id => ⟨?_, ?_⟩, fun a b c => ?_, fun a b hdiffer => ?_⟩
  · exact (h.localId_applyAll reports').trans (h.localId_applyAll reports).symm
  · exact h.cost?_run_eq hreports hreports' hsame id
  · exact isFetched_run_eq t hreports.grows hsame id
  · rw [hu'.mem_links_iff_link?, hu.mem_links_iff_link?, h.link?_run_eq hreports hreports' hsame]
  · rw [hu'.mirrored_eq, hu.mirrored_eq, or_self_iff] at hdiffer
    cases hc : u.held? a b with
    | some c =>
      obtain ⟨hnew, hab, hba⟩ := h.both_report hreports hreports' hsame hc (hc ▸ hdiffer)
      exact ⟨hnew, c, hab, hba⟩
    | none =>
      obtain ⟨c, hc'⟩ := Option.ne_none_iff_exists'.1 (hc ▸ hdiffer)
      have hother : u.held? a b ≠ some c := fun hc' => nomatch hc.symm.trans hc'
      obtain ⟨hnew, hab, hba⟩ :=
        h.both_report hreports' hreports (fun r => (hsame r).symm) hc' hother
      exact ⟨hnew, c, (hsame _).1 hab, (hsame _).1 hba⟩

/-- A stored link of which both ends report another cost, and a new link that both ends report: its
holder is the end that comes first. -/
theorem run_reports_perm_reversed :
    let t := (root ⟨0⟩).run [.link ⟨0⟩ ⟨1⟩ ⟨5⟩]
    let reports : List Report := [.link ⟨1⟩ ⟨0⟩ ⟨6⟩, .link ⟨1⟩ ⟨2⟩ ⟨7⟩, .node ⟨2⟩ (some ⟨3⟩),
      .link ⟨2⟩ ⟨1⟩ ⟨7⟩, .link ⟨0⟩ ⟨1⟩ ⟨6⟩, .node ⟨2⟩ none]
    let u := t.run reports
    let u' := t.run reports.reverse
    Report.Consistent reports ∧ reports.reverse.Perm reports ∧
      (∀ id, u'.cost? id = u.cost? id ∧ u'.isFetched id = u.isFetched id) ∧
      (∀ a b c, (b, c) ∈ u'.links a ↔ (b, c) ∈ u.links a) ∧
      u.held? ⟨1⟩ ⟨2⟩ = some ⟨7⟩ ∧ u'.held? ⟨2⟩ ⟨1⟩ = some ⟨7⟩ := by
  intro t reports u u'
  have hreports : Report.Consistent reports :=
    ⟨by simp [reports, Report.Grows], by simp [reports, Report.Agrees]⟩
  have horder : reports.reverse.Perm reports := List.reverse_perm reports
  obtain ⟨-, hnodes, hlinks, -⟩ := run_reports_perm ⟨0⟩ [.link ⟨0⟩ ⟨1⟩ ⟨5⟩] hreports horder
  exact ⟨hreports, horder, hnodes, hlinks, by decide, by decide⟩

end Topology
end MeshView
