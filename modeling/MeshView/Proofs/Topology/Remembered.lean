/-
# What a topology remembers

Of a history a topology keeps little.  What it shows of a node was told since the node was last stored:
whether the node has reported a link, and the last cost that was told.  The removal of a node, or its
pruning after the removal of another one, ends what was told of it, and a later report that stores it
starts anew.  What a topology shows of a link goes back to the report that made it, the first one of the
pair after the link was last taken apart: the end that made that report holds the link, and only what
this end reports of its cost counts.

`Since` cuts a history where a property last came to hold, and `exists_since` is the induction: what the
report that brings the property establishes, and every later one keeps up, is true at the end.
`run_remembers` applies it to nodes that are stored, to pairs that are linked, and to pairs that are not.
-/

import MeshView.Proofs.Latest
import MeshView.Proofs.Topology.Connected
import MeshView.Proofs.Topology.Fetched

namespace MeshView

namespace Report

/-- The cost that the report tells of a node. -/
def nodeCost? (id : NodeId) : Report → Option Cost
  | .node x cost => if x = id then cost else none
  | _ => none

/-- The cost that `a` reports of its link to `b`. -/
def linkCost? (a b : NodeId) : Report → Option Cost
  | .link x y cost => if x = a ∧ y = b then some cost else none
  | _ => none

/-- The report is of a link between the two, from either end. -/
def Joins (r : Report) (a b : NodeId) : Prop :=
  match r with
  | .link x y _ => s(x, y) = s(a, b)
  | _ => False

end Report

namespace Topology

/-- The recent reports are those since the property last came to hold, the one that brought it included:
it holds after each of them and did not before, unless the history begins with them. -/
structure Since (P : Topology → Prop) (start : Topology) (earlier recent : List Report) : Prop where
  began : earlier = [] ∨ ¬ P (start.run earlier)
  holds : ∀ told, told ≠ [] → told <+: recent → P (start.run (earlier ++ told))

section Since
variable {P : Topology → Prop} {start : Topology} {earlier recent : List Report}

theorem since_nil (P : Topology → Prop) (start : Topology) : Since P start [] [] :=
  ⟨.inl rfl, fun _ hne hp => absurd (List.prefix_nil.1 hp) hne⟩

/-- The last report brings the property. -/
theorem since_singleton {r : Report} (hbefore : ¬ P (start.run earlier))
    (hafter : P (start.run (earlier ++ [r]))) : Since P start earlier [r] where
  began := .inr hbefore
  holds told hne hp := by
    rcases List.prefix_cons_iff.1 hp with rfl | ⟨rest, rfl, hrest⟩
    · exact absurd rfl hne
    · rwa [List.prefix_nil.1 hrest]

/-- One more report leaves it. -/
theorem Since.concat (h : Since P start earlier recent) {r : Report}
    (hafter : P (start.run (earlier ++ (recent ++ [r])))) : Since P start earlier (recent ++ [r]) where
  began := h.began
  holds told hne hp := by
    rcases List.prefix_concat_iff.1 hp with rfl | hp
    · exact hafter
    · exact h.holds told hne hp

/-- **What was told since.**  A property that holds at the end came to hold at some time and held from
then on; and what is true of the first report of that time, and remains so with every further one, is true
of all of them. -/
theorem exists_since {Q : List Report → Topology → Prop} (hwf : start.WellFormed)
    (hstart : P start → Q [] start)
    (hbegin : ∀ (t : Topology) (r : Report), t.WellFormed → ¬ P t → P (t.apply r).topology →
      Q [r] (t.apply r).topology)
    (hstays : ∀ (t : Topology) (recent : List Report) (r : Report), t.WellFormed → P t → Q recent t →
      P (t.apply r).topology → Q (recent ++ [r]) (t.apply r).topology)
    {history : List Report} (hend : P (start.run history)) :
    ∃ earlier recent, history = earlier ++ recent ∧ Since P start earlier recent ∧
      Q recent (start.run history) := by
  induction history using List.reverseRecOn with
  | nil => exact ⟨[], [], rfl, since_nil P start, hstart hend⟩
  | append_singleton history r ih =>
    have hstep := run_append_one start history r
    have hafter := hend
    rw [hstep] at hafter
    by_cases hbefore : P (start.run history)
    · obtain ⟨earlier, recent, rfl, hsince, hQ⟩ := ih hbefore
      rw [List.append_assoc] at hend
      refine ⟨earlier, recent ++ [r], List.append_assoc .., hsince.concat hend, ?_⟩
      rw [hstep]
      exact hstays _ recent r (hwf.run _) hbefore hQ hafter
    · refine ⟨history, [r], rfl, since_singleton hbefore hend, ?_⟩
      rw [hstep]
      exact hbegin _ r (hwf.run _) hbefore hafter

end Since

variable {t : Topology} {r : Report}

/-! ## What one report tells of a node -/

section Node
variable {x : NodeId}

/-- A node that is stored is marked if it was, or if it reports a link now. -/
theorem WellFormed.isFetched_apply_iff (h : t.WellFormed)
    (hstored : (t.apply r).topology.contains x = true) :
    (t.apply r).topology.isFetched x = true ↔ t.isFetched x = true ∨ r.Fetches x := by
  cases r with
  | node id cost => exact isFetched_apply t (r := .node id cost) trivial x
  | link a b cost => exact isFetched_apply t (r := .link a b cost) trivial x
  | nodeGone id =>
    show (t.dropNode id).topology.isFetched x = true ↔ _
    rw [(h.dropNode_remainder id).isFetched_eq x hstored]
    exact (or_iff_left fun hf => hf).symm
  | linkGone a b =>
    show (t.dropLink a b).topology.isFetched x = true ↔ _
    rw [(h.dropLink_remainder a b).isFetched_eq x hstored]
    exact (or_iff_left fun hf => hf).symm

/-- It has the cost that is told now, or else the one that it had. -/
theorem WellFormed.cost?_apply (h : t.WellFormed)
    (hstored : (t.apply r).topology.contains x = true) :
    (t.apply r).topology.cost? x = some ((r.nodeCost? x).or (t.cost? x).join) := by
  have hkept : (t.apply r).topology.cost? x = t.cost? x →
      (t.apply r).topology.cost? x = some (t.cost? x).join := by
    intro hsame
    obtain ⟨k, hk⟩ := Option.ne_none_iff_exists'.1 (contains_iff_cost?.1 hstored)
    rw [← hsame, hk, Option.join_some]
  cases r with
  | node id cost =>
    by_cases hid : id = x
    · rw [Report.nodeCost?, if_pos hid]
      show (t.reportNode id cost).topology.cost? x = _
      rw [cost?_reportNode, if_pos hid]
    · rw [Report.nodeCost?, if_neg hid]
      refine hkept ?_
      show (t.reportNode id cost).topology.cost? x = _
      rw [cost?_reportNode, if_neg hid]
  | link a b cost =>
    show (t.reportLink a b cost).topology.cost? x = some (t.cost? x).join
    by_cases hends : a = x ∨ b = x
    · rw [cost?_reportLink, if_pos hends]
    · refine hkept ?_
      show (t.reportLink a b cost).topology.cost? x = _
      rw [cost?_reportLink, if_neg hends]
  | nodeGone id => exact hkept ((h.dropNode_remainder id).cost?_eq x hstored)
  | linkGone a b => exact hkept ((h.dropLink_remainder a b).cost?_eq x hstored)

/-- The topology shows of the node what the reports told of it, and no more. -/
structure Recalls (t : Topology) (x : NodeId) (reports : List Report) : Prop where
  isFetched_iff : t.isFetched x = true ↔ ∃ r ∈ reports, r.Fetches x
  cost?_eq : t.cost? x = some (latest (Report.nodeCost? x) reports)

theorem recalls_root {localId : NodeId} (hx : (root localId).contains x = true) :
    (root localId).Recalls x [] := by
  have hx : localId = x := contains_root_iff.1 hx
  refine ⟨?_, ?_⟩
  · rw [isFetched, vertex?_root, if_pos hx]
    refine iff_of_false Bool.false_ne_true ?_
    rintro ⟨_, hr, -⟩
    exact List.not_mem_nil hr
  · rw [cost?, vertex?_root, if_pos hx]
    rfl

/-- Nothing is left of what was told before the node was stored. -/
theorem WellFormed.recalls_new (h : t.WellFormed) (hnew : ¬ t.contains x = true)
    (hstored : (t.apply r).topology.contains x = true) : (t.apply r).topology.Recalls x [r] := by
  have hnew : t.contains x = false := Bool.eq_false_iff.2 hnew
  refine ⟨?_, ?_⟩
  · rw [h.isFetched_apply_iff hstored, isFetched_of_not_contains hnew, List.exists_mem_cons_iff]
    simp
  · rw [h.cost?_apply hstored, cost?_of_not_contains hnew, Option.join_none, Option.or_none,
      latest_singleton]

/-- Nothing is forgotten of what was told while the node is stored. -/
theorem WellFormed.recalls_apply (h : t.WellFormed) {reports : List Report}
    (ht : t.Recalls x reports) (hstored : (t.apply r).topology.contains x = true) :
    (t.apply r).topology.Recalls x (reports ++ [r]) := by
  refine ⟨?_, ?_⟩
  · rw [h.isFetched_apply_iff hstored, ht.isFetched_iff]
    simp only [List.mem_append, List.mem_singleton, or_and_right, exists_or, exists_eq_left]
  · rw [h.cost?_apply hstored, ht.cost?_eq, Option.join_some, latest_concat]

end Node

/-! ## What one report tells of a link -/

section Link
variable {a b : NodeId}

/-- A removal links nothing. -/
theorem Removal.linked_of_linked {c : Change} (h : t.WellFormed) (hc : Removal t c)
    (hlinked : c.topology.Linked a b) : t.Linked a b := by
  rcases hc.link?_eq h s(a, b) with hgone | hsame
  · exact absurd hgone hlinked
  · exact fun hnone => hlinked (hsame.trans hnone)

/-- A link that appears was reported just now, and the end that reported it holds it. -/
theorem WellFormed.exists_link_of_new (h : t.WellFormed) (hnew : ¬ t.Linked a b)
    (hlinked : (t.apply r).topology.Linked a b) : ∃ source target cost,
      r = .link source target cost ∧ s(source, target) = s(a, b) ∧
      (t.apply r).topology.held? source target = some cost := by
  cases r with
  | node id cost =>
    rw [Linked] at hlinked
    change (t.reportNode id cost).topology.link? s(a, b) ≠ none at hlinked
    rw [h.link?_reportNode] at hlinked
    exact absurd hlinked hnew
  | link source target cost =>
    obtain ⟨hends, hne⟩ := ((h.linked_reportLink source target cost a b).1 hlinked).resolve_left hnew
    have hback : t.held? target source = none := by
      rw [Linked, not_not, ← hends, h.link?_eq_none_iff] at hnew
      exact hnew.2
    refine ⟨source, target, cost, rfl, hends, ?_⟩
    show (t.reportLink source target cost).topology.held? source target = _
    rw [h.held?_reportLink, if_pos ⟨rfl, rfl, hne, hback⟩]
  | nodeGone id => exact absurd ((h.dropNode_removal id).linked_of_linked h hlinked) hnew
  | linkGone x y => exact absurd ((h.dropLink_removal x y).linked_of_linked h hlinked) hnew

/-- A link that a removal leaves stays with its holder at its cost. -/
theorem Removal.held?_of_linked {c : Change} (h : t.WellFormed) (hc : Removal t c)
    (hheld : t.held? a b ≠ none) (hlinked : c.topology.Linked a b) :
    c.topology.held? a b = t.held? a b := by
  rcases hc.held?_eq a b with hnone | hsame
  · have hback : c.topology.held? b a = none :=
      (hc.held?_eq b a).elim (fun hn => hn) fun hs => hs.trans (h.held_once a b hheld)
    exact absurd (hc.wellFormed.link?_eq_none_iff.2 ⟨hnone, hback⟩) hlinked
  · exact hsame

/-- A link that stays has the cost that its holder reports now, or else the one that it had. -/
theorem WellFormed.held?_apply (h : t.WellFormed) (hheld : t.held? a b ≠ none)
    (hlinked : (t.apply r).topology.Linked a b) :
    (t.apply r).topology.held? a b = (r.linkCost? a b).or (t.held? a b) := by
  cases r with
  | node id cost => exact held?_reportNode t id cost a b
  | link x y cost =>
    have hne : a ≠ b := fun he => hheld (he ▸ h.held?_self a)
    have hback : t.held? b a = none := h.held_once a b hheld
    show (t.reportLink x y cost).topology.held? a b = _
    rw [h.held?_reportLink, Report.linkCost?]
    by_cases hends : x = a ∧ y = b
    · obtain ⟨rfl, rfl⟩ := hends
      rw [if_pos ⟨rfl, rfl, hne, hback⟩, if_pos ⟨rfl, rfl⟩, Option.some_or]
    · rw [if_neg fun he => hends ⟨he.1, he.2.1⟩, if_neg hends, Option.none_or]
  | nodeGone id => exact (h.dropNode_removal id).held?_of_linked h hheld hlinked
  | linkGone x y => exact (h.dropLink_removal x y).held?_of_linked h hheld hlinked

/-- The first of the reports made the link, and its source holds it at the last cost that it told. -/
def Traces (t : Topology) (a b : NodeId) (reports : List Report) : Prop :=
  ∃ source target cost later, reports = .link source target cost :: later ∧
    s(source, target) = s(a, b) ∧
    t.held? source target = latest (Report.linkCost? source target) reports

/-- What the holder told last is something: its first report is among the reports. -/
theorem latest_linkCost?_ne_none (source target : NodeId) (cost : Cost) (later : List Report) :
    latest (Report.linkCost? source target) (.link source target cost :: later) ≠ none := by
  intro hnone
  have hfirst := (latest_eq_none_iff _).1 hnone _ List.mem_cons_self
  rw [Report.linkCost?, if_pos ⟨rfl, rfl⟩] at hfirst
  cases hfirst

theorem WellFormed.traces_new (h : t.WellFormed) (hnew : ¬ t.Linked a b)
    (hlinked : (t.apply r).topology.Linked a b) : (t.apply r).topology.Traces a b [r] := by
  obtain ⟨source, target, cost, rfl, hends, hheld⟩ := h.exists_link_of_new hnew hlinked
  refine ⟨source, target, cost, [], rfl, hends, ?_⟩
  rw [hheld, latest_singleton, Report.linkCost?, if_pos ⟨rfl, rfl⟩]

theorem WellFormed.traces_apply (h : t.WellFormed) {reports : List Report} (ht : t.Traces a b reports)
    (hlinked : (t.apply r).topology.Linked a b) :
    (t.apply r).topology.Traces a b (reports ++ [r]) := by
  obtain ⟨source, target, cost, later, rfl, hends, hheld⟩ := ht
  refine ⟨source, target, cost, later ++ [r], rfl, hends, ?_⟩
  rw [Linked, ← hends] at hlinked
  rw [h.held?_apply (hheld ▸ latest_linkCost?_ne_none source target cost later) hlinked, hheld,
    latest_concat]

/-- A pair that is not linked was not reported just now. -/
theorem WellFormed.not_joins (h : t.WellFormed) (hne : a ≠ b)
    (hfree : ¬ (t.apply r).topology.Linked a b) : ¬ r.Joins a b := by
  intro hjoins
  cases r with
  | link x y cost =>
    have hends : s(x, y) = s(a, b) := hjoins
    refine hfree ((h.linked_reportLink x y cost a b).2 (.inr ⟨hends, ?_⟩))
    exact fun hself => hne (Sym2.mk_isDiag_iff.1 (hends ▸ Sym2.mk_isDiag_iff.2 hself))
  | node id cost => exact hjoins
  | nodeGone id => exact hjoins
  | linkGone x y => exact hjoins

end Link

/-! ## Histories -/

/-- Since a pair was last taken apart, if it ever was linked, no link of it has been reported. -/
theorem exists_since_apart (localId : NodeId) {a b : NodeId} (hne : a ≠ b) {history : List Report}
    (hfree : ¬ ((root localId).run history).Linked a b) :
    ∃ before idle, history = before ++ idle ∧
      Since (fun t => ¬ t.Linked a b) (root localId) before idle ∧ ∀ r ∈ idle, ¬ r.Joins a b := by
  refine exists_since (Q := fun idle _ => ∀ r ∈ idle, ¬ r.Joins a b) (wellFormed_root localId)
    (fun _ r hr => absurd hr List.not_mem_nil) (fun t r h _ hafter x hx => ?_)
    (fun t idle r h _ hidle hafter x hx => ?_) hfree
  · rw [List.mem_singleton.1 hx]
    exact h.not_joins hne hafter
  · rcases List.mem_append.1 hx with hx | hx
    · exact hidle x hx
    · rw [List.mem_singleton.1 hx]
      exact h.not_joins hne hafter

theorem not_linked_root (localId a b : NodeId) : ¬ (root localId).Linked a b := by
  rw [Linked, not_not, (wellFormed_root localId).link?_eq_none_iff, held?_root, held?_root]
  exact ⟨rfl, rfl⟩

/-- A pair that is linked was linked by a report of one of its ends. -/
theorem exists_since_linked (localId : NodeId) {a b : NodeId} {history : List Report}
    (hlinked : ((root localId).run history).Linked a b) :
    ∃ earlier recent, history = earlier ++ recent ∧
      Since (·.Linked a b) (root localId) earlier recent ∧
      ((root localId).run history).Traces a b recent :=
  exists_since (Q := fun recent t => t.Traces a b recent) (wellFormed_root localId)
    (fun hroot => absurd hroot (not_linked_root localId a b))
    (fun _ _ h hnew hafter => h.traces_new hnew hafter)
    (fun _ _ _ h _ ht hafter => h.traces_apply ht hafter) hlinked

/-- **A topology remembers what was told since.**  After any history, take a node that is stored, and
what was reported since it was last stored, the report that stored it included.  The node counts as
unfetched exactly if it has reported no link since then, and its cost is the last one that was told of
it since then; if none was told, it counts as uncosted, and only then.  Take two nodes that are linked.
The history up to the link ends with reports since the pair was last taken apart, or since the start,
none of which is of this pair; the next report is, it made the link, and the pair has been linked ever
since.  The source of that report holds the link and the other end mirrors it, both with the last cost
that this source has reported of the link. -/
theorem run_remembers (localId : NodeId) (history : List Report) :
    let start := root localId
    let t := start.run history
    (∀ x, t.contains x = true → ∃ earlier recent, history = earlier ++ recent ∧
      Since (·.contains x = true) start earlier recent ∧
      (x ∈ t.unfetched ↔ ∀ r ∈ recent, ¬ r.Fetches x) ∧
      t.cost? x = some (latest (Report.nodeCost? x) recent) ∧
      (x ∈ t.uncosted ↔ latest (Report.nodeCost? x) recent = none)) ∧
    ∀ a b, t.Linked a b → ∃ before idle source target made later,
      history = before ++ idle ++ .link source target made :: later ∧
      s(source, target) = s(a, b) ∧
      Since (fun t => ¬ t.Linked a b) start before idle ∧ (∀ r ∈ idle, ¬ r.Joins a b) ∧
      Since (·.Linked a b) start (before ++ idle) (.link source target made :: later) ∧
      ∃ cost, latest (Report.linkCost? source target) history = some cost ∧
        t.held? source target = some cost ∧ t.mirrored? target source = some cost ∧
        t.held? target source = none := by
  intro start t
  have h : t.WellFormed := wellFormed_run localId history
  refine ⟨fun x hx => ?_, fun a b hab => ?_⟩
  · obtain ⟨earlier, recent, hhistory, hsince, hrecalls⟩ :=
      exists_since (Q := fun recent t => t.Recalls x recent) (wellFormed_root localId) recalls_root
        (fun _ _ h hnew hafter => h.recalls_new hnew hafter)
        (fun _ _ _ h _ ht hafter => h.recalls_apply ht hafter) hx
    refine ⟨earlier, recent, hhistory, hsince, ?_, hrecalls.cost?_eq, ?_⟩
    · rw [h.mem_unfetched, and_iff_right hx, ← Bool.not_eq_true, hrecalls.isFetched_iff]
      simp only [not_exists, not_and]
    · rw [h.mem_uncosted, hrecalls.cost?_eq, Option.some_inj]
  · obtain ⟨earlier, recent, hhistory, hsince, source, target, made, later, rfl, hends, hheld⟩ :=
      exists_since_linked localId hab
    have hfree : ¬ (start.run earlier).Linked a b := by
      rcases hsince.began with rfl | hfree
      · exact not_linked_root localId a b
      · exact hfree
    have hne : a ≠ b := by
      rintro rfl
      exact hab (h.link?_eq_none_iff.2 ⟨h.held?_self a, h.held?_self a⟩)
    obtain ⟨before, idle, rfl, hapart, hidle⟩ := exists_since_apart localId hne hfree
    obtain ⟨cost, hcost⟩ :=
      Option.ne_none_iff_exists'.1 (latest_linkCost?_ne_none source target made later)
    have hholder : t.held? source target = some cost := hheld.trans hcost
    refine ⟨before, idle, source, target, made, later, hhistory, hends, hapart, hidle, hsince, cost,
      ?_, hholder, (h.mirrored_eq source target).trans hholder, h.held?_reverse hholder⟩
    rw [hhistory, latest_append, hcost, Option.some_or]

/-- A node that is pruned with its neighbour comes back without its cost and as unfetched, and the other
end holds the new link. -/
example : let t := (root ⟨0⟩).run [.link ⟨0⟩ ⟨1⟩ ⟨5⟩, .link ⟨1⟩ ⟨2⟩ ⟨6⟩, .node ⟨1⟩ (some ⟨9⟩),
      .linkGone ⟨0⟩ ⟨1⟩, .link ⟨2⟩ ⟨1⟩ ⟨4⟩]
    t.cost? ⟨1⟩ = some none ∧ t.isFetched ⟨1⟩ = false ∧ t.held? ⟨2⟩ ⟨1⟩ = some ⟨4⟩ := by
  decide

end Topology
end MeshView
