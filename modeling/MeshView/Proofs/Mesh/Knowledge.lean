/-
# What a topology knows of a mesh

A topology that was told nothing but the truth is faithful: it stores what can be seen, its links
are links of the mesh that an open end told, and its costs are costs that open nodes told.  The cost
of a link is that of the mesh only if this never changed (`strict`): a node that mirrors a link does
not take over the cost that it reports.  A fact is a node, the cost of a node or a link.  Truthful
reports lose no fact, a link that agrees with the mesh goes on doing so, and reports after which no
more of the facts agree list no difference (`Advance`).  The facts of a mesh are finite, so this can
happen only a bounded number of times.
-/

import Mathlib.Algebra.Order.BigOperators.Group.List
import Mathlib.Algebra.Order.Group.Nat
import MeshView.Mesh.Survey
import MeshView.Proofs.Mesh.Visible
import MeshView.Proofs.Topology.Fetched

namespace MeshView

/-- Something that a topology may know, apart from its value. -/
inductive Fact where
  | node (id : NodeId)
  | cost (id : NodeId)
  | link (a b : NodeId)
deriving DecidableEq

/-- What a report tells. -/
def Report.facts : Report → List Fact
  | .node id cost => .node id :: cost.toList.map fun _ => .cost id
  | .link a b _ => [.node a, .node b, .link a b]
  | .nodeGone _ => []
  | .linkGone _ _ => []

namespace Topology
variable {t t' : Topology}

def knows (t : Topology) : Fact → Bool
  | .node id => (t.cost? id).isSome
  | .cost id => (t.cost? id).join.isSome
  | .link a b => (t.link? s(a, b)).isSome

/-- The topology knows the fact, and it has the link that the mesh has. -/
def agrees (t : Topology) (m : Mesh) : Fact → Bool
  | .link a b => t.link? s(a, b) = m.link? a b
  | f => t.knows f

/-- The topology knows all that the node tells about itself. -/
def Covers (t : Topology) (m : Mesh) (id : NodeId) : Prop :=
  ∀ r ∈ m.localView id, ∀ f ∈ r.facts, t.knows f = true

/-- The topology knows nothing but what open nodes that can be seen tell about themselves, or told
before the costs of links changed; if `strict`, these did not change. -/
structure Faithful (t : Topology) (m : Mesh) (localId : NodeId) (strict : Prop) : Prop where
  wellFormed : t.WellFormed
  visible : ∀ id, t.cost? id ≠ none → m.Visible localId id
  held : ∀ a b c, t.held? a b = some c →
    m.Tells localId a ∧ m.link? a b ≠ none ∧ (strict → m.link? a b = some c)
  cost : ∀ id c, t.cost? id = some (some c) → m.Open localId id ∧ m.cost? id = some c

section Truth
variable {m : Mesh} {localId : NodeId} {strict : Prop}

theorem faithful_root : (root localId).Faithful m localId strict where
  wellFormed := wellFormed_root localId
  visible id hid := contains_root_iff.1 (contains_iff_cost?.2 hid) ▸ .root
  held a b c hab := by
    rw [held?_root] at hab
    cases hab
  cost id c hc := by
    rw [cost?, vertex?_root] at hc
    split at hc <;> cases hc

/-- A stored link is a link of the mesh that one of its ends told. -/
theorem Faithful.link (hm : m.WellFormed) (h : t.Faithful m localId strict) {a b : NodeId}
    {c : Cost} (hab : t.link? s(a, b) = some c) : m.link? a b ≠ none ∧
      (strict → m.link? a b = some c) ∧ (m.Tells localId a ∨ m.Tells localId b) := by
  rcases h.wellFormed.link?_eq_some_iff.1 hab with hab | hba
  · obtain ⟨ha, hne, hl⟩ := h.held a b c hab
    exact ⟨hne, hl, .inl ha⟩
  · obtain ⟨hb, hne, hl⟩ := h.held b a c hba
    exact ⟨hm.symm a b ▸ hne, fun hs => hm.symm a b ▸ hl hs, .inr hb⟩

/-- An open node that can be seen has told this. -/
def Truthful (m : Mesh) (localId : NodeId) (r : Report) : Prop :=
  ∃ id, m.Tells localId id ∧ r ∈ m.localView id

/-- Nobody reports the links of others. -/
theorem eq_of_fetches {id x : NodeId} {r : Report} (hr : r ∈ m.localView id) (hf : r.Fetches x) :
    id = x := by
  rcases Mesh.mem_localView_iff.1 hr with ⟨c, -, rfl⟩ | ⟨b, c, -, rfl⟩
  · exact hf.elim
  · exact hf

theorem grows_of_mem_localView {id : NodeId} {r : Report} (hr : r ∈ m.localView id) : r.Grows := by
  rcases Mesh.mem_localView_iff.1 hr with ⟨c, -, rfl⟩ | ⟨b, c, -, rfl⟩ <;> trivial

theorem Truthful.grows {r : Report} (hr : Truthful m localId r) : r.Grows := by
  obtain ⟨id, -, hr⟩ := hr
  exact grows_of_mem_localView hr

/-- An open node tells its cost. -/
theorem Faithful.reportNode (h : t.Faithful m localId strict) {id : NodeId} {k : Cost}
    (hid : m.Tells localId id) (hk : m.cost? id = some k) :
    (t.reportNode id (some k)).topology.Faithful m localId strict := by
  have hcost := cost?_reportNode t id (some k)
  refine ⟨h.wellFormed.reportNode id (some k), fun x hx => ?_, fun x y c hxy => ?_,
    fun x c hx => ?_⟩
  · rw [hcost] at hx
    split at hx
    · rename_i he
      exact he ▸ hid.visible
    · exact h.visible x hx
  · exact h.held x y c ((held?_reportNode t id (some k) x y).symm.trans hxy)
  · rw [hcost] at hx
    split at hx
    · rename_i he
      rw [← he]
      exact ⟨hid.isOpen, hk.trans (Option.some.inj hx)⟩
    · exact h.cost x c hx

/-- An open node tells a link, so the other end can be seen. -/
theorem Faithful.reportLink (h : t.Faithful m localId strict) {id b : NodeId} {k : Cost}
    (hid : m.Tells localId id) (hk : m.link? id b = some k) :
    (t.reportLink id b k).topology.Faithful m localId strict := by
  have hcost := cost?_reportLink t id b k
  refine ⟨(h.wellFormed.reportLink_growth id b k).wellFormed, fun x hx => ?_,
    fun x y c hxy => ?_, fun x c hx => ?_⟩
  · rw [hcost] at hx
    split at hx
    · rename_i he
      rcases he with rfl | rfl
      · exact hid.visible
      · exact hid.visible.step hid.isOpen (by simp [hk])
    · exact h.visible x hx
  · rw [h.wellFormed.held?_reportLink] at hxy
    split at hxy
    · rename_i he
      obtain ⟨rfl, rfl, -⟩ := he
      exact ⟨hid, hk ▸ Option.some_ne_none k, fun _ => hk.trans hxy⟩
    · exact h.held x y c hxy
  · rw [hcost] at hx
    split at hx
    · exact h.cost x c (Option.join_eq_some_iff.1 (Option.some.inj hx))
    · exact h.cost x c hx

/-- A truthful report keeps a topology faithful. -/
theorem Faithful.apply (h : t.Faithful m localId strict) {r : Report}
    (hr : Truthful m localId r) : (t.apply r).topology.Faithful m localId strict := by
  obtain ⟨id, hid, hr⟩ := hr
  rcases Mesh.mem_localView_iff.1 hr with ⟨k, hk, rfl⟩ | ⟨b, k, hk, rfl⟩
  · exact h.reportNode hid hk
  · exact h.reportLink hid hk

/-- Reports that take nothing away lose no fact. -/
theorem WellFormed.knows_apply (h : t.WellFormed) {r : Report} (hr : r.Grows) {f : Fact}
    (hf : t.knows f = true) : (t.apply r).topology.knows f = true := by
  have hgrowth := h.apply_growth hr
  cases f with
  | node id =>
    exact Option.isSome_iff_ne_none.2 (hgrowth.stored id (Option.isSome_iff_ne_none.1 hf))
  | link a b =>
    exact Option.isSome_iff_ne_none.2 (hgrowth.linked s(a, b) (Option.isSome_iff_ne_none.1 hf))
  | cost id =>
    obtain ⟨c, hc⟩ := Option.isSome_iff_exists.1 hf
    show ((t.apply r).topology.cost? id).join.isSome = true
    cases r with
    | node x cost =>
      show ((t.reportNode x cost).topology.cost? id).join.isSome = true
      rw [cost?_reportNode]
      split
      · rw [hc, Option.join_some, Option.isSome_or, Option.isSome_some, Bool.or_true]
      · exact hf
    | link a b c =>
      show ((t.reportLink a b c).topology.cost? id).join.isSome = true
      rw [cost?_reportLink]
      split
      · exact hf
      · exact hf
    | nodeGone x => exact hr.elim
    | linkGone a b => exact hr.elim

/-- What a report told is known afterwards. -/
theorem Faithful.knows_facts (hm : m.WellFormed) (h : t.Faithful m localId strict) {r : Report}
    (hr : Truthful m localId r) {f : Fact} (hf : f ∈ r.facts) :
    (t.apply r).topology.knows f = true := by
  obtain ⟨id, -, hr⟩ := hr
  rcases Mesh.mem_localView_iff.1 hr with ⟨k, -, rfl⟩ | ⟨b, k, hk, rfl⟩
  · have hcost : (t.apply (.node id (some k))).topology.cost? id = some (some k) := by
      show (t.reportNode id (some k)).topology.cost? id = _
      rw [cost?_reportNode, if_pos rfl, Option.some_or]
    rcases List.mem_cons.1 hf with rfl | hf
    · rw [knows, hcost, Option.isSome_some]
    · rw [List.mem_singleton.1 hf, knows, hcost, Option.join_some, Option.isSome_some]
  · have hne : id ≠ b := hm.ne_of_link? hk
    have hend : ∀ x, id = x ∨ b = x →
        ((t.apply (.link id b k)).topology.cost? x).isSome = true := by
      intro x hx
      show ((t.reportLink id b k).topology.cost? x).isSome = true
      rw [cost?_reportLink, if_pos hx, Option.isSome_some]
    have hwf : (t.apply (.link id b k)).topology.WellFormed :=
      (h.wellFormed.apply_sound (.link id b k)).wellFormed
    have hheld : ∀ x y, (t.apply (.link id b k)).topology.held? x y =
        if id = x ∧ b = y ∧ id ≠ b ∧ t.held? b id = none then some k else t.held? x y :=
      fun x y => h.wellFormed.held?_reportLink id b k x y
    simp only [Report.facts, List.mem_cons, List.not_mem_nil, or_false] at hf
    rcases hf with rfl | rfl | rfl
    · exact hend id (.inl rfl)
    · exact hend b (.inr rfl)
    · rw [knows, Option.isSome_iff_ne_none, ne_eq, hwf.link?_eq_none_iff, hheld, hheld, not_and_or]
      by_cases hback : t.held? b id = none
      · rw [if_pos ⟨rfl, rfl, hne, hback⟩]
        exact .inl (Option.some_ne_none k)
      · rw [if_neg (c := id = b ∧ _) fun he => hne he.1]
        exact .inr hback

/-! ## Facts that agree -/

/-- A truthful report leaves a link as it was, or as it is in the mesh. -/
theorem WellFormed.link?_apply (hm : m.WellFormed) (h : t.WellFormed) {r : Report}
    (hr : Truthful m localId r) (a b : NodeId) :
    (t.apply r).topology.link? s(a, b) = t.link? s(a, b) ∨
      (t.apply r).topology.link? s(a, b) = m.link? a b := by
  obtain ⟨id, -, hr⟩ := hr
  rcases Mesh.mem_localView_iff.1 hr with ⟨k, -, rfl⟩ | ⟨x, k, hk, rfl⟩
  · exact .inl (congrFun (h.link?_reportNode id (some k)) s(a, b))
  · show (t.reportLink id x k).topology.link? s(a, b) = _ ∨
      (t.reportLink id x k).topology.link? s(a, b) = _
    rw [h.link?_reportLink]
    split
    · rename_i hab
      refine .inr ?_
      rcases Sym2.eq_iff.1 hab.1 with ⟨rfl, rfl⟩ | ⟨rfl, rfl⟩
      · exact hk.symm
      · rw [hm.symm, hk]
    · exact .inl rfl

theorem agrees_apply (hm : m.WellFormed) (h : t.WellFormed) {r : Report}
    (hr : Truthful m localId r) {f : Fact} (hf : t.agrees m f = true) :
    (t.apply r).topology.agrees m f = true := by
  cases f with
  | node id => exact h.knows_apply hr.grows (f := .node id) hf
  | cost id => exact h.knows_apply hr.grows (f := .cost id) hf
  | link a b =>
    refine decide_eq_true ?_
    exact (h.link?_apply hm hr a b).elim (fun hsame => hsame.trans (of_decide_eq_true hf)) id

/-- A truthful report after which no more of the facts agree changes nothing that is shown. -/
theorem Faithful.view_apply (hm : m.WellFormed) (h : t.Faithful m localId strict) {r : Report}
    (hr : Truthful m localId r)
    (hsame : ∀ f, (t.apply r).topology.agrees m f = true → t.agrees m f = true) :
    t.view = (t.apply r).topology.view := by
  have h' := h.apply hr
  refine View.ext (funext fun x => ?_) (funext fun p => ?_)
  · show t.cost? x = (t.apply r).topology.cost? x
    have hnode : (t.cost? x).isSome = ((t.apply r).topology.cost? x).isSome :=
      Bool.eq_iff_iff.2 ⟨h.wellFormed.knows_apply hr.grows (f := .node x), hsame (.node x)⟩
    have hcost : (t.cost? x).join.isSome = ((t.apply r).topology.cost? x).join.isSome :=
      Bool.eq_iff_iff.2 ⟨h.wellFormed.knows_apply hr.grows (f := .cost x), hsame (.cost x)⟩
    have hc := h.cost x
    have hc' := h'.cost x
    revert hnode hcost hc hc'
    rcases t.cost? x with _ | _ | c <;>
      rcases (t.apply r).topology.cost? x with _ | _ | c' <;> grind
  · show t.link? p = (t.apply r).topology.link? p
    induction p with | _ a b
    rcases h.wellFormed.link?_apply hm hr a b with hold | hnew
    · exact hold.symm
    · exact (of_decide_eq_true (hsame (.link a b) (decide_eq_true hnew))).trans hnew.symm

/-! ## Reports that are absorbed together -/

/-- What truthful reports do: they keep the topology faithful, lose no fact and no agreement, and
list nothing if they add no agreement. -/
structure Advance (m : Mesh) (localId : NodeId) (strict : Prop) (t : Topology) (c : Change) :
    Prop where
  faithful : c.topology.Faithful m localId strict
  keeps : ∀ f, t.knows f = true → c.topology.knows f = true
  confirms : ∀ f, t.agrees m f = true → c.topology.agrees m f = true
  quiet : (∀ f, c.topology.agrees m f = true → t.agrees m f = true) → c.diff = ∅

theorem Faithful.apply_advance (hm : m.WellFormed) (h : t.Faithful m localId strict) {r : Report}
    (hr : Truthful m localId r) : Advance m localId strict t (t.apply r) where
  faithful := h.apply hr
  keeps _ := h.wellFormed.knows_apply hr.grows
  confirms _ := agrees_apply hm h.wellFormed hr
  quiet hsame := Diff.isEmpty_iff.1
    ((h.wellFormed.apply_sound r).exact.isEmpty_iff.2 (h.view_apply hm hr hsame))

theorem Advance.andThen {c : Change} {next : Topology → Change} (h : Advance m localId strict t c)
    (h' : Advance m localId strict c.topology (next c.topology)) :
    Advance m localId strict t (c.andThen next) where
  faithful := h'.faithful
  keeps f hf := h'.keeps f (h.keeps f hf)
  confirms f hf := h'.confirms f (h.confirms f hf)
  quiet hsame := Diff.append_eq_empty_iff.2
    ⟨h.quiet fun f hf => hsame f (h'.confirms f hf),
      h'.quiet fun f hf => h.confirms f (hsame f hf)⟩

/-- **Truthful reports advance a faithful topology**, and what they told is known afterwards. -/
theorem Faithful.applyAll_advance (hm : m.WellFormed) (h : t.Faithful m localId strict)
    {reports : List Report} (hr : ∀ r ∈ reports, Truthful m localId r) :
    Advance m localId strict t (t.applyAll reports) ∧
      ∀ r ∈ reports, ∀ f ∈ r.facts, (t.applyAll reports).topology.knows f = true := by
  induction reports generalizing t with
  | nil => exact ⟨⟨h, fun _ hf => hf, fun _ hf => hf, fun _ => rfl⟩, nofun⟩
  | cons r reports ih =>
    have hone := h.apply_advance hm (hr r List.mem_cons_self)
    obtain ⟨hrest, hfacts⟩ := ih hone.faithful fun r' hr' => hr r' (List.mem_cons_of_mem _ hr')
    rw [applyAll, each_cons]
    refine ⟨hone.andThen hrest, fun r' hr' f hf => ?_⟩
    rcases List.mem_cons.1 hr' with rfl | hr'
    · exact hrest.keeps f (h.knows_facts hm (hr r' List.mem_cons_self) hf)
    · exact hfacts r' hr' f hf

/-- A topology of the local node that was told the truth. -/
structure Informed (t : Topology) (m : Mesh) (localId : NodeId) (strict : Prop) : Prop where
  faithful : t.Faithful m localId strict
  localId_eq : t.localId = localId
  stored : t.contains localId = true

theorem contains_iff_knows {id : NodeId} : t.contains id = true ↔ t.knows (.node id) = true := by
  rw [contains_iff_cost?, ← Option.isSome_iff_ne_none]
  rfl

/-- What was told the truth about the costs of links, too, was told the truth. -/
theorem Informed.loose (h : t.Informed m localId strict) : t.Informed m localId False :=
  { h with faithful := { h.faithful with
      held := fun a b c hab =>
        ⟨(h.faithful.held a b c hab).1, (h.faithful.held a b c hab).2.1, False.elim⟩ } }

theorem Advance.contains {c : Change} (h : Advance m localId strict t c) {id : NodeId}
    (hid : t.contains id = true) : c.topology.contains id = true :=
  contains_iff_knows.2 (h.keeps _ (contains_iff_knows.1 hid))

theorem Covers.mono (hkeeps : ∀ f, t.knows f = true → t'.knows f = true) {id : NodeId}
    (h : t.Covers m id) : t'.Covers m id :=
  fun r hr f hf => hkeeps f (h r hr f hf)

/-- A node that is covered has the links of the mesh. -/
theorem Covers.link? {id b : NodeId} (h : t.Covers m id) (hb : m.link? id b ≠ none) :
    t.link? s(id, b) ≠ none := by
  obtain ⟨c, hc⟩ := Option.ne_none_iff_exists'.1 hb
  have hknown : t.knows (.link id b) = true :=
    h _ (Mesh.mem_localView_iff.2 (.inr ⟨b, c, hc, rfl⟩)) _ (by simp [Report.facts])
  exact Option.isSome_iff_ne_none.1 hknown

/-- If it has a cost in the mesh, its cost is known. -/
theorem Covers.cost? {id : NodeId} {c : Cost} (h : t.Covers m id) (hc : m.cost? id = some c) :
    ∃ k, t.cost? id = some (some k) := by
  have hknown : t.knows (.cost id) = true :=
    h _ (Mesh.mem_localView_iff.2 (.inl ⟨c, hc, rfl⟩)) _ (by simp [Report.facts])
  obtain ⟨k, hk⟩ := Option.isSome_iff_exists.1 hknown
  exact ⟨k, Option.join_eq_some_iff.1 hk⟩

theorem informed_root : (root localId).Informed m localId strict where
  faithful := faithful_root
  localId_eq := rfl
  stored := contains_root_iff.2 rfl

/-- True reports keep a topology informed. -/
theorem Informed.applyAll (hm : m.WellFormed) (h : t.Informed m localId strict)
    {reports : List Report} (htrue : ∀ r ∈ reports, Truthful m localId r) :
    (t.applyAll reports).topology.Informed m localId strict := by
  obtain ⟨hadvance, -⟩ := h.faithful.applyAll_advance hm htrue
  exact ⟨hadvance.faithful, (h.faithful.wellFormed.localId_applyAll reports).trans h.localId_eq,
    hadvance.contains h.stored⟩

/-! ## A topology that knows everything -/

/-- A faithful topology that stores the local node and covers every open node that it stores. -/
structure Complete (t : Topology) (m : Mesh) (localId : NodeId) (strict : Prop) : Prop where
  faithful : t.Faithful m localId strict
  stored : t.contains localId = true
  covers : ∀ id, t.contains id = true → m.Open localId id → t.Covers m id

namespace Complete

section Loose
variable (h : t.Complete m localId strict)
include h

/-- An open node that is stored has told its links, so they are stored with their other ends. -/
theorem contains_of_link? {a b : NodeId} {c : Cost} (ha : t.contains a = true)
    (hopen : m.Open localId a) (hab : m.link? a b = some c) :
    t.contains b = true ∧ t.link? s(a, b) ≠ none := by
  have hlink := (h.covers a ha hopen).link? (hab ▸ Option.some_ne_none c)
  exact ⟨(h.faithful.wellFormed.contains_of_link? hlink).2, hlink⟩

/-- **The nodes are the visible ones.** -/
theorem contains_iff (id : NodeId) : t.contains id = true ↔ m.Visible localId id := by
  constructor
  · exact fun hid => h.faithful.visible id (contains_iff_cost?.1 hid)
  · intro hid
    induction hid with
    | root => exact h.stored
    | step _ hopen hab ih =>
      obtain ⟨c, hc⟩ := Option.ne_none_iff_exists'.1 hab
      exact (h.contains_of_link? ih hopen hc).1

/-- Two nodes are linked as in the mesh, if one of them has told its links. -/
theorem linked_iff (hm : m.WellFormed) {a b : NodeId} (ha : t.contains a = true)
    (hopen : m.Open localId a) : t.link? s(a, b) ≠ none ↔ m.link? a b ≠ none := by
  constructor
  · intro hab
    obtain ⟨c, hc⟩ := Option.ne_none_iff_exists'.1 hab
    exact (h.faithful.link hm hc).1
  · intro hab
    obtain ⟨c, hc⟩ := Option.ne_none_iff_exists'.1 hab
    exact (h.contains_of_link? ha hopen hc).2

/-- **The costs are those of the open nodes.** -/
theorem cost?_of_open {id : NodeId} (hid : m.Visible localId id) (hopen : m.Open localId id) :
    t.cost? id = some (m.cost? id) := by
  have hstored := (h.contains_iff id).2 hid
  obtain ⟨known, hknown⟩ := Option.ne_none_iff_exists'.1 (contains_iff_cost?.1 hstored)
  cases hc : m.cost? id with
  | none =>
    cases known with
    | none => exact hknown
    | some k =>
      have hk : m.cost? id = some k := (h.faithful.cost id k hknown).2
      rw [hc] at hk
      cases hk
  | some c =>
    obtain ⟨k, hk⟩ := (h.covers id hstored hopen).cost? hc
    rw [hk, ← (h.faithful.cost id k hk).2, hc]

theorem cost?_of_not_open {id : NodeId} (hid : m.Visible localId id)
    (hclosed : ¬ m.Open localId id) : t.cost? id = some none := by
  obtain ⟨known, hknown⟩ :=
    Option.ne_none_iff_exists'.1 (contains_iff_cost?.1 ((h.contains_iff id).2 hid))
  cases known with
  | none => exact hknown
  | some k => exact absurd (h.faithful.cost id k hknown).1 hclosed

end Loose

section Strict
variable (h : t.Complete m localId True)
include h

/-- A link that one of its ends told is stored with its cost. -/
theorem link?_of_tells (hm : m.WellFormed) {a b : NodeId} {c : Cost} (ha : m.Tells localId a)
    (hab : m.link? a b = some c) : t.link? s(a, b) = some c := by
  have hstored := (h.contains_iff a).2 ha.visible
  obtain ⟨d, hd⟩ := Option.ne_none_iff_exists'.1 (h.contains_of_link? hstored ha.isOpen hab).2
  rw [hd, ← (h.faithful.link hm hd).2.1 trivial, hab]

/-- **The links are those with an open end among the visible nodes.** -/
theorem link?_eq_some_iff (hm : m.WellFormed) (a b : NodeId) (c : Cost) :
    t.link? s(a, b) = some c ↔
      m.link? a b = some c ∧ (m.Tells localId a ∨ m.Tells localId b) := by
  constructor
  · intro hab
    obtain ⟨-, hc, htells⟩ := h.faithful.link hm hab
    exact ⟨hc trivial, htells⟩
  · rintro ⟨hab, ha | hb⟩
    · exact h.link?_of_tells hm ha hab
    · rw [Sym2.eq_swap]
      exact h.link?_of_tells hm hb (hm.symm b a ▸ hab)

/-- **Two topologies that know everything show the same.** -/
theorem view_eq (hm : m.WellFormed) (h' : t'.Complete m localId True) : t.view = t'.view := by
  refine View.ext (funext fun id => ?_) (funext fun p => ?_)
  · show t.cost? id = t'.cost? id
    by_cases hid : m.Visible localId id
    · by_cases hopen : m.Open localId id
      · rw [h.cost?_of_open hid hopen, h'.cost?_of_open hid hopen]
      · rw [h.cost?_of_not_open hid hopen, h'.cost?_of_not_open hid hopen]
    · have hnone : ∀ {s : Topology}, s.Complete m localId True → s.cost? id = none := fun hs =>
        by_contra fun hc => hid (hs.faithful.visible id hc)
      rw [hnone h, hnone h']
  · show t.link? p = t'.link? p
    induction p with | _ a b
    refine Option.ext fun c => ?_
    exact (h.link?_eq_some_iff hm a b c).trans (h'.link?_eq_some_iff hm a b c).symm

/-- **With every node online, that is the component of the local node.** -/
theorem of_allOnline (hm : m.WellFormed) (hlocal : m.contains localId = true)
    (honline : ∀ id, m.contains id = true → m.isOnline id = true) :
    (∀ id, t.contains id = true ↔ id ∈ m.component localId) ∧
      ∀ id ∈ m.component localId, t.cost? id = some (m.cost? id) ∧
        ∀ b c, (b, c) ∈ t.links id ↔ (b, c) ∈ m.neighbors id := by
  refine ⟨fun id => ?_, fun id hid => ?_⟩
  · rw [h.contains_iff, hm.visible_iff_mem_component hlocal honline]
  · have hvisible : m.Visible localId id := (hm.visible_iff_mem_component hlocal honline id).2 hid
    have hopen : m.Open localId id := .inr (honline id (hvisible.contains hm hlocal))
    refine ⟨h.cost?_of_open hvisible hopen, fun b c => ?_⟩
    rw [h.faithful.wellFormed.mem_links_iff_link?, h.link?_eq_some_iff hm, Mesh.mem_neighbors_iff]
    exact and_iff_left (.inl ⟨hvisible, hopen⟩)

end Strict

end Complete

end Truth
end Topology

/-! ## Finitely many facts -/

namespace Mesh
variable (m : Mesh)

/-- Everything that a faithful topology may know. -/
def facts : List Fact :=
  m.ids.map .node ++ m.ids.map .cost ++ m.sides.map fun side => .link side.1 side.2.1

/-- The number of facts: two for every node and one for every side of a link. -/
def extent : Nat := 2 * m.size + m.sides.length

theorem length_ids : m.ids.length = m.size := List.length_map Prod.fst

theorem length_facts : m.facts.length = m.extent := by
  simp only [facts, extent, List.length_append, List.length_map, length_ids]
  omega

/-- Each of the nodes has at most as many neighbours as there are nodes. -/
theorem WellFormed.extent_le {m : Mesh} (h : m.WellFormed) : m.extent ≤ m.size * (m.size + 2) := by
  have hneighbors : ∀ id, (m.neighbors id).length ≤ m.size := by
    intro id
    have hnodup : ((m.neighbors id).map Prod.fst).Nodup := by
      rw [neighbors]
      cases m.site? id with
      | none => exact List.nodup_nil
      | some s => exact s.links.keys_nodup
    have hsub : (m.neighbors id).map Prod.fst ⊆ m.ids := fun x hx =>
      IdMap.mem_keys.2 (h.contains_right (exists_mem_neighbors_iff.1 hx))
    rw [← m.length_ids, ← List.length_map Prod.fst]
    exact (hnodup.subperm hsub).length_le
  have hsides : m.sides.length ≤ m.size * m.size := by
    rw [sides, List.length_flatMap]
    simp only [List.length_map]
    have hsum := List.sum_le_card_nsmul (m.ids.map fun id => (m.neighbors id).length) m.size
      fun n hn => by
        obtain ⟨id, -, rfl⟩ := List.mem_map.1 hn
        exact hneighbors id
    rwa [List.length_map, length_ids, smul_eq_mul] at hsum
  rw [extent, Nat.mul_add]
  omega

theorem WellFormed.extent_lt {m : Mesh} (h : m.WellFormed) {n : Nat} (hsize : m.size ≤ n) :
    m.extent < (n + 1) ^ 2 := by
  have hmono := Nat.mul_le_mul hsize (Nat.add_le_add_right hsize 2)
  have hsquare : (n + 1) ^ 2 = n * (n + 2) + 1 := by
    simp only [Nat.pow_two, Nat.add_mul, Nat.mul_add]
    omega
  rw [hsquare]
  exact Nat.lt_succ_of_le (h.extent_le.trans hmono)

/-- The facts that a topology does not agree with yet. -/
def missing (t : Topology) : Finset Fact := m.facts.toFinset.filter fun f => t.agrees m f = false

theorem card_missing_le (t : Topology) : (m.missing t).card ≤ m.extent :=
  (Finset.card_filter_le _ _).trans ((List.toFinset_card_le _).trans_eq m.length_facts)

variable {m} {localId : NodeId} {strict : Prop} {t : Topology}

/-- The nodes other than the local one. -/
theorem mem_others {id : NodeId} :
    id ∈ m.ids.toFinset.erase localId ↔ id ≠ localId ∧ m.contains id = true := by
  rw [Finset.mem_erase, List.mem_toFinset, ids, IdMap.mem_keys]
  rfl

theorem card_others_lt (hlocal : m.contains localId = true) :
    (m.ids.toFinset.erase localId).card < m.size := by
  have hmem : localId ∈ m.ids.toFinset := List.mem_toFinset.2 (IdMap.mem_keys.2 hlocal)
  exact (Finset.card_erase_lt_of_mem hmem).trans_le
    ((List.toFinset_card_le _).trans_eq m.length_ids)

/-- A faithful topology knows facts of the mesh only. -/
theorem mem_facts (hm : m.WellFormed) (hlocal : m.contains localId = true)
    (h : t.Faithful m localId strict) {f : Fact} (hf : t.knows f = true) : f ∈ m.facts := by
  have hid : ∀ id, t.cost? id ≠ none → id ∈ m.ids := fun id hne =>
    IdMap.mem_keys.2 ((h.visible id hne).contains hm hlocal)
  simp only [facts, List.mem_append, List.mem_map]
  cases f with
  | node id => exact .inl (.inl ⟨id, hid id (Option.isSome_iff_ne_none.1 hf), rfl⟩)
  | cost id =>
    refine .inl (.inr ⟨id, hid id fun hnone => ?_, rfl⟩)
    change (t.cost? id).join.isSome = true at hf
    rw [hnone] at hf
    cases hf
  | link a b =>
    obtain ⟨c, hc⟩ := Option.isSome_iff_exists.1 hf
    have hne : m.link? a b ≠ none := (h.link hm hc).1
    obtain ⟨d, hd⟩ := Option.ne_none_iff_exists'.1 hne
    have ha : a ∈ m.ids := IdMap.mem_keys.2 (contains_of_link? hne)
    refine .inr ⟨(a, b, d), List.mem_flatMap.2 ⟨a, ha, ?_⟩, rfl⟩
    exact List.mem_map.2 ⟨(b, d), mem_neighbors_iff.2 hd, rfl⟩

theorem missing_subset {t' : Topology}
    (hconfirms : ∀ f, t.agrees m f = true → t'.agrees m f = true) :
    m.missing t' ⊆ m.missing t := by
  intro f hf
  rw [missing, Finset.mem_filter] at hf ⊢
  refine ⟨hf.1, ?_⟩
  by_contra hagrees
  rw [hconfirms f (by simpa using hagrees)] at hf
  cases hf.2

/-- An advance that lists a difference makes one more fact agree. -/
theorem card_missing_lt (hm : m.WellFormed) (hlocal : m.contains localId = true) {c : Change}
    (h : t.Advance m localId strict c) (hd : c.diff ≠ ∅) :
    (m.missing c.topology).card < (m.missing t).card := by
  obtain ⟨f, hnew, hold⟩ : ∃ f, c.topology.agrees m f = true ∧ ¬ t.agrees m f = true := by
    by_contra hno
    exact hd (h.quiet fun f hf => by_contra fun hf' => hno ⟨f, hf, hf'⟩)
  have hknown : c.topology.knows f = true := by
    cases f with
    | node id => exact hnew
    | cost id => exact hnew
    | link a b =>
      -- a link that the mesh lacks was not stored before either, for links are kept
      have hagrees : c.topology.link? s(a, b) = m.link? a b := of_decide_eq_true hnew
      by_contra hunknown
      have hnone : c.topology.link? s(a, b) = none := by simpa [Topology.knows] using hunknown
      have hbefore : t.link? s(a, b) = none := by
        by_contra hne
        exact hunknown (h.keeps (.link a b) (Option.isSome_iff_ne_none.2 hne))
      exact hold (decide_eq_true (hbefore.trans (hnone.symm.trans hagrees)))
  refine Finset.card_lt_card
    ((Finset.ssubset_iff_of_subset (missing_subset h.confirms)).2 ⟨f, ?_, ?_⟩)
  · rw [missing, Finset.mem_filter, List.mem_toFinset]
    exact ⟨mem_facts hm hlocal h.faithful hknown, by simpa using hold⟩
  · rw [missing, Finset.mem_filter, hnew]
    simp

end Mesh
end MeshView
