/-
# A topology that mirrors its component

A topology mirrors a mesh if it stores the component of its local node, links its nodes as the mesh
does, and knows their costs.  The costs of links are left out: a node that mirrors a link does not
take over the cost that it reports.

When an event changes the mesh, its report changes the topology.  A removal leaves a topology that
mirrors what is left of the mesh, for pruning keeps just what the local node still reaches
(`Mirrors.remainder`).  So does a new cost.  A new link may lead out of the component, and then the
topology stores its far end and no more of what lies behind; but it is still told nothing but the
truth, and a node that it does not cover is one that it stores just now, without its cost
(`Catches`).  `Mirrors.play` is the case analysis.
-/

import MeshView.Proofs.Mesh.Play
import MeshView.Proofs.Topology.Connected

namespace MeshView
namespace Topology
variable {t t' : Topology} {m m' : Mesh}

/-- The topology has the nodes, the links and the costs of nodes of its component. -/
structure Mirrors (t : Topology) (m : Mesh) : Prop where
  wellFormed : t.WellFormed
  contains_iff : ∀ id, t.contains id = true ↔ id ∈ m.component t.localId
  linked_iff : ∀ a b, t.contains a = true → (t.Linked a b ↔ m.Linked a b)
  cost?_eq : ∀ id, t.contains id = true → t.cost? id = some (m.cost? id)

/-- The second topology knows nothing but the truth, and what it does not cover was not stored by the
first one and has no cost yet. -/
structure Catches (t t' : Topology) (m : Mesh) : Prop where
  informed : t'.Informed m t.localId False
  covered : ∀ id, t'.contains id = true →
    t'.Covers m id ∨ t.contains id = false ∧ t'.cost? id = some none

/-- A node is covered once its cost and its links are known. -/
theorem WellFormed.covers (h : t.WellFormed) {id : NodeId} (hid : t.contains id = true)
    (hcost : ∀ c, m.cost? id = some c → t.cost? id = some (some c))
    (hlinked : ∀ b, m.Linked id b → t.Linked id b) : t.Covers m id := by
  intro r hr f hf
  rcases Mesh.mem_localView_iff.1 hr with ⟨c, hc, rfl⟩ | ⟨b, c, hb, rfl⟩
  · rcases List.mem_cons.1 hf with rfl | hf
    · exact contains_iff_knows.1 hid
    · rw [List.mem_singleton.1 hf, knows, hcost c hc]
      rfl
  · have hlink : t.Linked id b := hlinked b (by simp [Mesh.Linked, hb])
    simp only [Report.facts, List.mem_cons, List.not_mem_nil, or_false] at hf
    rcases hf with rfl | rfl | rfl
    · exact contains_iff_knows.1 hid
    · exact contains_iff_knows.1 (h.contains_of_link? hlink).2
    · exact Option.isSome_iff_ne_none.2 hlink

/-! ## From a complete topology and back -/

/-- **With every node online, a topology that knows everything mirrors the mesh.** -/
theorem Complete.mirrors {localId : NodeId} {strict : Prop} (h : t.Complete m localId strict)
    (hm : m.WellFormed) (honline : m.AllOnline) (hlocal : m.contains localId = true)
    (ht : t.localId = localId) : t.Mirrors m := by
  have hopen : ∀ id, t.contains id = true → m.Open localId id := fun id hid =>
    .inr (honline id (((h.contains_iff id).1 hid).contains hm hlocal))
  refine ⟨h.faithful.wellFormed, fun id => ?_, fun a b ha => h.linked_iff hm ha (hopen a ha),
    fun id hid => ?_⟩
  · rw [h.contains_iff, ht]
    exact hm.visible_iff_mem_component hlocal honline id
  · exact h.cost?_of_open ((h.contains_iff id).1 hid) (hopen id hid)

namespace Mirrors
variable (h : t.Mirrors m) (hm : m.WellFormed)
include h

theorem covers {id : NodeId} (hid : t.contains id = true) : t.Covers m id :=
  h.wellFormed.covers hid (fun _ hc => hc ▸ h.cost?_eq id hid) fun b => (h.linked_iff id b hid).2

include hm

theorem contains_local_iff : t.contains t.localId = true ↔ m.contains t.localId = true := by
  rw [h.contains_iff, hm.mem_component]
  exact and_iff_left .refl

/-- Nodes of the mesh are stored only. -/
theorem known {id : NodeId} (hid : t.contains id = true) : m.contains id = true :=
  (hm.contains_of_mem_component ((h.contains_iff id).1 hid)).2

/-- What is stored can be seen, in any mesh that still has the links of this one. -/
theorem visible (hgrows : ∀ a b, m.Linked a b → m'.Linked a b) (honline : m'.AllOnline)
    {id : NodeId} (hid : t.contains id = true) : m'.Visible t.localId id := by
  obtain ⟨-, hpath⟩ := hm.mem_component.1 ((h.contains_iff id).1 hid)
  clear hid
  induction hpath with
  | refl => exact .root
  | tail _ hab ih =>
    have hlink := hgrows _ _ hab
    exact ih.step (.inr (honline _ (Mesh.contains_of_link? hlink))) hlink

/-- What mirrors a mesh is faithful to every mesh that has more links and the same costs of nodes. -/
theorem faithful (hgrows : ∀ a b, m.Linked a b → m'.Linked a b)
    (hcost : ∀ id, m'.cost? id = m.cost? id) (honline : m'.AllOnline) :
    t.Faithful m' t.localId False where
  wellFormed := h.wellFormed
  visible id hid := h.visible hm hgrows honline (contains_iff_cost?.2 hid)
  held a b c hab := by
    have hne : t.held? a b ≠ none := hab ▸ Option.some_ne_none c
    have ha : t.contains a = true := contains_of_held? hne
    have hlink : m'.Linked a b :=
      hgrows a b ((h.linked_iff a b ha).1 (linked_of_held? h.wellFormed hne))
    exact ⟨⟨h.visible hm hgrows honline ha, .inr (honline a (Mesh.contains_of_link? hlink))⟩,
      hlink, False.elim⟩
  cost id c hc := by
    have hid : t.contains id = true := contains_iff_cost?.2 (hc ▸ Option.some_ne_none _)
    have hknown : m'.cost? id = some c :=
      (hcost id).trans (Option.some.inj ((h.cost?_eq id hid).symm.trans hc))
    exact ⟨.inr (honline id (Mesh.contains_of_cost? hknown)), hknown⟩

theorem catches (honline : m.AllOnline) (hlocal : m.contains t.localId = true) {t₀ : Topology}
    (hsame : t.localId = t₀.localId) : Catches t₀ t m where
  informed := ⟨hsame ▸ h.faithful hm (fun _ _ hab => hab) (fun _ => rfl) honline, hsame,
    hsame ▸ (h.contains_local_iff hm).2 hlocal⟩
  covered _ hid := .inl (h.covers hid)

end Mirrors

/-! ## Reports -/

/-- **A new cost of a node.** -/
theorem Mirrors.reportNode (h : t.Mirrors m) (hm : m.WellFormed) {id : NodeId}
    (hid : t.contains id = true) (cost : Option Cost) :
    (t.reportNode id cost).topology.Mirrors (m.setCost id cost) := by
  have hm' : (m.setCost id cost).WellFormed := hm.play (.node id cost)
  have hgrowth := h.wellFormed.reportNode_growth id cost
  have hstored : ∀ x, (t.reportNode id cost).topology.contains x = true ↔ t.contains x = true := by
    intro x
    rw [contains_reportNode]
    exact or_iff_right_of_imp fun hx => hx ▸ hid
  refine ⟨hgrowth.wellFormed, fun x => ?_, fun a b ha => ?_, fun x hx => ?_⟩
  · rw [hstored, h.contains_iff, hgrowth.localId_eq, hm.mem_component, hm'.mem_component,
      Mesh.linked_setCost, Mesh.contains_setCost]
  · rw [Linked, h.wellFormed.link?_reportNode, Mesh.linked_setCost]
    exact h.linked_iff a b ((hstored a).1 ha)
  · rw [cost?_reportNode, h.cost?_eq x ((hstored x).1 hx), Option.join_some,
      Mesh.cost?_setCost m id x cost (h.known hm hid)]
    split <;> rfl

section Link
variable (h : t.Mirrors m) {a b : NodeId} (hl : m.canLink a b = true)
include h hl

/-- In the mesh with the new link its report is true: either end can be seen. -/
theorem Mirrors.truthful_link (hm : m.WellFormed) (honline : m.AllOnline)
    (hends : t.contains a = true ∨ t.contains b = true) (cost : Cost) :
    Truthful (m.addLink a b cost) t.localId (.link a b cost) := by
  have honline' : (m.addLink a b cost).AllOnline :=
    honline.congr fun x => Mesh.node?_addLink m x a b cost
  have hlinked := Mesh.linked_addLink hl cost
  have hab : (m.addLink a b cost).link? a b = some cost := by
    rw [Mesh.link?_addLink a b cost hl, if_pos rfl]
  have hopen : ∀ {x y}, (m.addLink a b cost).Linked x y → (m.addLink a b cost).Open t.localId x :=
    fun hxy => .inr (honline' _ (Mesh.contains_of_link? hxy))
  have hvisible : ∀ {x}, t.contains x = true → (m.addLink a b cost).Visible t.localId x :=
    fun hx => h.visible hm (fun x y hxy => (hlinked x y).2 (.inl hxy)) honline' hx
  have htells : (m.addLink a b cost).Visible t.localId a := by
    rcases hends with ha | hb
    · exact hvisible ha
    · have hba : (m.addLink a b cost).Linked b a := (hlinked b a).2 (.inr Sym2.eq_swap)
      exact (hvisible hb).step (hopen hba) hba
  exact ⟨a, ⟨htells, hopen (hab ▸ Option.some_ne_none cost)⟩,
    Mesh.mem_localView_iff.2 (.inr ⟨b, cost, hab, rfl⟩)⟩

/-- What was stored is still covered; an end that was not has no cost yet. -/
theorem Mirrors.covered_reportLink (cost : Cost)
    (hwf : (t.reportLink a b cost).topology.WellFormed) {x : NodeId}
    (hx : (t.reportLink a b cost).topology.contains x = true) :
    (t.reportLink a b cost).topology.Covers (m.addLink a b cost) x ∨
      t.contains x = false ∧ (t.reportLink a b cost).topology.cost? x = some none := by
  have hcost := cost?_reportLink t a b cost x
  cases hold : t.contains x with
  | true =>
    refine .inl (hwf.covers hx (fun c hc => ?_) fun y hxy => ?_)
    · rw [hcost, h.cost?_eq x hold, ← hc, Mesh.cost?_congr (Mesh.node?_addLink m x a b cost),
        Option.join_some, ite_self]
    · refine (h.wellFormed.linked_reportLink a b cost x y).2 ?_
      exact ((Mesh.linked_addLink hl cost x y).1 hxy).imp (h.linked_iff x y hold).2
        fun he => ⟨he, Mesh.ne_of_canLink hl⟩
  | false =>
    have hnone : t.cost? x = none := by
      by_contra hcost
      rw [contains_iff_cost?.2 hcost] at hold
      cases hold
    have hend : a = x ∨ b = x :=
      ((contains_reportLink t a b cost x).1 hx).resolve_right (by simp [hold])
    refine .inr ⟨rfl, ?_⟩
    rw [hcost, if_pos hend, hnone, Option.join_none]

/-- **A new link**, of which one end at least is stored. -/
theorem Mirrors.reportLink (hm : m.WellFormed) (honline : m.AllOnline)
    (hends : t.contains a = true ∨ t.contains b = true) (cost : Cost) :
    Catches t (t.reportLink a b cost).topology (m.addLink a b cost) := by
  have hnode := fun x => Mesh.node?_addLink m x a b cost
  have hfaithful : (t.reportLink a b cost).topology.Faithful (m.addLink a b cost) t.localId False :=
    (h.faithful hm (fun x y hxy => (Mesh.linked_addLink hl cost x y).2 (.inl hxy))
      (fun x => Mesh.cost?_congr (hnode x)) (honline.congr hnode)).apply
      (h.truthful_link hl hm honline hends cost)
  have hlocal : t.contains t.localId = true := by
    refine (h.contains_local_iff hm).2 ?_
    rcases hends with ha | hb
    · exact (hm.contains_of_mem_component ((h.contains_iff a).1 ha)).1
    · exact (hm.contains_of_mem_component ((h.contains_iff b).1 hb)).1
  refine ⟨⟨hfaithful, (h.wellFormed.reportLink_growth a b cost).localId_eq, ?_⟩, fun x hx => ?_⟩
  · exact (contains_reportLink t a b cost _).2 (.inr hlocal)
  · exact h.covered_reportLink hl cost hfaithful.wellFormed hx

end Link

/-! ## Removals -/

/-- Along a path from the local node the topology has the links of the mesh. -/
theorem Mirrors.path_iff (h : t.Mirrors m) {cut : Sym2 NodeId → Prop}
    (hlinked : ∀ a b, m'.Linked a b ↔ m.Linked a b ∧ ¬ cut s(a, b))
    (hlocal : t.contains t.localId = true) (id : NodeId) :
    Relation.ReflTransGen (fun a b => t.Linked a b ∧ ¬ cut s(a, b)) t.localId id ↔
      Relation.ReflTransGen m'.Linked t.localId id := by
  constructor
  · refine Relation.ReflTransGen.mono (fun a b hab => ?_) _ _
    have ha := (h.wellFormed.contains_of_link? hab.1).1
    exact (hlinked a b).2 ⟨(h.linked_iff a b ha).1 hab.1, hab.2⟩
  · intro hid
    -- the links of a node are known only if it is stored, so the induction carries that along
    refine And.right (a := t.contains id = true) ?_
    induction hid with
    | refl => exact ⟨hlocal, .refl⟩
    | @tail a b _ hab ih =>
      obtain ⟨hm_ab, hcut⟩ := (hlinked a b).1 hab
      have ht_ab := (h.linked_iff a b ih.1).2 hm_ab
      exact ⟨(h.wellFormed.contains_of_link? ht_ab).2, ih.2.tail ⟨ht_ab, hcut⟩⟩

/-- **What the local node still reaches of a topology mirrors what it still reaches of the mesh.** -/
theorem Mirrors.remainder (h : t.Mirrors m) (hm : m.WellFormed) (hm' : m'.WellFormed)
    {gone : NodeId → Prop} {cut : Sym2 NodeId → Prop} (hleft : Remainder t gone cut t')
    (hwf : t'.WellFormed) (hsame : t'.localId = t.localId)
    (hstays : m'.contains t.localId = true ↔ m.contains t.localId = true ∧ ¬ gone t.localId)
    (hlinked : ∀ a b, m'.Linked a b ↔ m.Linked a b ∧ ¬ cut s(a, b))
    (hcost : ∀ id, m'.contains id = true → m'.cost? id = m.cost? id) : t'.Mirrors m' := by
  have hmem : ∀ id, t'.contains id = true ↔ id ∈ m'.component t'.localId := by
    intro id
    rw [hleft.contains_iff, hsame, hm'.mem_component, hstays, h.contains_local_iff hm]
    refine and_congr_right fun hlocal => h.path_iff hlinked ?_ id
    exact (h.contains_local_iff hm).2 hlocal.1
  have hbefore : ∀ id, t'.contains id = true → t.contains id = true := by
    intro id hid
    rw [contains_iff_cost?, ← hleft.cost?_eq id hid, ← contains_iff_cost?]
    exact hid
  refine ⟨hwf, hmem, fun a b ha => ?_, fun id hid => ?_⟩
  · rw [hleft.linked_iff h.wellFormed hwf ha, hlinked, h.linked_iff a b (hbefore a ha)]
  · have hknown := (hm'.contains_of_mem_component ((hmem id).1 hid)).2
    rw [hleft.cost?_eq id hid, h.cost?_eq id (hbefore id hid), hcost id hknown]

theorem Mirrors.dropNode (h : t.Mirrors m) (hm : m.WellFormed) (id : NodeId) :
    (t.dropNode id).topology.Mirrors (m.removeNode id) := by
  have hremoval := h.wellFormed.dropNode_removal id
  have hnode := fun x => Mesh.node?_removeNode m id x
  refine h.remainder hm (hm.play (.nodeGone id)) (h.wellFormed.dropNode_remainder id)
    hremoval.wellFormed hremoval.localId_eq ?_ (hm.linked_removeNode id) fun x hx => ?_
  · rw [Mesh.contains_eq_node?, hnode, Mesh.contains_eq_node?]
    split
    · rename_i he
      exact iff_of_false Bool.false_ne_true fun hboth => hboth.2 he.symm
    · rename_i hne
      exact (and_iff_left (Ne.symm hne)).symm
  · refine Mesh.cost?_congr ((hnode x).trans (if_neg ?_))
    rintro rfl
    rw [Mesh.contains_eq_node?, hnode, if_pos rfl] at hx
    cases hx

theorem Mirrors.dropLink (h : t.Mirrors m) (hm : m.WellFormed) (a b : NodeId) :
    (t.dropLink a b).topology.Mirrors (m.removeLink a b) := by
  have hremoval := h.wellFormed.dropLink_removal a b
  have hnode := fun x => Mesh.node?_removeLink m x a b
  refine h.remainder hm (hm.play (.linkGone a b)) (h.wellFormed.dropLink_remainder a b)
    hremoval.wellFormed hremoval.localId_eq ?_ (m.linked_removeLink a b) fun x _ =>
    Mesh.cost?_congr (hnode x)
  rw [Mesh.contains_congr (hnode _), not_false_eq_true, and_true]

/-! ## Events -/

/-- **What an event does to a topology that mirrors the mesh.**  The topology catches what changed,
or the local node is gone, and then it is empty as its component is. -/
theorem Mirrors.play (h : t.Mirrors m) (hm : m.WellFormed) (honline : m.AllOnline)
    {e : Event NodeId} (hadmits : m.Admits t.localId e) {r : Report} (hr : (m.play e).2 = some r) :
    (m.play e).1.contains t.localId = true ∧
        Catches t (t.apply r).topology (m.play e).1 ∨
      (m.play e).1.contains t.localId = false ∧ (t.apply r).topology.Mirrors (m.play e).1 := by
  have hm' := hm.play e
  have honline' := honline.play e
  -- what mirrors the new mesh catches it, as long as the local node is there
  have hmirrors (h' : (t.apply r).topology.Mirrors (m.play e).1) :
      (m.play e).1.contains t.localId = true ∧ Catches t (t.apply r).topology (m.play e).1 ∨
        (m.play e).1.contains t.localId = false ∧ (t.apply r).topology.Mirrors (m.play e).1 := by
    have hsame : (t.apply r).topology.localId = t.localId :=
      (h.wellFormed.apply_sound r).localId_eq
    cases hlocal : (m.play e).1.contains t.localId with
    | true => exact .inl ⟨rfl, h'.catches hm' honline' (hsame ▸ hlocal) hsame⟩
    | false => exact .inr ⟨rfl, h'⟩
  cases e with
  | node id cost =>
    obtain rfl : .node id cost = r := Option.some.inj hr
    exact hmirrors (h.reportNode hm ((h.contains_iff id).2 hadmits) cost)
  | nodeGone id =>
    obtain rfl : .nodeGone id = r := Option.some.inj hr
    exact hmirrors (h.dropNode hm id)
  | linkGone a b =>
    obtain rfl : .linkGone a b = r := Option.some.inj hr
    exact hmirrors (h.dropLink hm a b)
  | link a b cost =>
    by_cases hl : m.canLink a b = true
    · have hplay : m.play (.link a b cost) = (m.addLink a b cost, some (.link a b cost)) := if_pos hl
      rw [hplay] at hr ⊢
      obtain rfl : .link a b cost = r := Option.some.inj hr
      have hends : t.contains a = true ∨ t.contains b = true :=
        (hadmits hl).imp (h.contains_iff a).2 (h.contains_iff b).2
      have hlocal : m.contains t.localId = true :=
        (hadmits hl).elim (fun ha => (hm.contains_of_mem_component ha).1) fun hb =>
          (hm.contains_of_mem_component hb).1
      refine .inl ⟨?_, h.reportLink hl hm honline hends cost⟩
      rwa [Mesh.contains_congr (m.node?_addLink _ a b cost)]
    · have hplay : m.play (.link a b cost) = (m, none) := if_neg hl
      rw [hplay] at hr
      cases hr
  | wait millis => cases hr

end Topology
end MeshView
