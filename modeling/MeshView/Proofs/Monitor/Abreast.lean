/-
# Two monitors side by side

Two monitors rest, and their topologies have the same shape; only the second one asks for costs
(`Abreast`).  Both take the same report.  It leaves fronts that trail each other, if the second
topology then still covers the nodes that it had before, and knows all the links of a node that
it has just heard of and counts as fetched (`Resumes`).  So the monitors come to rest side by side
again, each on a schedule of its own (`Abreast.rests`).
-/

import MeshView.Proofs.Monitor.Lockstep

namespace MeshView

namespace Topology

/-- After the report the topology was told nothing but the truth; it covers the nodes that it had
before, and of a node that is new and counts as fetched it knows the links with their costs. -/
structure Resumes (t : Topology) (r : Report) (g : Mesh) (localId : NodeId) : Prop where
  informed : (t.apply r).topology.Informed g localId False
  old : ∀ a, a ≠ localId → t.contains a = true → (t.apply r).topology.contains a = true →
    (t.apply r).topology.Covers g a
  new : ∀ a, a ≠ localId → t.contains a = false → (t.apply r).topology.isFetched a = true →
    (∀ b, g.Linked a b → (t.apply r).topology.Linked a b) ∧
      ∀ b c, (t.apply r).topology.held? a b = some c → g.link? a b = some c

variable {t t' : Topology} {g : Mesh} {localId : NodeId} {sure : NodeId → Prop} {r : Report}

/-- Whatever is stored is fetched, the local node apart. -/
def AllFetched (t : Topology) (localId : NodeId) : Prop :=
  ∀ id, id ≠ localId → t.contains id = true → t.isFetched id = true

/-- If everything was fetched, a node that is not fetched after a report was not stored before. -/
theorem AllFetched.new_of_unfetched (h : t.AllFetched localId) (hwf : t.WellFormed) {x : NodeId}
    (hne : x ≠ localId) (hstored : (t.apply r).topology.contains x = true)
    (hunfetched : (t.apply r).topology.isFetched x = false) : t.contains x = false := by
  refine Bool.eq_false_iff.2 fun hold => ?_
  rw [hwf.isFetched_stays hstored (h x hne hold)] at hunfetched
  cases hunfetched

/-- **The report sets off from a sound front.** -/
theorem Resumes.sound (h : t.Resumes r g localId) (hwf : t.WellFormed)
    (hfetched : t.AllFetched localId) (hg : g.WellFormed) (hlocal : g.contains localId = true)
    (hsure : ∀ a, sure a → a ≠ localId → g.contains a = true → g.cost? a ≠ none) :
    ((t.apply r).front true).Sound g localId sure := by
  have hreplay := (hwf.apply_sound r).exact.replay_eq
  have hwf' := h.informed.faithful.wellFormed
  refine ⟨⟨h.informed, fun a ha hf b hab => ?_, fun a ha hs hf hc b c hab => ?_⟩,
    (Change.ascending_asked _ _ _).imp fun hab => NodeId.ne_of_lt hab, fun x hx => ?_,
    fun x hstored hne hunfetched => ?_, fun x hx hf => ?_⟩
  · cases hold : t.contains a with
    | true => exact (h.old a ha hold (contains_of_isFetched hf)).link? hab
    | false => exact (h.new a ha hold hf).1 b hab
  · cases hold : t.contains a with
    | true =>
      -- a node that was stored before is covered, and a sure one has a cost
      have hstored : (t.apply r).topology.contains a = true := contains_of_isFetched hf
      have hknown := (h.informed.faithful.visible a (contains_iff_cost?.1 hstored)).contains hg hlocal
      obtain ⟨k, hk⟩ := Option.ne_none_iff_exists'.1 (hsure a hs ha hknown)
      obtain ⟨k', hk'⟩ := (h.old a ha hold hstored).cost? hk
      exact absurd (hc.symm.trans hk') (by simp)
    | false => exact (h.new a ha hold hf).2 b c hab
  · obtain ⟨-, hwanted, -⟩ := Change.mem_asked.1 hx
    exact ⟨hwf'.contains_of_mem_wanted hwanted,
      h.informed.localId_eq ▸ ((hwf'.mem_wanted x).1 hwanted).2⟩
  · refine Change.mem_asked.2 ⟨diff_ne_of_new hreplay ?_ hstored, ?_, List.not_mem_nil⟩
    · exact hfetched.new_of_unfetched hwf hne hstored hunfetched
    · exact (hwf'.mem_wanted x).2 ⟨.inl ⟨hstored, hunfetched⟩, h.informed.localId_eq.symm ▸ hne⟩
  · obtain ⟨-, hwanted, -⟩ := Change.mem_asked.1 hx
    refine (((hwf'.mem_wanted x).1 hwanted).1.resolve_left fun hboth => ?_).2
    exact absurd (hboth.2.symm.trans hf) Bool.false_ne_true

/-- **Two topologies of the same shape set off side by side.** -/
theorem Shadows.trails (h : t'.Shadows t sure) (hwf : t.WellFormed)
    (hfetched : t.AllFetched t.localId) (r : Report) :
    Front.Trails sure ((t'.apply r).front false) ((t.apply r).front true) := by
  have hshadows := h.apply hwf r
  have hsound := hwf.apply_sound r
  refine ⟨hshadows, Change.asked_of_shadows hsound.wellFormed hshadows
    fun x hstored hunfetched hne => .inr ⟨List.not_mem_nil, List.not_mem_nil, ?_, ?_⟩⟩
  all_goals
    have hnew := hfetched.new_of_unfetched hwf (hsound.localId_eq ▸ hne) hstored hunfetched
  · refine diff_ne_of_new (h.wellFormed.apply_sound r).exact.replay_eq ?_
      ((hshadows.contains_eq x).trans hstored)
    exact (h.contains_eq x).trans hnew
  · exact diff_ne_of_new hsound.exact.replay_eq hnew hstored

end Topology

namespace Monitor
variable {g e e' : Mesh} {localId : NodeId} {sure : NodeId → Prop} {size : Nat} {m m' : Monitor}
  {r : Report}

/-- Two monitors at rest whose topologies have the same shape; only the second one asks for costs. -/
structure Abreast (localId : NodeId) (sure : NodeId → Prop) (size : Nat) (m' m : Monitor) : Prop where
  idle' : m'.Idle size
  idle : m.Idle size
  fetchCosts' : m'.fetchCosts = false
  fetchCosts : m.fetchCosts = true
  wellFormed : m.topology.WellFormed
  localId_eq : m.topology.localId = localId
  shadows : m'.topology.Shadows m.topology sure
  allFetched : m.topology.AllFetched localId

/-- A mesh that does not grow leaves them so. -/
theorem Abreast.mono {size' : Nat} (h : Abreast localId sure size m' m) (hle : size' ≤ size) :
    Abreast localId sure size' m' m :=
  { h with idle' := h.idle'.mono hle, idle := h.idle.mono hle }

section Observe
variable {n' n : Monitor} (h : Abreast localId sure size m' m)
include h

/-- **A report leaves them side by side**, if the second one resumes with it, on whatever schedules they
come to rest. -/
theorem Abreast.rests (hsize : g.size ≤ size) (hg : g.WellFormed)
    (hlocal : g.contains localId = true) (honline : g.AllOnline)
    (hsure : ∀ a, sure a → a ≠ localId → g.contains a = true → g.cost? a ≠ none)
    (hr : m.topology.Resumes r g localId) (hrests' : Rests g.answer (m'.offer r) n')
    (hrests : Rests g.answer (m.offer r) n) : Abreast localId sure g.size n' n := by
  have hshadows := h.shadows.apply h.wellFormed r
  obtain ⟨hidle, hcosts, k, hk⟩ := h.idle.explore hsize hg hlocal hr.informed honline hrests
  obtain ⟨hidle', hcosts', i, hi⟩ :=
    h.idle'.explore hsize hg hlocal (hshadows.informed hr.informed) honline hrests'
  rw [h.fetchCosts] at hk hcosts
  rw [h.fetchCosts'] at hi hcosts'
  have hsound := hr.sound h.wellFormed h.allFetched hg hlocal hsure
  have htrails := h.shadows.trails h.wellFormed (h.localId_eq.symm ▸ h.allFetched) r
  obtain ⟨j, hend, hsound'⟩ := htrails.iterate hg hlocal honline hsure hsound k
  rw [hk] at hend hsound'
  -- the first front has nobody left under way either, so it is the one at which its monitor rests
  have hsame : (Front.next g false)^[j] ((m'.topology.apply r).front false) = ⟨n'.topology, []⟩ := by
    rw [← hi]
    exact Front.eq_of_iterate hend.ahead_eq (hi ▸ rfl)
  rw [hsame] at hend
  refine ⟨hidle', hidle, hcosts', hcosts,
    hsound'.grounded.informed.faithful.wellFormed, hsound'.grounded.informed.localId_eq,
    hend.shadows, fun id hne hstored => ?_⟩
  by_contra hunfetched
  exact List.not_mem_nil (hsound'.unfetched id hstored hne (Bool.eq_false_iff.2 hunfetched))

/-- Both come to rest on the schedule of a fleet, if the report leaves nothing untrue in the second. -/
theorem Abreast.settle_offer (rounds : Nat) (hsize : g.size ≤ size) (hg : g.WellFormed)
    (hlocal : g.contains localId = true) (honline : g.AllOnline)
    (hinformed : (m.topology.apply r).topology.Informed g localId False) (he' : e'.sites = g.sites)
    (he : e.sites = g.sites) (hrounds : g.extent < rounds) : ∃ n' d' n d,
      (m'.offer r).settle Mesh.responder (rounds + 1) e' = (n', d') ∧
      (m.offer r).settle Mesh.responder (rounds + 1) e = (n, d) ∧
      d'.sites = g.sites ∧ d.sites = g.sites ∧
      Rests g.answer (m'.offer r) n' ∧ Rests g.answer (m.offer r) n := by
  have hinformed' := (h.shadows.apply h.wellFormed r).informed hinformed
  obtain ⟨n, d, hn, hd, hrests⟩ :=
    h.idle.settle_exploring hsize hg hlocal hinformed honline he hrounds
  obtain ⟨n', d', hn', hd', hrests'⟩ :=
    h.idle'.settle_exploring hsize hg hlocal hinformed' honline he' hrounds
  exact ⟨n', d', n, d, hn', hn, hd', hd, hrests', hrests⟩

section Gone
variable (hnone : ∀ id, ¬ (m.topology.apply r).topology.contains id = true)
include hnone

/-- Where nothing is stored any more, nothing is wanted. -/
theorem Abreast.wanted_gone : (m'.topology.apply r).topology.wanted m'.fetchCosts = [] ∧
    (m.topology.apply r).topology.wanted m.fetchCosts = [] := by
  have hshadows := h.shadows.apply h.wellFormed r
  exact ⟨hshadows.wellFormed.wanted_eq_nil fun id => hshadows.contains_eq id ▸ hnone id,
    (h.wellFormed.apply_sound r).wellFormed.wanted_eq_nil hnone⟩

/-- **A report after which nothing is stored leaves them side by side, too.** -/
theorem Abreast.pump_gone : Abreast localId sure size (m'.offer r).pump (m.offer r).pump := by
  obtain ⟨hwanted', hwanted⟩ := h.wanted_gone hnone
  obtain ⟨-, -, -, htopology, -, hcosts⟩ := h.idle.pumpAll_offer (r := r)
  obtain ⟨-, -, -, htopology', -, hcosts'⟩ := h.idle'.pumpAll_offer (r := r)
  refine ⟨(h.idle'.pump_idle hwanted').1, (h.idle.pump_idle hwanted).1,
    hcosts'.trans h.fetchCosts', hcosts.trans h.fetchCosts,
    htopology.symm ▸ (h.wellFormed.apply_sound r).wellFormed, ?_, ?_, fun id _ hid => ?_⟩
  · rw [htopology, (h.wellFormed.apply_sound r).localId_eq, h.localId_eq]
  · rw [htopology, htopology']
    exact h.shadows.apply h.wellFormed r
  · rw [htopology] at hid
    exact absurd hid (hnone id)

end Gone

/-- **A link to a stored node leads the first one no further.**  Its source counts as fetched, so nothing
is asked for, and no more than the source is new. -/
theorem Abreast.wanted_link {a b : NodeId} (hb : m.topology.contains b = true) (cost : Cost) :
    (m'.topology.apply (.link a b cost)).topology.wanted m'.fetchCosts = [] ∧
      ∀ id, (m'.offer (.link a b cost)).pump.topology.contains id = true →
        (a = id ∨ b = id) ∨ m.topology.contains id = true := by
  have hshadows := h.shadows.apply h.wellFormed (.link a b cost)
  have hsound := h.wellFormed.apply_sound (.link a b cost)
  have hstored : ∀ id, (m.topology.apply (.link a b cost)).topology.contains id = true →
      (a = id ∨ b = id) ∨ m.topology.contains id = true := fun id =>
    (Topology.contains_reportLink m.topology a b cost id).1
  refine ⟨List.eq_nil_iff_forall_not_mem.2 fun x hx => ?_, fun id hid => hstored id ?_⟩
  · rw [hshadows.wellFormed.mem_wanted, h.fetchCosts', hshadows.contains_eq, hshadows.isFetched_eq,
      hshadows.localId_eq, hsound.localId_eq, h.localId_eq] at hx
    obtain ⟨⟨hid, hunfetched⟩ | ⟨hcosts, -⟩, hne⟩ := hx
    · have hnew := Bool.eq_false_iff.1
        (h.allFetched.new_of_unfetched h.wellFormed hne hid hunfetched)
      rcases hstored x hid with (rfl | rfl) | hold
      · refine Bool.eq_false_iff.1 hunfetched ?_
        exact (Topology.isFetched_apply m.topology (r := .link a b cost) trivial a).2 (.inr rfl)
      · exact hnew hb
      · exact hnew hold
    · cases hcosts
  · obtain ⟨-, -, -, htopology, -, -⟩ := h.idle'.pumpAll_offer (r := .link a b cost)
    rwa [htopology, hshadows.contains_eq] at hid

end Observe

end Monitor
end MeshView
