/-
# What a scenario builds

The nodes of a scenario are its entries, in their order, and the local node after them.  Entries may
repeat a node and links may repeat a pair from either end, so what the mesh has is said by the lists
alone: a node is in it if an entry is of its identity (`contains_mesh`), under the first address of that
identity (`address?_mesh`) and with the last cost that an entry tells (`cost?_mesh`); two different nodes
are linked if an entry joins them, at the cost of the last one (`link?_mesh`).

Every mesh that is built is well-formed with all its nodes online and the local node among them.  A
scenario is refused for the first address that has to be known and is not, in the order in which links
and events stand in it (`build_eq_error_iff`).
-/

import MeshView.Proofs.Mesh.Lists
import MeshView.Scenario

namespace MeshView
namespace Scenario

/-! ## What the entries say -/

/-- The cost that an entry tells of a node. -/
def Node.cost? (id : NodeId) (n : Node) : Option Cost :=
  if NodeId.ofAddress n.address = id then n.cost else none

/-- The cost that an entry gives to a pair, in either direction. -/
def Link.cost? (p : Sym2 NodeId) (l : Link) : Option Cost :=
  if s(NodeId.ofAddress l.a, NodeId.ofAddress l.b) = p then some l.cost else none

variable (s : Scenario)

/-- The addresses of all nodes in the order in which they are added. -/
def addresses : List String := s.nodes.map Node.address ++ [s.localAddress]

/-- A node of the scenario has the identity. -/
def KnowsId (id : NodeId) : Prop := ∃ address ∈ s.addresses, NodeId.ofAddress address = id

/-- The address has the identity of a node of the scenario. -/
def Knows (address : String) : Prop := s.KnowsId (.ofAddress address)

/-! ## The mesh -/

/-- The nodes that are added, the local one without a cost. -/
def entries : List (String × Option Cost) :=
  s.nodes.map (fun n => (n.address, n.cost)) ++ [(s.localAddress, none)]

/-- The links that are added. -/
def joins : List (NodeId × NodeId × Cost) :=
  s.links.map fun l => (.ofAddress l.a, .ofAddress l.b, l.cost)

theorem map_entries : s.entries.map Prod.fst = s.addresses := by
  rw [entries, List.map_append, List.map_map]
  rfl

theorem population_eq : s.population = Mesh.empty.addNodes s.entries := by
  rw [entries, Mesh.addNodes, List.foldl_append, List.foldl_map]
  rfl

theorem mesh_eq : s.mesh = s.population.addLinks s.joins := by
  rw [joins, Mesh.addLinks, List.foldl_map]
  rfl

theorem wellFormed_mesh : s.mesh.WellFormed := by
  rw [mesh_eq, population_eq]
  exact Mesh.wellFormed_empty.addNodes.addLinks

theorem node?_mesh (id : NodeId) : s.mesh.node? id = s.population.node? id := by
  rw [mesh_eq, Mesh.node?_addLinks]

theorem contains_population {id : NodeId} : s.population.contains id = true ↔ s.KnowsId id := by
  rw [population_eq, Mesh.contains_addNodes, map_entries]
  exact or_iff_right Bool.noConfusion

theorem contains_mesh {id : NodeId} : s.mesh.contains id = true ↔ s.KnowsId id := by
  rw [Mesh.contains_congr (s.node?_mesh id), contains_population]

theorem allOnline_mesh : s.mesh.AllOnline := by
  have hempty : Mesh.empty.AllOnline := fun _ hid => Bool.noConfusion hid
  refine Mesh.AllOnline.congr ?_ s.node?_mesh
  rw [population_eq]
  exact hempty.addNodes

theorem contains_local : s.mesh.contains (.ofAddress s.localAddress) = true :=
  s.contains_mesh.2 ⟨s.localAddress, List.mem_append_right _ List.mem_cons_self, rfl⟩

theorem address?_mesh (id : NodeId) :
    s.mesh.address? id = s.addresses.find? (NodeId.ofAddress · = id) := by
  have hempty : Mesh.empty.address? id = none := rfl
  rw [mesh_eq, Mesh.address?_addLinks, population_eq, Mesh.address?_addNodes, hempty,
    Option.none_or, map_entries]

theorem cost?_mesh (id : NodeId) : s.mesh.cost? id = latest (Node.cost? id) s.nodes := by
  have hlocal : Mesh.told id (s.localAddress, none) = none := ite_self none
  have hempty : Mesh.empty.cost? id = none := rfl
  rw [Mesh.cost?_congr (s.node?_mesh id), population_eq, Mesh.cost?_addNodes, hempty, Option.or_none,
    entries, latest_concat, hlocal, Option.none_or, latest_map]
  rfl

theorem link?_mesh (hlinks : ∀ l ∈ s.links, s.Knows l.a ∧ s.Knows l.b) {a b : NodeId} (hne : a ≠ b) :
    s.mesh.link? a b = latest (Link.cost? s(a, b)) s.links := by
  have hknown : ∀ l ∈ s.joins, s.population.contains l.1 = true ∧
      s.population.contains l.2.1 = true := by
    intro j hj
    obtain ⟨l, hl, rfl⟩ := List.mem_map.1 hj
    exact (hlinks l hl).imp s.contains_population.2 s.contains_population.2
  have hnone : s.population.link? a b = none := by
    rw [population_eq, Mesh.link?_addNodes]
    rfl
  rw [mesh_eq, Mesh.link?_addLinks hknown hne, hnone, Option.or_none, joins, latest_map]
  rfl

/-! ## Building -/

/-- The first of the addresses that is not known. -/
def FirstUnknown (addresses : List String) (address : String) : Prop :=
  ∃ before after, addresses = before ++ address :: after ∧ (∀ x ∈ before, s.Knows x) ∧ ¬ s.Knows address

/-- What the scenario is refused for: the first unknown end of the first link that has one; if there is
none, the first unknown address of the first event that removes one. -/
inductive Refused (s : Scenario) (address : String) : Prop
  | link {before : List Link} {l : Link} {after : List Link} (hlinks : s.links = before ++ l :: after)
      (hbefore : ∀ k ∈ before, s.Knows k.a ∧ s.Knows k.b) (h : s.FirstUnknown [l.a, l.b] address)
  | event (hlinks : ∀ l ∈ s.links, s.Knows l.a ∧ s.Knows l.b)
      {before : List (Event String)} {e : Event String} {after : List (Event String)}
      (hevents : s.events = before ++ e :: after)
      (hbefore : ∀ k ∈ before, ∀ x ∈ k.removes, s.Knows x) (h : s.FirstUnknown e.removes address)

variable {s}

/-- The search for an unknown address among some. -/
def search (s : Scenario) (addresses : List String) : Option String :=
  addresses.find? fun address => !s.population.contains (NodeId.ofAddress address)

theorem search_eq_none_iff {addresses : List String} :
    s.search addresses = none ↔ ∀ x ∈ addresses, s.Knows x := by
  rw [search, List.find?_eq_none]
  simp only [Bool.not_eq_true', Bool.not_eq_false, contains_population]
  rfl

theorem search_eq_some_iff {addresses : List String} {address : String} :
    s.search addresses = some address ↔ s.FirstUnknown addresses address := by
  rw [search, List.find?_eq_some_iff_append]
  simp only [Bool.not_not, Bool.not_eq_true', ← Bool.not_eq_true, contains_population]
  constructor
  · rintro ⟨hno, before, after, heq, hbefore⟩
    exact ⟨before, after, heq, hbefore, hno⟩
  · rintro ⟨before, after, heq, hbefore, hno⟩
    exact ⟨hno, before, after, heq, hbefore⟩

/-- Links are searched before events, and each list from its front. -/
theorem unknown?_eq (s : Scenario) : s.unknown? =
    (s.links.findSome? fun l => s.search [l.a, l.b]).or
      (s.events.findSome? fun e => s.search e.removes) := by
  show s.references.find? _ = _
  rw [references, List.find?_append, List.find?_flatMap, List.find?_flatMap]
  rfl

theorem links_eq_none_iff : (s.links.findSome? fun l => s.search [l.a, l.b]) = none ↔
    ∀ l ∈ s.links, s.Knows l.a ∧ s.Knows l.b := by
  simp only [List.findSome?_eq_none_iff, search_eq_none_iff, List.mem_cons, List.not_mem_nil,
    or_false, forall_eq_or_imp, forall_eq]

theorem unknown?_eq_some_iff {address : String} : s.unknown? = some address ↔ s.Refused address := by
  rw [unknown?_eq, Option.or_eq_some_iff, links_eq_none_iff, List.findSome?_eq_some_iff,
    List.findSome?_eq_some_iff]
  simp only [search_eq_some_iff, search_eq_none_iff]
  constructor
  · rintro (⟨before, l, after, heq, h, hbefore⟩ | ⟨hlinks, before, e, after, heq, h, hbefore⟩)
    · exact .link heq (fun k hk => ⟨hbefore k hk _ List.mem_cons_self,
        hbefore k hk _ (List.mem_cons_of_mem _ List.mem_cons_self)⟩) h
    · exact .event hlinks heq hbefore h
  · rintro (⟨heq, hbefore, h⟩ | ⟨hlinks, heq, hbefore, h⟩)
    · refine .inl ⟨_, _, _, heq, h, fun k hk x hx => ?_⟩
      rcases List.mem_cons.1 hx with rfl | hx
      · exact (hbefore k hk).1
      · exact List.mem_singleton.1 hx ▸ (hbefore k hk).2
    · exact .inr ⟨hlinks, _, _, _, heq, h, hbefore⟩

theorem unknown?_eq_none_iff : s.unknown? = none ↔
    (∀ l ∈ s.links, s.Knows l.a ∧ s.Knows l.b) ∧ ∀ e ∈ s.events, ∀ x ∈ e.removes, s.Knows x := by
  rw [unknown?_eq, Option.or_eq_none_iff, links_eq_none_iff, List.findSome?_eq_none_iff]
  simp only [search_eq_none_iff]

theorem build_eq_error_iff {address : String} :
    s.build = .error (.unknownAddress address) ↔ s.Refused address := by
  rw [← unknown?_eq_some_iff, build]
  cases s.unknown? with
  | none => exact ⟨nofun, nofun⟩
  | some x => simp

theorem build_eq_ok_iff {stage : Stage} : s.build = .ok stage ↔ s.unknown? = none ∧
    stage = ⟨s.mesh, .ofAddress s.localAddress, s.events.map (.map NodeId.ofAddress)⟩ := by
  rw [build]
  cases s.unknown? with
  | none => simp [eq_comm]
  | some x => simp

theorem of_build {stage : Stage} (h : s.build = .ok stage) :
    stage.mesh = s.mesh ∧ stage.localId = .ofAddress s.localAddress := by
  obtain ⟨-, rfl⟩ := build_eq_ok_iff.1 h
  exact ⟨rfl, rfl⟩

/-- **A scenario builds what its lists say.**  It is refused exactly for the first address that has to be
known and is not, and it is built exactly if all these addresses are known: both ends of every link, and
what events remove.  The mesh that is built has the known nodes, each under the first address of its
identity and with the last cost that an entry of the identity tells.  Its links are the pairs of
different nodes that an entry joins in either direction, each with the cost of the last such entry.  The
script is the one of the scenario, event by event, with identities for addresses. -/
theorem build_exact (s : Scenario) :
    (∀ address, s.build = .error (.unknownAddress address) ↔ s.Refused address) ∧
    ((∃ stage, s.build = .ok stage) ↔ (∀ l ∈ s.links, s.Knows l.a ∧ s.Knows l.b) ∧
      (∀ x, .nodeGone x ∈ s.events → s.Knows x) ∧
      ∀ x y, .linkGone x y ∈ s.events → s.Knows x ∧ s.Knows y) ∧
    ∀ stage, s.build = .ok stage →
      stage.localId = .ofAddress s.localAddress ∧
      (∀ id, stage.mesh.contains id = true ↔ s.KnowsId id) ∧
      (∀ id site, stage.mesh.site? id = some site →
        s.addresses.find? (NodeId.ofAddress · = id) = some site.address ∧
        site.cost = latest (Node.cost? id) s.nodes) ∧
      (∀ a b c, (b, c) ∈ stage.mesh.neighbors a ↔
        a ≠ b ∧ latest (Link.cost? s(a, b)) s.links = some c) ∧
      stage.events = s.events.map (.map NodeId.ofAddress) := by
  refine ⟨fun address => build_eq_error_iff, ?_, fun stage hstage => ?_⟩
  · simp only [build_eq_ok_iff, exists_and_left, exists_eq, and_true, unknown?_eq_none_iff]
    refine and_congr_right fun _ => ⟨fun h => ⟨fun x hx => ?_, fun x y hxy => ⟨?_, ?_⟩⟩, ?_⟩
    · exact h _ hx x List.mem_cons_self
    · exact h _ hxy x List.mem_cons_self
    · exact h _ hxy y (List.mem_cons_of_mem _ List.mem_cons_self)
    · rintro ⟨hnode, hlink⟩ e he x hx
      cases e with
      | nodeGone y => exact List.mem_singleton.1 hx ▸ hnode y he
      | linkGone y z =>
        rcases List.mem_cons.1 hx with rfl | hx
        · exact (hlink x z he).1
        · exact List.mem_singleton.1 hx ▸ (hlink y z he).2
      | node y cost => exact absurd hx List.not_mem_nil
      | link y z cost => exact absurd hx List.not_mem_nil
      | wait millis => exact absurd hx List.not_mem_nil
  · obtain ⟨hknown, rfl⟩ := build_eq_ok_iff.1 hstage
    obtain ⟨hlinks, -⟩ := unknown?_eq_none_iff.1 hknown
    refine ⟨rfl, fun id => s.contains_mesh, fun id site hsite => ⟨?_, ?_⟩, fun a b c => ?_, rfl⟩
    · rw [← address?_mesh, Mesh.address?, hsite, Option.map_some]
    · rw [← cost?_mesh, Mesh.cost?, hsite, Option.bind_some]
    · rw [Mesh.mem_neighbors_iff]
      by_cases hab : a = b
      · subst hab
        rw [s.wellFormed_mesh.loopless]
        exact iff_of_false (Option.some_ne_none c).symm fun h => h.1 rfl
      · rw [s.link?_mesh hlinks hab, and_iff_right hab]

end Scenario
end MeshView
