/-
# Random meshes are connected

The numbers that are drawn for a random mesh decide the costs of its nodes and links and the pairs that
shortcuts join.  All else is the same for every source of numbers: the nodes are the numbered ones, and
the chain links each to the next.  So a random mesh is one that lists describe (`exists_plan`), and a plan
says all that is common to the meshes of a size.

Shortcuts may repeat each other or the chain, in either direction, and join nothing when both ends are
the same node.  They replace costs and add at most one pair each, so the links are as many as the chain
has and at most as many more as there are shortcuts (`Plan.card_edges`).  The chain alone connects all
nodes (`Plan.connected`).

Numbers are written in decimal between separators that are not digits, so different numbers have
different addresses (`numberedAddress_injective`).  That these have different identities is assumed.
-/

import MeshView.Mesh.Random
import MeshView.Proofs.Json.Tokens
import MeshView.Proofs.Mesh.Partition
import MeshView.Proofs.Mesh.Survey

namespace MeshView

/-! ## Draws -/

namespace Draws
variable {σ : Type} (draw : Draws σ) (s : σ)

/-- Every number of a range is drawn from it if the source yields how far it is from the lower end. -/
theorem between_eq {low high n : Nat} (hlow : low ≤ n) (hhigh : n ≤ high)
    (hdraw : (draw s).1 = n - low) : (draw.between low high s).1 = n := by
  show low + (draw s).1 % (high + 1 - low) = n
  rw [hdraw, Nat.mod_eq_of_lt (by omega)]
  omega

theorem cost_within {low high : Nat} (h : low ≤ high) (hhigh : high < 2 ^ 32) :
    (draw.cost low high s).1.Within low high := by
  have hrange := draw.between_range h s
  have hvalue : (draw.cost low high s).1.value.toNat = (draw.between low high s).1 :=
    UInt32.toNat_ofNat_of_lt' (hrange.2.trans_lt hhigh)
  rwa [Cost.Within, hvalue]

/-- What is drawn from a list is the element at an index that is in its range. -/
theorem getElem?_pick (first : NodeId) (others : List NodeId) :
    (first :: others)[(draw.between 0 others.length s).1]? = some (draw.pick first others s).1 := by
  have hrange := (draw.between_range (Nat.zero_le others.length) s).2
  have hindex : (draw.between 0 others.length s).1 < (first :: others).length :=
    Nat.lt_succ_of_le hrange
  show _ = some ((first :: others).getD (draw.between 0 others.length s).1 first)
  rw [List.getD_eq_getElem?_getD, List.getElem?_eq_getElem hindex, Option.getD_some]

theorem pick_mem (first : NodeId) (others : List NodeId) :
    (draw.pick first others s).1 ∈ first :: others :=
  List.mem_of_getElem? (draw.getElem?_pick s first others)

end Draws

namespace Mesh

/-! ## Addresses -/

theorem toList_numberedAddress (i : Nat) : (numberedAddress i).toList =
    "udp://10.0.".toList ++
      (Json.renderNat (i / 256) ++ '.' :: (Json.renderNat (i % 256) ++ ":9000".toList)) := by
  simp [numberedAddress, Json.renderNat, toString]

/-- **Different numbers have different addresses.** -/
theorem numberedAddress_injective : Function.Injective numberedAddress := by
  intro i j h
  have htext := congrArg String.toList h
  rw [toList_numberedAddress, toList_numberedAddress] at htext
  have hnumbers := List.append_cancel_left htext
  have hdot : ∀ rest : List Char, ∀ c ∈ ('.' :: rest).head?, c.isDigit = false := by
    rintro rest c ⟨⟩
    rfl
  have hcolon : ∀ c ∈ ":9000".toList.head?, c.isDigit = false := by
    rintro c ⟨⟩
    rfl
  have hquotient := congrArg (List.takeWhile Char.isDigit) hnumbers
  have hrest := congrArg (List.dropWhile Char.isDigit) hnumbers
  rw [Json.takeWhile_renderNat (hdot _), Json.takeWhile_renderNat (hdot _)] at hquotient
  rw [Json.dropWhile_renderNat (hdot _), Json.dropWhile_renderNat (hdot _)] at hrest
  have hremainder := congrArg (List.takeWhile Char.isDigit) (List.cons.inj hrest).2
  rw [Json.takeWhile_renderNat hcolon, Json.takeWhile_renderNat hcolon] at hremainder
  have hq := congrArg Json.valueOf hquotient
  have hr := congrArg Json.valueOf hremainder
  rw [Json.valueOf_renderNat, Json.valueOf_renderNat] at hq hr
  omega

/-- The identity of the node of a number. -/
def numberedId (i : Nat) : NodeId := .ofAddress (numberedAddress i)

theorem numberedIds_eq (count : Nat) : numberedIds count = (List.range count).map numberedId := rfl

theorem length_numberedIds (count : Nat) : (numberedIds count).length = count := by
  rw [numberedIds_eq, List.length_map, List.length_range]

theorem mem_numberedIds {count : Nat} {id : NodeId} :
    id ∈ numberedIds count ↔ ∃ i < count, numberedId i = id := by
  simp only [numberedIds_eq, List.mem_map, List.mem_range]

/-! ## Neighbours in a list -/

/-- The pairs of neighbours in a list. -/
def steps : List NodeId → List (NodeId × NodeId)
  | [] => []
  | [_] => []
  | a :: b :: rest => (a, b) :: steps (b :: rest)

theorem length_steps (ids : List NodeId) : (steps ids).length = ids.length - 1 := by
  fun_induction steps ids with
  | case1 => rfl
  | case2 => rfl
  | case3 a b rest ih =>
    rw [List.length_cons, ih]
    rfl

theorem mem_of_mem_steps {ids : List NodeId} {e : NodeId × NodeId} (h : e ∈ steps ids) :
    e.1 ∈ ids ∧ e.2 ∈ ids := by
  fun_induction steps ids with
  | case1 => cases h
  | case2 => cases h
  | case3 a b rest ih =>
    rcases List.mem_cons.1 h with rfl | h
    · exact ⟨List.mem_cons_self, List.mem_cons_of_mem _ List.mem_cons_self⟩
    · exact (ih h).imp (List.mem_cons_of_mem _) (List.mem_cons_of_mem _)

theorem isChain_of_steps {r : NodeId → NodeId → Prop} {ids : List NodeId}
    (h : ∀ e ∈ steps ids, r e.1 e.2) : ids.IsChain r := by
  fun_induction steps ids with
  | case1 => exact .nil
  | case2 a => exact .singleton a
  | case3 a b rest ih =>
    exact .cons_cons (h _ List.mem_cons_self) (ih fun e he => h e (List.mem_cons_of_mem _ he))

/-- In a list without repetition no node is its own neighbour. -/
theorem ne_of_mem_steps {ids : List NodeId} (hids : ids.Nodup) {e : NodeId × NodeId}
    (h : e ∈ steps ids) : e.1 ≠ e.2 := by
  fun_induction steps ids with
  | case1 => cases h
  | case2 => cases h
  | case3 a b rest ih =>
    rcases List.mem_cons.1 h with rfl | h
    · exact fun he => (List.nodup_cons.1 hids).1 (List.mem_cons.2 (.inl he))
    · exact ih hids.of_cons h

/-- Each pair leaves a node behind that no later pair has. -/
theorem nodup_steps {ids : List NodeId} (hids : ids.Nodup) :
    ((steps ids).map fun e => s(e.1, e.2)).Nodup := by
  fun_induction steps ids with
  | case1 => exact List.nodup_nil
  | case2 => exact List.nodup_nil
  | case3 a b rest ih =>
    rw [List.map_cons, List.nodup_cons]
    refine ⟨fun hmem => ?_, ih hids.of_cons⟩
    obtain ⟨e, he, hpair⟩ := List.mem_map.1 hmem
    have hafter := mem_of_mem_steps he
    have hnew := (List.nodup_cons.1 hids).1
    rcases Sym2.eq_iff.1 hpair with ⟨ha, -⟩ | ⟨-, ha⟩
    · exact hnew ((show e.1 = a from ha) ▸ hafter.1)
    · exact hnew ((show e.2 = a from ha) ▸ hafter.2)

/-! ## What is drawn -/

/-- The entry joins two different ones of the nodes, at a cost from 1 to 20. -/
structure Joins (ids : List NodeId) (l : NodeId × NodeId × Cost) : Prop where
  ne : l.1 ≠ l.2.1
  mem : l.1 ∈ ids ∧ l.2.1 ∈ ids
  cost : l.2.2.Within 1 20

/-- The entries may be the shortcuts of a mesh: at most `extra`, and none between two nodes, which the
chain joins. -/
structure Shortcuts (count extra : Nat) (links : List (NodeId × NodeId × Cost)) : Prop where
  join : ∀ l ∈ links, Joins (numberedIds count) l
  length_le : links.length ≤ extra
  eq_nil : count ≤ 2 → links = []

theorem shortcuts_none (count extra : Nat) : Shortcuts count extra [] :=
  ⟨fun _ hl => absurd hl List.not_mem_nil, Nat.zero_le _, fun _ => rfl⟩

/-- The lists that a random mesh is built from. -/
structure Plan (count extra : Nat) where
  nodes : List (String × Option Cost)
  chain : List (NodeId × NodeId × Cost)
  shortcuts : List (NodeId × NodeId × Cost)
  /-- The nodes are the numbered ones in their order. -/
  addresses : nodes.map Prod.fst = (List.range count).map numberedAddress
  nodeCosts : ∀ n ∈ nodes, ∃ c : Cost, n.2 = some c ∧ c.Within 1 10
  /-- The chain links each node to the next one. -/
  chain_steps : chain.map (fun l => (l.1, l.2.1)) = steps (numberedIds count)
  chainCosts : ∀ l ∈ chain, l.2.2.Within 1 20
  drawn : Shortcuts count extra shortcuts

section Draw
variable {σ : Type} (draw : Draws σ)

theorem scatter_eq (numbers : List Nat) (m : Mesh) (s : σ) :
    ∃ nodes, (scatter draw numbers m s).1 = m.addNodes nodes ∧
      nodes.map Prod.fst = numbers.map numberedAddress ∧
      ∀ n ∈ nodes, ∃ c : Cost, n.2 = some c ∧ c.Within 1 10 := by
  induction numbers generalizing m s with
  | nil => exact ⟨[], rfl, rfl, nofun⟩
  | cons i rest ih =>
    obtain ⟨nodes, hmesh, haddresses, hcosts⟩ := ih
      (m.addNode (numberedAddress i) (some (draw.cost 1 10 s).1)) (draw.cost 1 10 s).2
    refine ⟨(numberedAddress i, some (draw.cost 1 10 s).1) :: nodes, hmesh, ?_, ?_⟩
    · rw [List.map_cons, List.map_cons, haddresses]
    · exact List.forall_mem_cons.2
        ⟨⟨_, rfl, draw.cost_within s (by decide) (by decide)⟩, hcosts⟩

theorem chain_eq (ids : List NodeId) (m : Mesh) (s : σ) :
    ∃ links, (chain draw ids m s).1 = m.addLinks links ∧
      links.map (fun l => (l.1, l.2.1)) = steps ids ∧ ∀ l ∈ links, l.2.2.Within 1 20 := by
  fun_induction chain draw ids m s with
  | case1 a b rest m s cost s' hcost ih =>
    obtain ⟨links, hmesh, hsteps, hcosts⟩ := ih
    refine ⟨(a, b, cost) :: links, hmesh, ?_, List.forall_mem_cons.2 ⟨?_, hcosts⟩⟩
    · rw [List.map_cons, hsteps, steps]
    · have hwithin : (draw.cost 1 20 s).1.Within 1 20 :=
        draw.cost_within s (by decide) (by decide)
      rwa [hcost] at hwithin
  | case2 ids m s hshort =>
    refine ⟨[], rfl, ?_, nofun⟩
    match ids with
    | [] => rfl
    | [_] => rfl
    | a :: b :: rest => exact (hshort a b rest rfl).elim

theorem shortcuts_eq (first : NodeId) (others : List NodeId) (count : Nat) (m : Mesh) (s : σ) :
    ∃ links, (shortcuts draw first others count m s).1 = m.addLinks links ∧ links.length ≤ count ∧
      ∀ l ∈ links, Joins (first :: others) l := by
  fun_induction shortcuts draw first others count m s with
  | case1 m s => exact ⟨[], rfl, le_rfl, nofun⟩
  | case2 count m s a s₁ ha s₂ hb ih =>
    obtain ⟨links, hmesh, hlength, hjoin⟩ := ih
    exact ⟨links, hmesh, Nat.le_succ_of_le hlength, hjoin⟩
  | case3 count m s a s₁ ha b s₂ hb hne cost s₃ hcost ih =>
    obtain ⟨links, hmesh, hlength, hjoin⟩ := ih
    have hfirst := draw.pick_mem s first others
    have hsecond := draw.pick_mem s₁ first others
    have hwithin : (draw.cost 1 20 s₂).1.Within 1 20 :=
      draw.cost_within s₂ (by decide) (by decide)
    rw [ha] at hfirst
    rw [hb] at hsecond
    rw [hcost] at hwithin
    exact ⟨(a, b, cost) :: links, hmesh, Nat.succ_le_succ hlength,
      List.forall_mem_cons.2 ⟨⟨hne, ⟨hfirst, hsecond⟩, hwithin⟩, hjoin⟩⟩

/-- Shortcuts are drawn once the chain is made, from three nodes on. -/
theorem random_eq (count extra : Nat) (s : σ) :
    let scattered := scatter draw (List.range count) empty s
    ∃ links, (random draw count extra s).1 =
        (chain draw (numberedIds count) scattered.1 scattered.2).1.addLinks links ∧
      Shortcuts count extra links := by
  rw [random]
  dsimp only
  split
  · rename_i first others hids
    split
    · rename_i hcount
      obtain ⟨links, hmesh, hlength, hjoin⟩ := shortcuts_eq draw first others extra _ _
      exact ⟨links, hmesh, hids ▸ hjoin, hlength, fun h => absurd hcount (Nat.not_lt.2 h)⟩
    · exact ⟨[], rfl, shortcuts_none count extra⟩
  · exact ⟨[], rfl, shortcuts_none count extra⟩

/-- The mesh that a plan describes. -/
def Plan.mesh {count extra : Nat} (p : Plan count extra) : Mesh :=
  (empty.addNodes p.nodes).addLinks (p.chain ++ p.shortcuts)

/-- **Every random mesh has a plan**, whatever is drawn. -/
theorem exists_plan (count extra : Nat) (s : σ) :
    ∃ p : Plan count extra, (random draw count extra s).1 = p.mesh := by
  obtain ⟨more, hmore, hdrawn⟩ := random_eq draw count extra s
  obtain ⟨nodes, hnodes, haddresses, hnodeCosts⟩ := scatter_eq draw (List.range count) empty s
  obtain ⟨links, hlinks, hsteps, hlinkCosts⟩ := chain_eq draw (numberedIds count)
    (scatter draw (List.range count) empty s).1 (scatter draw (List.range count) empty s).2
  refine ⟨⟨nodes, links, more, haddresses, hnodeCosts, hsteps, hlinkCosts, hdrawn⟩, ?_⟩
  rw [hmore, hlinks, hnodes, Plan.mesh, addLinks_append]

end Draw

/-! ## What a plan describes -/

/-- Different numbers below the count have nodes with different identities. -/
def Distinct (count : Nat) : Prop :=
  ∀ i < count, ∀ j < count, numberedId i = numberedId j → numberedAddress i = numberedAddress j

theorem Distinct.nodup_numberedIds {count : Nat} (h : Distinct count) : (numberedIds count).Nodup := by
  rw [numberedIds_eq]
  refine List.Nodup.map_on (fun i hi j hj hij => ?_) List.nodup_range
  exact numberedAddress_injective (h i (List.mem_range.1 hi) j (List.mem_range.1 hj) hij)

namespace Plan
variable {count extra : Nat} (p : Plan count extra)

theorem wellFormed_mesh : p.mesh.WellFormed := wellFormed_empty.addNodes.addLinks

theorem contains_population {id : NodeId} :
    (empty.addNodes p.nodes).contains id = true ↔ id ∈ numberedIds count := by
  rw [contains_addNodes, p.addresses, or_iff_right Bool.noConfusion, mem_numberedIds]
  simp only [List.mem_map, List.mem_range, exists_exists_and_eq_and, numberedId]

theorem contains_mesh {id : NodeId} : p.mesh.contains id = true ↔ id ∈ numberedIds count := by
  rw [mesh, contains_addLinks, contains_population]

theorem exists_node {i : Nat} (hi : i < count) : ∃ n ∈ p.nodes, n.1 = numberedAddress i := by
  have hmem : numberedAddress i ∈ p.nodes.map Prod.fst := by
    rw [p.addresses]
    exact List.mem_map_of_mem (List.mem_range.2 hi)
  exact List.mem_map.1 hmem

/-- Every node has a cost, and only costs within the bounds are told. -/
theorem cost?_mesh {i : Nat} (hi : i < count) :
    ∃ c, p.mesh.cost? (numberedId i) = some c ∧ c.Within 1 10 := by
  have hcost : p.mesh.cost? (numberedId i) = latest (told (numberedId i)) p.nodes := by
    rw [mesh, cost?_congr (node?_addLinks _ _ _), cost?_addNodes]
    exact Option.or_none
  have hsaid : latest (told (numberedId i)) p.nodes ≠ none := by
    intro hnone
    obtain ⟨n, hn, haddress⟩ := p.exists_node hi
    obtain ⟨c, hc, -⟩ := p.nodeCosts n hn
    have htold := (latest_eq_none_iff _).1 hnone n hn
    rw [told, haddress, if_pos (show NodeId.ofAddress _ = numberedId i from rfl), hc] at htold
    cases htold
  obtain ⟨c, hc⟩ := Option.ne_none_iff_exists'.1 hsaid
  obtain ⟨n, hn, htold⟩ := mem_of_latest _ hc
  obtain ⟨c', hc', hwithin⟩ := p.nodeCosts n hn
  rw [told, hc', Option.ite_none_right_eq_some] at htold
  exact ⟨c, hcost.trans hc, Option.some.inj htold.2 ▸ hwithin⟩

theorem step_of_mem_chain {l : NodeId × NodeId × Cost} (hl : l ∈ p.chain) :
    (l.1, l.2.1) ∈ steps (numberedIds count) :=
  p.chain_steps ▸ List.mem_map_of_mem hl

/-- The ends of every link that is added are known. -/
theorem ends_mem {l : NodeId × NodeId × Cost} (hl : l ∈ p.chain ++ p.shortcuts) :
    l.1 ∈ numberedIds count ∧ l.2.1 ∈ numberedIds count := by
  rcases List.mem_append.1 hl with hl | hl
  · exact mem_of_mem_steps (p.step_of_mem_chain hl)
  · exact (p.drawn.join l hl).mem

theorem link_within {a b : NodeId} {c : Cost} (h : p.mesh.link? a b = some c) : c.Within 1 20 := by
  have hne : a ≠ b := p.wellFormed_mesh.ne_of_link? h
  have hnone : (empty.addNodes p.nodes).link? a b = none := link?_addNodes _ _ _ _
  rw [mesh, link?_addLinks (fun l hl => (p.ends_mem hl).imp p.contains_population.2
    p.contains_population.2) hne, hnone, Option.or_none] at h
  obtain ⟨l, hl, hgiven⟩ := mem_of_latest _ h
  rw [given, Option.ite_none_right_eq_some] at hgiven
  rw [← Option.some.inj hgiven.2]
  rcases List.mem_append.1 hl with hl | hl
  · exact p.chainCosts l hl
  · exact (p.drawn.join l hl).cost

section Distinct
variable (h : Distinct count)
include h

theorem size_mesh : p.mesh.size = count := by
  rw [size_eq_length h.nodup_numberedIds fun id => p.contains_mesh, length_numberedIds]

/-- Each node stands under the address of its own number. -/
theorem address?_mesh {i : Nat} (hi : i < count) :
    p.mesh.address? (numberedId i) = some (numberedAddress i) := by
  have haddress : p.mesh.address? (numberedId i) =
      ((List.range count).map numberedAddress).find? (NodeId.ofAddress · = numberedId i) := by
    rw [mesh, address?_addLinks, address?_addNodes, p.addresses]
    exact Option.none_or
  have hknown : p.mesh.contains (numberedId i) = true :=
    p.contains_mesh.2 (mem_numberedIds.2 ⟨i, hi, rfl⟩)
  rw [contains_eq_address?] at hknown
  obtain ⟨address, hsome⟩ := Option.isSome_iff_exists.1 hknown
  rw [haddress] at hsome
  obtain ⟨j, hj, rfl⟩ := List.mem_map.1 (List.mem_of_find?_eq_some hsome)
  have hfound := List.find?_some hsome
  have hid : numberedId j = numberedId i := of_decide_eq_true hfound
  rw [haddress, hsome, h j (List.mem_range.1 hj) i hi hid]

theorem canLink_population {l : NodeId × NodeId × Cost} (hl : l ∈ p.chain ++ p.shortcuts) :
    (empty.addNodes p.nodes).canLink l.1 l.2.1 = true := by
  refine canLink_iff.2 ⟨?_, (p.ends_mem hl).imp p.contains_population.2 p.contains_population.2⟩
  rcases List.mem_append.1 hl with hl | hl
  · exact ne_of_mem_steps h.nodup_numberedIds (p.step_of_mem_chain hl)
  · exact (p.drawn.join l hl).ne

/-- The links are the steps of the chain and the shortcuts. -/
theorem edges_mesh : p.mesh.edges =
    ((steps (numberedIds count)).map fun e => s(e.1, e.2)).toFinset ∪
      (p.shortcuts.map pair).toFinset := by
  have hempty : (empty.addNodes p.nodes).edges = ∅ := by
    refine Finset.eq_empty_of_forall_notMem fun e => ?_
    induction e with
    | h a b =>
      rw [wellFormed_empty.addNodes.mem_edges, Linked, not_not]
      exact link?_addNodes _ _ _ _
  have hchain : p.chain.map pair = (steps (numberedIds count)).map fun e => s(e.1, e.2) := by
    rw [← p.chain_steps, List.map_map]
    rfl
  rw [mesh, wellFormed_empty.addNodes.edges_addLinks fun l hl => p.canLink_population h hl, hempty,
    Finset.union_empty, List.map_append, List.toFinset_append, hchain]

/-- **The chain has a link less than there are nodes, and each shortcut adds one at most.** -/
theorem card_edges : count - 1 ≤ p.mesh.edges.card ∧ p.mesh.edges.card ≤ count - 1 + extra ∧
    (count ≤ 2 → p.mesh.edges.card = count - 1) := by
  have hsteps : ((steps (numberedIds count)).map fun e => s(e.1, e.2)).toFinset.card = count - 1 := by
    rw [List.toFinset_card_of_nodup (nodup_steps h.nodup_numberedIds), List.length_map, length_steps,
      length_numberedIds]
  have hshortcuts : (p.shortcuts.map pair).toFinset.card ≤ extra :=
    (List.toFinset_card_le _).trans ((List.length_map pair).trans_le p.drawn.length_le)
  rw [p.edges_mesh h]
  refine ⟨?_, ?_, fun hcount => ?_⟩
  · exact hsteps.symm.trans_le (Finset.card_le_card Finset.subset_union_left)
  · exact (Finset.card_union_le _ _).trans (Nat.add_le_add hsteps.le hshortcuts)
  · rw [p.drawn.eq_nil hcount, List.map_nil, List.toFinset_nil, Finset.union_empty, hsteps]

theorem isChain_linked : (numberedIds count).IsChain p.mesh.Linked := by
  refine isChain_of_steps fun e he => ?_
  rw [← p.wellFormed_mesh.mem_edges, p.edges_mesh h, Finset.mem_union]
  exact .inl (List.mem_toFinset.2 (List.mem_map_of_mem he))

/-- **The chain connects all nodes.** -/
theorem connected {x y : NodeId} (hx : x ∈ numberedIds count) (hy : y ∈ numberedIds count) :
    Relation.ReflTransGen p.mesh.Linked x y := by
  have := p.wellFormed_mesh.path_symm
  have hpaths : (numberedIds count).IsChain (Relation.ReflTransGen p.mesh.Linked) :=
    (p.isChain_linked h).imp fun _ _ => .single
  exact (List.isChain_iff_pairwise.1 hpaths).forall_of_forall (fun _ _ => .refl) hx hy

end Distinct
end Plan

/-- **A random mesh is a connected graph of the size that is asked for**, whatever is drawn, if no two
generated addresses have the same identity.  The addresses are all different, and each index that is
drawn for the end of a shortcut is that of a node.  The mesh has the numbered nodes and no other, each
under its address and with a cost from 1 to 10.  Each is linked to the next one, and every link is
listed by both ends at the same cost from 1 to 20 and joins two different nodes.  The chain has one link
less than there are nodes and the shortcuts add at most one each, none to two nodes.  From each node
links lead to all of them.  So the mesh passes every check of a survey. -/
theorem random_connected {σ : Type} (draw : Draws σ) (count extra : Nat) (s : σ)
    (hdistinct : Distinct count) :
    let m := (random draw count extra s).1
    ((List.range count).map numberedAddress).Nodup ∧
    (∀ first others, numberedIds count = first :: others → ∀ s,
      (numberedIds count)[(draw.between 0 others.length s).1]? = some (draw.pick first others s).1) ∧
    (m.size = count ∧ ∀ id, m.contains id = true ↔ id ∈ numberedIds count) ∧
    (∀ i < count, ∃ site c, m.site? (numberedId i) = some site ∧
      site.address = numberedAddress i ∧ site.cost = some c ∧ c.Within 1 10) ∧
    (∀ i, i + 1 < count → ∃ c, (numberedId (i + 1), c) ∈ m.neighbors (numberedId i)) ∧
    (∀ a b c, (b, c) ∈ m.neighbors a →
      (a, c) ∈ m.neighbors b ∧ a ≠ b ∧ m.contains b = true ∧ c.Within 1 20) ∧
    (1 ≤ count → count - 1 ≤ m.linkCount ∧ m.linkCount ≤ count - 1 + extra ∧
      (count ≤ 2 → m.linkCount = count - 1)) ∧
    (∀ x, m.contains x = true → ∀ y, y ∈ m.component x ↔ m.contains y = true) ∧
    m.nodeCostsWithin 1 10 = true ∧ m.linkCostsWithin 1 20 = true ∧ m.isLoopless = true ∧
      m.isSymmetric = true ∧ m.isChain (numberedIds count) = true := by
  intro m
  obtain ⟨p, hp⟩ := exists_plan draw count extra s
  have hm : m = p.mesh := hp
  have hwf : m.WellFormed := hm ▸ p.wellFormed_mesh
  have hcontains : ∀ id, m.contains id = true ↔ id ∈ numberedIds count := fun id =>
    hm ▸ p.contains_mesh
  refine ⟨List.nodup_range.map numberedAddress_injective, fun first others hids s => ?_,
    ⟨hm ▸ p.size_mesh hdistinct, hcontains⟩, fun i hi => ?_, fun i hi => ?_, fun a b c hbc => ?_,
    fun _ => ?_, fun x hx y => ?_, ?_, ?_, hwf.isLoopless, hwf.isSymmetric, ?_⟩
  · rw [hids, draw.getElem?_pick]
  · obtain ⟨c, hc, hwithin⟩ := p.cost?_mesh hi
    have haddress := p.address?_mesh hdistinct hi
    rw [← hm] at hc haddress
    obtain ⟨site, hsite, hcost⟩ := Option.bind_eq_some_iff.1 hc
    rw [address?, hsite, Option.map_some, Option.some.injEq] at haddress
    exact ⟨site, c, hsite, haddress, hcost, hwithin⟩
  · have hlinked := List.isChain_iff_getElem.1 (p.isChain_linked hdistinct) i
      (by rwa [length_numberedIds])
    simp only [numberedIds_eq, List.getElem_map, List.getElem_range, ← hm, Linked,
      Option.ne_none_iff_exists'] at hlinked
    simpa only [mem_neighbors_iff] using hlinked
  · rw [mem_neighbors_iff] at hbc ⊢
    exact ⟨hwf.symm a b ▸ hbc, hwf.ne_of_link? hbc,
      hwf.contains_right (hbc ▸ Option.some_ne_none c), p.link_within (hm ▸ hbc)⟩
  · rw [hwf.linkCount_eq, hm]
    exact p.card_edges hdistinct
  · rw [hwf.mem_component, and_iff_right hx, hcontains]
    refine ⟨fun hpath => ?_, fun hy => hm ▸ p.connected hdistinct ((hcontains x).1 hx) hy⟩
    exact (hcontains y).1 (hwf.contains_of_mem_component (hwf.mem_component.2 ⟨hx, hpath⟩)).2
  · refine nodeCostsWithin_iff.2 fun id c hc => ?_
    obtain ⟨i, hi, rfl⟩ := mem_numberedIds.1 ((hcontains id).1 (contains_of_cost? hc))
    obtain ⟨c', hc', hwithin⟩ := p.cost?_mesh hi
    rw [← hm, hc, Option.some.injEq] at hc'
    exact hc' ▸ hwithin
  · exact linkCostsWithin_iff.2 fun a b c hc => p.link_within (hm ▸ hc)
  · exact hwf.isChain_iff.2 (hm ▸ p.isChain_linked hdistinct)

/-- The addresses of the first four numbers have different identities. -/
theorem random_connected_four :
    Distinct 4 ∧
    let m := (random Draws.congruential 4 3 2024).1
    m.size = 4 ∧ 3 ≤ m.linkCount ∧ m.linkCount ≤ 6 ∧
      ∀ x, m.contains x = true → ∀ y, y ∈ m.component x ↔ m.contains y = true := by
  have hdistinct : Distinct 4 := by
    unfold Distinct
    decide +kernel
  obtain ⟨-, -, ⟨hsize, -⟩, -, -, -, hlinks, hcomponent, -⟩ :=
    random_connected Draws.congruential 4 3 2024 hdistinct
  obtain ⟨hlow, hhigh, -⟩ := hlinks (by decide)
  exact ⟨hdistinct, hsize, hlow, hhigh, hcomponent⟩

end Mesh
end MeshView
