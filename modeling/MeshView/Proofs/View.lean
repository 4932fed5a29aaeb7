/-
# Views and their differences

A view is what an observer knows of a topology: which nodes there are and what they cost, and which
undirected links there are and what they cost.  `Diff.Exact` says that a list of differences is
exactly what separates two views: every key that appeared, went or changed is listed once, with the
value it has afterwards, and nothing else is.

A subscriber keeps a view by replaying the differences it gets, list by list (`View.replay`).  Exact
differences lead from the one view to the other (`Exact.replay_eq`).  Exact differences of two steps
join to exact differences of both, provided no key changes twice (`Exact.append`); this is how the
differences of a cascade are put together.
-/

import MeshView.Diff
import Mathlib.Data.Sym.Sym2
import Mathlib.Logic.Function.Basic

namespace MeshView

section Listed
variable {κ β : Type}

/-- The map after entries have been written one after another; an entry without value deletes. -/
def overwrite [DecidableEq κ] (m : κ → Option β) (entries : List (κ × Option β)) : κ → Option β :=
  entries.foldl (fun m e => Function.update m e.1 e.2) m

/-- The three lists name the keys that appeared, went or changed between two maps, each key once
and with what it stands for afterwards. -/
structure Listed (before after : κ → Option β) (added removed changed : List (κ × Option β)) :
    Prop where
  mem_added : ∀ k o, (k, o) ∈ added ↔ before k = none ∧ after k ≠ none ∧ o = after k
  mem_removed : ∀ k o, (k, o) ∈ removed ↔ before k ≠ none ∧ after k = none ∧ o = after k
  mem_changed : ∀ k o, (k, o) ∈ changed ↔
    before k ≠ none ∧ after k ≠ none ∧ before k ≠ after k ∧ o = after k
  added_nodup : (added.map Prod.fst).Nodup
  removed_nodup : (removed.map Prod.fst).Nodup
  changed_nodup : (changed.map Prod.fst).Nodup

section Overwrite
variable [DecidableEq κ]

theorem overwrite_append (m : κ → Option β) (xs ys : List (κ × Option β)) :
    overwrite m (xs ++ ys) = overwrite (overwrite m xs) ys :=
  List.foldl_append

/-- Entries that agree with a map write its values at their keys. -/
theorem overwrite_apply {m after : κ → Option β} {entries : List (κ × Option β)}
    (h : ∀ k o, (k, o) ∈ entries → o = after k) (k : κ) :
    overwrite m entries k = if k ∈ entries.map Prod.fst then after k else m k := by
  induction entries generalizing m with
  | nil => rfl
  | cons e entries ih =>
    have hrest : overwrite m (e :: entries) k =
        overwrite (Function.update m e.1 e.2) entries k := rfl
    rw [hrest, ih fun k o hm => h k o (List.mem_cons_of_mem _ hm)]
    simp only [List.map_cons, List.mem_cons]
    by_cases hk : k = e.1
    · subst hk
      simp only [Function.update_self, h e.1 e.2 List.mem_cons_self, ite_self, true_or, if_true]
    · simp only [hk, false_or, Function.update_of_ne (Ne.intro hk)]

theorem overwrite_update (m : κ → Option β) (entries : List (κ × Option β)) {k : κ}
    (o : Option β) (hk : k ∉ entries.map Prod.fst) :
    overwrite (Function.update m k o) entries = Function.update (overwrite m entries) k o := by
  induction entries generalizing m with
  | nil => rfl
  | cons e entries ih =>
    rw [List.map_cons, List.mem_cons, not_or] at hk
    show overwrite (Function.update (Function.update m k o) e.1 e.2) entries = _
    rw [Function.update_comm hk.1, ih _ hk.2]
    rfl

/-- Writing to different keys commutes. -/
theorem overwrite_comm (m : κ → Option β) {xs ys : List (κ × Option β)}
    (h : ∀ k ∈ ys.map Prod.fst, k ∉ xs.map Prod.fst) :
    overwrite (overwrite m xs) ys = overwrite (overwrite m ys) xs := by
  induction ys generalizing m with
  | nil => rfl
  | cons e ys ih =>
    show overwrite (Function.update (overwrite m xs) e.1 e.2) ys = _
    rw [← overwrite_update m xs e.2 (h _ List.mem_cons_self),
      ih _ fun k hk => h k (List.mem_cons_of_mem _ hk)]
    rfl

end Overwrite

namespace Listed
variable {before mid after : κ → Option β} {added removed changed : List (κ × Option β)}

theorem key_mem_added (h : Listed before after added removed changed) (k : κ) :
    k ∈ added.map Prod.fst ↔ before k = none ∧ after k ≠ none := by
  simp [h.mem_added]

theorem key_mem_removed (h : Listed before after added removed changed) (k : κ) :
    k ∈ removed.map Prod.fst ↔ before k ≠ none ∧ after k = none := by
  simp [h.mem_removed]

theorem key_mem_changed (h : Listed before after added removed changed) (k : κ) :
    k ∈ changed.map Prod.fst ↔ before k ≠ none ∧ after k ≠ none ∧ before k ≠ after k := by
  simp [h.mem_changed]

/-- What is listed leads from the one map to the other. -/
theorem overwrite_eq [DecidableEq κ] (h : Listed before after added removed changed) :
    overwrite (overwrite (overwrite before added) changed) removed = after := by
  classical
  funext k
  rw [overwrite_apply fun k o hm => ((h.mem_removed k o).1 hm).2.2,
    overwrite_apply fun k o hm => ((h.mem_changed k o).1 hm).2.2.2,
    overwrite_apply fun k o hm => ((h.mem_added k o).1 hm).2.2]
  simp only [h.key_mem_added, h.key_mem_removed, h.key_mem_changed]
  grind

/-- Between equal maps nothing is listed. -/
theorem refl (m : κ → Option β) : Listed m m [] [] [] where
  mem_added k o := by simpa using fun h h' => absurd h h'
  mem_removed k o := by simpa using fun h h' => absurd h' h
  mem_changed k o := by simp
  added_nodup := List.nodup_nil
  removed_nodup := List.nodup_nil
  changed_nodup := List.nodup_nil

theorem of_eq (h : after = before) : Listed before after [] [] [] := h ▸ refl before

/-- Nothing is listed only between equal maps. -/
theorem eq_nil_iff (h : Listed before after added removed changed) :
    added = [] ∧ removed = [] ∧ changed = [] ↔ before = after := by
  constructor
  · rintro ⟨rfl, rfl, rfl⟩
    classical exact h.overwrite_eq
  · rintro rfl
    refine ⟨List.eq_nil_iff_forall_not_mem.2 fun e he => ?_,
      List.eq_nil_iff_forall_not_mem.2 fun e he => ?_,
      List.eq_nil_iff_forall_not_mem.2 fun e he => ?_⟩
    · have := (h.mem_added e.1 e.2).1 he
      exact this.2.1 this.1
    · have := (h.mem_removed e.1 e.2).1 he
      exact this.1 this.2.1
    · exact ((h.mem_changed e.1 e.2).1 he).2.2.1 rfl

/-- Two steps of which no key takes part in both. -/
theorem append {added' removed' changed' : List (κ × Option β)}
    (h : Listed before mid added removed changed) (h' : Listed mid after added' removed' changed')
    (honce : ∀ k, before k = mid k ∨ mid k = after k) :
    Listed before after (added ++ added') (removed ++ removed') (changed ++ changed') where
  mem_added k o := by
    rw [List.mem_append, h.mem_added, h'.mem_added]
    rcases honce k with hk | hk <;> grind
  mem_removed k o := by
    rw [List.mem_append, h.mem_removed, h'.mem_removed]
    rcases honce k with hk | hk <;> grind
  mem_changed k o := by
    rw [List.mem_append, h.mem_changed, h'.mem_changed]
    rcases honce k with hk | hk <;> grind
  added_nodup := by
    rw [List.map_append]
    refine h.added_nodup.append h'.added_nodup fun k hk hk' => ?_
    rw [h.key_mem_added] at hk
    rw [h'.key_mem_added] at hk'
    exact hk.2 hk'.1
  removed_nodup := by
    rw [List.map_append]
    refine h.removed_nodup.append h'.removed_nodup fun k hk hk' => ?_
    rw [h.key_mem_removed] at hk
    rw [h'.key_mem_removed] at hk'
    exact hk'.1 hk.2
  changed_nodup := by
    rw [List.map_append]
    refine h.changed_nodup.append h'.changed_nodup fun k hk hk' => ?_
    rw [h.key_mem_changed] at hk
    rw [h'.key_mem_changed] at hk'
    exact (honce k).elim hk.2.2 hk'.2.2

/-- From nothing, every key of the map appears. -/
theorem of_added (hnodup : (added.map Prod.fst).Nodup)
    (hmem : ∀ k o, (k, o) ∈ added ↔ after k ≠ none ∧ o = after k) :
    Listed (fun _ => none) after added [] [] where
  mem_added k o := by rw [hmem, eq_self_iff_true, true_and]
  mem_removed k o := by simp
  mem_changed k o := by simp
  added_nodup := hnodup
  removed_nodup := List.nodup_nil
  changed_nodup := List.nodup_nil

/-- One key appears. -/
theorem single_added {k : κ} {v : β} (hk : before k = none) (hself : after k = some v)
    (hrest : ∀ x, x ≠ k → after x = before x) : Listed before after [(k, some v)] [] [] where
  mem_added x o := by
    rw [List.mem_singleton, Prod.mk.injEq]
    by_cases hx : x = k
    · subst hx
      simp [hk, hself]
    · simpa [hx, hrest x hx] using fun h h' => absurd h h'
  mem_removed x o := by
    by_cases hx : x = k
    · subst hx
      simp [hk]
    · simpa [hrest x hx] using fun h h' => absurd h' h
  mem_changed x o := by
    by_cases hx : x = k
    · subst hx
      simp [hk]
    · simp [hrest x hx]
  added_nodup := List.nodup_singleton k
  removed_nodup := List.nodup_nil
  changed_nodup := List.nodup_nil

/-- One key takes another value. -/
theorem single_changed {k : κ} {v : β} (hk : before k ≠ none) (hv : before k ≠ some v)
    (hself : after k = some v) (hrest : ∀ x, x ≠ k → after x = before x) :
    Listed before after [] [] [(k, some v)] where
  mem_added x o := by
    by_cases hx : x = k
    · subst hx
      simp [hk]
    · simpa [hrest x hx] using fun h h' => absurd h h'
  mem_removed x o := by
    by_cases hx : x = k
    · subst hx
      simp [hself]
    · simpa [hrest x hx] using fun h h' => absurd h' h
  mem_changed x o := by
    rw [List.mem_singleton, Prod.mk.injEq]
    by_cases hx : x = k
    · subst hx
      simp [hk, hself, hv]
    · simp [hx, hrest x hx]
  added_nodup := List.nodup_nil
  removed_nodup := List.nodup_nil
  changed_nodup := List.nodup_singleton k

/-- One key goes. -/
theorem single_removed {k : κ} (hk : before k ≠ none) (hself : after k = none)
    (hrest : ∀ x, x ≠ k → after x = before x) : Listed before after [] [(k, none)] [] where
  mem_added x o := by
    by_cases hx : x = k
    · subst hx
      simp [hself]
    · simpa [hrest x hx] using fun h h' => absurd h h'
  mem_removed x o := by
    rw [List.mem_singleton, Prod.mk.injEq]
    by_cases hx : x = k
    · subst hx
      simp [hk, hself]
    · simpa [hx, hrest x hx] using fun h h' => absurd h' h
  mem_changed x o := by
    by_cases hx : x = k
    · subst hx
      simp [hself]
    · simp [hrest x hx]
  added_nodup := List.nodup_nil
  removed_nodup := List.nodup_singleton k
  changed_nodup := List.nodup_nil

end Listed
end Listed

/-- Nodes with their costs, and undirected links with theirs. -/
@[ext] structure View where
  nodes : NodeId → Option (Option Cost)
  links : Sym2 NodeId → Option Cost

/-- The two ends of a link, in no order. -/
def LinkChange.ends (e : LinkChange) : Sym2 NodeId := s(e.first, e.second)

/-- A link and what it costs; no cost stands for no link. -/
def LinkChange.entry (e : LinkChange) : Sym2 NodeId × Option Cost := (e.ends, e.cost)

namespace Diff

def addedNodes (d : Diff) : List (NodeId × Option (Option Cost)) :=
  d.nodesAdded.map fun e => (e.id, some e.cost)

def removedNodes (d : Diff) : List (NodeId × Option (Option Cost)) :=
  d.nodesRemoved.map fun id => (id, none)

def changedNodes (d : Diff) : List (NodeId × Option (Option Cost)) :=
  d.nodeCosts.map fun e => (e.id, some (some e.cost))

def addedLinks (d : Diff) : List (Sym2 NodeId × Option Cost) := d.linksAdded.map LinkChange.entry

def removedLinks (d : Diff) : List (Sym2 NodeId × Option Cost) :=
  d.linksRemoved.map LinkChange.entry

def changedLinks (d : Diff) : List (Sym2 NodeId × Option Cost) := d.linkCosts.map LinkChange.entry

section Append
variable (d d' : Diff)

theorem addedNodes_append : (d ++ d').addedNodes = d.addedNodes ++ d'.addedNodes :=
  List.map_append

theorem removedNodes_append : (d ++ d').removedNodes = d.removedNodes ++ d'.removedNodes :=
  List.map_append

theorem changedNodes_append : (d ++ d').changedNodes = d.changedNodes ++ d'.changedNodes :=
  List.map_append

theorem addedLinks_append : (d ++ d').addedLinks = d.addedLinks ++ d'.addedLinks :=
  List.map_append

theorem removedLinks_append : (d ++ d').removedLinks = d.removedLinks ++ d'.removedLinks :=
  List.map_append

theorem changedLinks_append : (d ++ d').changedLinks = d.changedLinks ++ d'.changedLinks :=
  List.map_append

end Append

theorem append_eq_empty_iff {x y : Diff} : x ++ y = ∅ ↔ x = ∅ ∧ y = ∅ := by
  obtain ⟨_, _, _, _, _, _⟩ := x
  obtain ⟨_, _, _, _, _, _⟩ := y
  show append _ _ = _ ↔ _
  simp only [append, EmptyCollection.emptyCollection, Diff.mk.injEq, List.append_eq_nil_iff]
  tauto

/-- The six lists name exactly what differs between two views, each node and each link at most once
in a list, and what appeared or changed with its new cost. -/
structure Exact (d : Diff) (before after : View) : Prop where
  nodes : Listed before.nodes after.nodes d.addedNodes d.removedNodes d.changedNodes
  links : Listed before.links after.links d.addedLinks d.removedLinks d.changedLinks

end Diff

namespace View

/-- Nothing is known. -/
def empty : View := ⟨fun _ => none, fun _ => none⟩

def writeNodes (v : View) (entries : List (NodeId × Option (Option Cost))) : View :=
  { v with nodes := overwrite v.nodes entries }

def writeLinks (v : View) (entries : List (Sym2 NodeId × Option Cost)) : View :=
  { v with links := overwrite v.links entries }

/-- Takes over differences list by list: new nodes, node costs, new links, link costs, lost links,
lost nodes, each list in its order. -/
def replay (v : View) (d : Diff) : View :=
  let v := v.writeNodes d.addedNodes
  let v := v.writeNodes d.changedNodes
  let v := v.writeLinks d.addedLinks
  let v := v.writeLinks d.changedLinks
  let v := v.writeLinks d.removedLinks
  v.writeNodes d.removedNodes

/-- Takes over any number of differences one after another. -/
def replayAll (v : View) (diffs : List Diff) : View := diffs.foldl replay v

theorem replayAll_append (v : View) (diffs diffs' : List Diff) :
    v.replayAll (diffs ++ diffs') = (v.replayAll diffs).replayAll diffs' :=
  List.foldl_append

/-- Joined differences are replayed list by list, not one after the other.  That makes no
difference if the first ones take nothing away and the second ones do not add again what the first
ones changed. -/
theorem replay_append (v : View) {d d' : Diff} (hnodes : d.removedNodes = [])
    (hlinks : d.removedLinks = [])
    (hnew : ∀ id ∈ d'.addedNodes.map Prod.fst, id ∉ d.changedNodes.map Prod.fst)
    (hnew' : ∀ p ∈ d'.addedLinks.map Prod.fst, p ∉ d.changedLinks.map Prod.fst) :
    v.replay (d ++ d') = (v.replay d).replay d' := by
  have hjoin {κ β : Type} [DecidableEq κ] (m : κ → Option β) {a c a' c' r r' : List (κ × Option β)}
      (hr : r = []) (hnew : ∀ k ∈ a'.map Prod.fst, k ∉ c.map Prod.fst) :
      overwrite (overwrite (overwrite m (a ++ a')) (c ++ c')) (r ++ r') =
        overwrite (overwrite (overwrite (overwrite (overwrite (overwrite m a) c) r) a') c') r' := by
    subst hr
    rw [List.nil_append, overwrite_append, overwrite_append, ← overwrite_comm _ hnew]
    rfl
  refine View.ext ?_ ?_
  · show overwrite (overwrite (overwrite v.nodes (d ++ d').addedNodes) (d ++ d').changedNodes)
      (d ++ d').removedNodes = _
    rw [Diff.addedNodes_append, Diff.changedNodes_append, Diff.removedNodes_append]
    exact hjoin v.nodes hnodes hnew
  · show overwrite (overwrite (overwrite v.links (d ++ d').addedLinks) (d ++ d').changedLinks)
      (d ++ d').removedLinks = _
    rw [Diff.addedLinks_append, Diff.changedLinks_append, Diff.removedLinks_append]
    exact hjoin v.links hlinks hnew'

end View

namespace Diff.Exact
variable {d d' : Diff} {before mid after : View}

/-- **Exact differences lead from the one view to the other.** -/
theorem replay_eq (h : d.Exact before after) : before.replay d = after :=
  View.ext h.nodes.overwrite_eq h.links.overwrite_eq

theorem refl (v : View) : (∅ : Diff).Exact v v := ⟨.refl _, .refl _⟩

theorem isEmpty_iff (h : d.Exact before after) : d.isEmpty = true ↔ before = after := by
  rw [View.ext_iff, ← h.nodes.eq_nil_iff, ← h.links.eq_nil_iff]
  simp only [Diff.isEmpty, Bool.and_eq_true, List.isEmpty_iff, addedNodes, removedNodes,
    changedNodes, addedLinks, removedLinks, changedLinks, List.map_eq_nil_iff]
  tauto

/-- The differences of two steps, if nothing changes in both. -/
theorem append (h : d.Exact before mid) (h' : d'.Exact mid after)
    (hnodes : ∀ id, before.nodes id = mid.nodes id ∨ mid.nodes id = after.nodes id)
    (hlinks : ∀ p, before.links p = mid.links p ∨ mid.links p = after.links p) :
    (d ++ d').Exact before after := by
  constructor
  · rw [addedNodes_append, removedNodes_append, changedNodes_append]
    exact h.nodes.append h'.nodes hnodes
  · rw [addedLinks_append, removedLinks_append, changedLinks_append]
    exact h.links.append h'.links hlinks

end Diff.Exact
end MeshView
