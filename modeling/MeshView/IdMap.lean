/-
# Maps and sets in identity order

An `IdMap` holds at most one value per identity and lists its entries in ascending order.  The
order is part of the type, so two maps with the same lookups are equal (`ext_get?`).  Each
operation is described by its effect on lookups: `get?_insert`, `get?_erase`, `get?_modify`.
-/

import MeshView.Identity

namespace MeshView

/-- Values by identity, in ascending order of the identities. -/
structure IdMap (β : Type) where
  entries : List (NodeId × β)
  sorted : entries.Pairwise (fun x y => x.1 < y.1)

namespace IdMap
variable {β : Type}

/-- The value at `id` in a list of entries. -/
def find (id : NodeId) : List (NodeId × β) → Option β
  | [] => none
  | (k, v) :: rest => if k = id then some v else find id rest

/-- Puts an entry in its place in an ascending list, over an entry of the same identity. -/
def place (id : NodeId) (value : β) : List (NodeId × β) → List (NodeId × β)
  | [] => [(id, value)]
  | (k, v) :: rest =>
    if id < k then (id, value) :: (k, v) :: rest
    else if k = id then (id, value) :: rest
    else (k, v) :: place id value rest

theorem mem_place {id : NodeId} {value : β} {entries : List (NodeId × β)} {e : NodeId × β}
    (h : e ∈ place id value entries) : e = (id, value) ∨ e ∈ entries := by
  induction entries with
  | nil => simpa [place] using h
  | cons head rest ih =>
    obtain ⟨k, v⟩ := head
    simp only [place] at h
    split at h
    · simpa using h
    · split at h
      · rcases List.mem_cons.mp h with h | h
        · exact .inl h
        · exact .inr (List.mem_cons_of_mem _ h)
      · rcases List.mem_cons.mp h with h | h
        · exact .inr (h ▸ List.mem_cons_self)
        · exact (ih h).imp_right (List.mem_cons_of_mem _)

theorem place_sorted (id : NodeId) (value : β) {entries : List (NodeId × β)}
    (h : entries.Pairwise (fun x y => x.1 < y.1)) :
    (place id value entries).Pairwise (fun x y => x.1 < y.1) := by
  induction entries with
  | nil => simp [place]
  | cons head rest ih =>
    obtain ⟨k, v⟩ := head
    have hrest := List.pairwise_cons.mp h
    simp only [place]
    split
    · rename_i hlt
      refine List.pairwise_cons.mpr ⟨fun e he => ?_, h⟩
      rcases List.mem_cons.mp he with he | he
      · exact he ▸ hlt
      · exact NodeId.lt_trans hlt (hrest.1 e he)
    · split
      · rename_i heq
        exact List.pairwise_cons.mpr ⟨fun e he => heq ▸ hrest.1 e he, hrest.2⟩
      · rename_i hlt hne
        refine List.pairwise_cons.mpr ⟨fun e he => ?_, ih hrest.2⟩
        rcases mem_place he with he | he
        · exact he ▸ NodeId.lt_of_not_lt (fun e => hne e.symm) hlt
        · exact hrest.1 e he

def empty : IdMap β := ⟨[], List.Pairwise.nil⟩

instance : EmptyCollection (IdMap β) := ⟨empty⟩
instance : Inhabited (IdMap β) := ⟨empty⟩

instance [DecidableEq β] : DecidableEq (IdMap β) := fun m n =>
  if h : m.entries = n.entries then
    isTrue (by obtain ⟨_, _⟩ := m; obtain ⟨_, _⟩ := n; cases h; rfl)
  else isFalse fun e => h (e ▸ rfl)

/-- The value at `id`. -/
def get? (m : IdMap β) (id : NodeId) : Option β := find id m.entries

def contains (m : IdMap β) (id : NodeId) : Bool := (m.get? id).isSome

instance : Membership NodeId (IdMap β) := ⟨fun m id => m.contains id = true⟩

instance (id : NodeId) (m : IdMap β) : Decidable (id ∈ m) :=
  inferInstanceAs (Decidable (m.contains id = true))

/-- The identities, ascending. -/
def keys (m : IdMap β) : List NodeId := m.entries.map Prod.fst

/-- The values, in the order of their identities. -/
def values (m : IdMap β) : List β := m.entries.map Prod.snd

def size (m : IdMap β) : Nat := m.entries.length

def isEmpty (m : IdMap β) : Bool := m.entries.isEmpty

/-- Sets the value at `id`. -/
def insert (m : IdMap β) (id : NodeId) (value : β) : IdMap β :=
  ⟨place id value m.entries, place_sorted id value m.sorted⟩

/-- Removes the value at `id`, if there is one. -/
def erase (m : IdMap β) (id : NodeId) : IdMap β :=
  ⟨m.entries.filter (fun e => e.1 ≠ id), m.sorted.filter _⟩

/-- Changes the value at `id`, if there is one. -/
def modify (m : IdMap β) (id : NodeId) (change : β → β) : IdMap β :=
  ⟨m.entries.map fun e => if e.1 = id then (e.1, change e.2) else e, by
    rw [List.pairwise_map]
    refine m.sorted.imp fun {x y} h => ?_
    split <;> split <;> exact h⟩

/-- Later entries replace earlier ones of the same identity. -/
def ofList (entries : List (NodeId × β)) : IdMap β :=
  entries.foldl (fun m e => m.insert e.1 e.2) empty

theorem find_eq_none_of_lt {id : NodeId} {entries : List (NodeId × β)}
    (h : ∀ e ∈ entries, id < e.1) : find id entries = none := by
  induction entries with
  | nil => rfl
  | cons head rest ih =>
    have hhead := h head List.mem_cons_self
    simp only [find, (NodeId.ne_of_lt hhead).symm, if_false]
    exact ih fun e he => h e (List.mem_cons_of_mem _ he)

theorem find_eq_some_iff {id : NodeId} {value : β} {entries : List (NodeId × β)}
    (h : entries.Pairwise (fun x y => x.1 < y.1)) :
    find id entries = some value ↔ (id, value) ∈ entries := by
  induction entries with
  | nil => simp [find]
  | cons head rest ih =>
    obtain ⟨k, v⟩ := head
    have hrest := List.pairwise_cons.mp h
    by_cases hk : k = id
    · subst hk
      have hno : (k, value) ∉ rest := fun hm => NodeId.lt_irrefl k (hrest.1 _ hm)
      simp [find, hno, eq_comm]
    · have : (id, value) ≠ (k, v) := fun e => hk (congrArg Prod.fst e).symm
      simp [find, hk, ih hrest.2, this]

@[simp] theorem get?_empty (id : NodeId) : (∅ : IdMap β).get? id = none := rfl

theorem get?_eq_some_iff {m : IdMap β} {id : NodeId} {value : β} :
    m.get? id = some value ↔ (id, value) ∈ m.entries := find_eq_some_iff m.sorted

theorem find_place (id id' : NodeId) (value : β) (entries : List (NodeId × β)) :
    find id' (place id value entries) = if id = id' then some value else find id' entries := by
  induction entries with
  | nil => simp [place, find]
  | cons head rest ih =>
    obtain ⟨k, v⟩ := head
    simp only [place]
    split
    · simp [find]
    · split
      · rename_i hk
        by_cases h : id = id' <;> simp [find, h, hk]
      · rename_i hk
        by_cases h : k = id'
        · subst h
          have : ¬ id = k := fun e => hk e.symm
          simp [find, this]
        · simp [find, h, ih]

theorem get?_insert (m : IdMap β) (id id' : NodeId) (value : β) :
    (m.insert id value).get? id' = if id = id' then some value else m.get? id' :=
  find_place id id' value m.entries

theorem get?_erase (m : IdMap β) (id id' : NodeId) :
    (m.erase id).get? id' = if id = id' then none else m.get? id' := by
  apply Option.ext
  intro value
  rw [get?_eq_some_iff]
  by_cases h : id = id'
  · simp [erase, h]
  · have hne : ¬ id' = id := fun e => h e.symm
    simp [erase, h, hne, get?_eq_some_iff]

theorem get?_modify (m : IdMap β) (id id' : NodeId) (change : β → β) :
    (m.modify id change).get? id' = if id = id' then (m.get? id').map change else m.get? id' := by
  simp only [modify, get?]
  generalize m.entries = entries
  induction entries with
  | nil => simp [find]
  | cons head rest ih =>
    obtain ⟨k, v⟩ := head
    by_cases hk : k = id
    · subst hk
      by_cases h : k = id' <;> simp_all [find]
    · by_cases h : k = id'
      · subst h
        have : ¬ id = k := fun e => hk e.symm
        simp [find, hk, this]
      · simp only [List.map_cons, hk, if_false, find, h, ih]

theorem mem_iff {m : IdMap β} {id : NodeId} : id ∈ m ↔ ∃ value, m.get? id = some value :=
  Option.isSome_iff_exists

theorem mem_keys {m : IdMap β} {id : NodeId} : id ∈ m.keys ↔ id ∈ m := by
  simp only [keys, List.mem_map, mem_iff, get?_eq_some_iff]
  constructor
  · rintro ⟨⟨k, v⟩, h, rfl⟩
    exact ⟨v, h⟩
  · rintro ⟨v, h⟩
    exact ⟨(id, v), h, rfl⟩

theorem keys_sorted (m : IdMap β) : m.keys.Pairwise (· < ·) := List.pairwise_map.mpr m.sorted

/-- Of two lists with the same lookups, the first key of one is not before all keys of the other. -/
theorem not_lt_head_of_find_eq {x y : NodeId × β} {xs ys : List (NodeId × β)}
    (hy : (y :: ys).Pairwise (fun x y => x.1 < y.1))
    (h : ∀ id, find id (x :: xs) = find id (y :: ys)) : ¬ x.1 < y.1 := by
  intro hlt
  have hnone : find x.1 (y :: ys) = none := by
    apply find_eq_none_of_lt
    intro e he
    rcases List.mem_cons.mp he with rfl | he
    · exact hlt
    · exact NodeId.lt_trans hlt ((List.pairwise_cons.mp hy).1 e he)
  have hsome := h x.1
  rw [hnone] at hsome
  simp [find] at hsome

theorem eq_of_find_eq {xs ys : List (NodeId × β)} (hx : xs.Pairwise (fun x y => x.1 < y.1))
    (hy : ys.Pairwise (fun x y => x.1 < y.1)) (h : ∀ id, find id xs = find id ys) : xs = ys := by
  induction xs generalizing ys with
  | nil =>
    cases ys with
    | nil => rfl
    | cons y _ => have := h y.1; simp [find] at this
  | cons x xs ih =>
    have hx' := List.pairwise_cons.mp hx
    cases ys with
    | nil => have := h x.1; simp [find] at this
    | cons y ys =>
      have hy' := List.pairwise_cons.mp hy
      have hxy : x.1 = y.1 := by
        apply Classical.byContradiction
        intro hne
        have hlt := NodeId.lt_of_not_lt hne (not_lt_head_of_find_eq hy h)
        exact not_lt_head_of_find_eq hx (fun id => (h id).symm) hlt
      obtain ⟨k, v⟩ := x
      obtain ⟨k', v'⟩ := y
      cases hxy
      have hv := h k
      simp only [find, if_true, Option.some.injEq] at hv
      subst hv
      congr 1
      refine ih hx'.2 hy'.2 fun id => ?_
      by_cases hid : k = id
      · subst hid
        rw [find_eq_none_of_lt fun e he => hx'.1 e he, find_eq_none_of_lt fun e he => hy'.1 e he]
      · simpa [find, hid] using h id

/-- A map is determined by its lookups. -/
theorem ext_get? {m n : IdMap β} (h : ∀ id, m.get? id = n.get? id) : m = n := by
  have := eq_of_find_eq m.sorted n.sorted h
  obtain ⟨_, _⟩ := m
  obtain ⟨_, _⟩ := n
  cases this
  rfl

end IdMap

/-- A set of identities in ascending order. -/
abbrev IdSet := IdMap Unit

namespace IdSet

/-- Adds an identity. -/
def add (s : IdSet) (id : NodeId) : IdSet := s.insert id ()

def ofIds (ids : List NodeId) : IdSet := ids.foldl add IdMap.empty

theorem mem_add {s : IdSet} {id id' : NodeId} : id' ∈ s.add id ↔ id = id' ∨ id' ∈ s := by
  simp only [IdMap.mem_iff, add, IdMap.get?_insert]
  by_cases h : id = id' <;> simp [h]

end IdSet
end MeshView
