/-
# Records read back

A record is written as named members, in any order and possibly without some of its fields.  Reading
gives each field the value of its member, and nothing if it has none (`Source.fields?_eq`), as long as
no name is used twice.  That holds for JSON values and for contents of unknown shape alike, so whatever
reads its fields through a source reads back if its values do.
-/

import MeshView.Document.Content
import MeshView.Document.Identity
import MeshView.Json.Document
import Mathlib.Data.List.Nodup

namespace MeshView

/-- A function that finds a value for every element finds values for the list. -/
theorem mapM_eq_some {α β : Type} {f : α → Option β} {g : α → β} {xs : List α}
    (h : ∀ x ∈ xs, f x = some (g x)) : xs.mapM f = some (xs.map g) := by
  induction xs with
  | nil => rfl
  | cons x xs ih =>
    obtain ⟨hx, hxs⟩ := List.forall_mem_cons.1 h
    rw [List.mapM_cons, hx, ih hxs]
    rfl

namespace Source
variable {α : Type} {names : List String} {members : List (String × α)}

/-- A name is in one place. -/
theorem place?_name (hnames : names.Nodup) {index : Nat} (hindex : index < names.length)
    (name : String) : place? names (.name name) = some index ↔ name = names[index] := by
  rw [place?, List.findIdx?_eq_some_iff_getElem]
  constructor
  · rintro ⟨_, hname, _⟩
    exact (eq_of_beq hname).symm
  · rintro rfl
    refine ⟨hindex, beq_self_eq_true _, fun j hj heq => ?_⟩
    exact Nat.ne_of_lt hj (hnames.getElem_inj_iff.1 (eq_of_beq heq))

/-- Among members with different names, one at most has the name that is looked for. -/
theorem filter_name (hmembers : (members.map Prod.fst).Nodup) (name : String) :
    members.filter (fun m => decide (m.1 = name)) =
      ((List.lookup name members).map fun v => (name, v)).toList := by
  induction members with
  | nil => rfl
  | cons m members ih =>
    obtain ⟨k, v⟩ := m
    obtain ⟨hfresh, hrest⟩ := List.nodup_cons.1 hmembers
    by_cases hk : k = name
    · subst hk
      have hnone : members.filter (fun m => decide (m.1 = k)) = [] := by
        refine List.filter_eq_nil_iff.2 fun m hm heq => hfresh ?_
        exact List.mem_map.2 ⟨m, hm, of_decide_eq_true heq⟩
      simp [hnone]
    · have hlookup : List.lookup name ((k, v) :: members) = List.lookup name members := by
        rw [List.lookup_cons, beq_eq_false_iff_ne.2 (Ne.symm hk)]
      simp [hk, ih hrest, hlookup]

theorem field?_name (hnames : names.Nodup) (hmembers : (members.map Prod.fst).Nodup) {index : Nat}
    (hindex : index < names.length) :
    field? names (members.map fun m => (Key.name m.1, m.2)) index =
      some (List.lookup names[index] members) := by
  have hfilter : (members.map fun m => (Key.name m.1, m.2)).filter
      (fun e => place? names e.1 == some index) =
        ((List.lookup names[index] members).map fun v => (Key.name names[index], v)).toList := by
    have hsame : ∀ m : String × α, (place? names (.name m.1) == some index) =
        decide (m.1 = names[index]) := fun m => by
      rw [Bool.eq_iff_iff, beq_iff_eq, decide_eq_true_iff, place?_name hnames hindex]
    rw [List.filter_map]
    simp only [Function.comp_def, hsame, filter_name hmembers]
    cases List.lookup names[index] members <;> rfl
  rw [field?, hfilter]
  cases List.lookup names[index] members <;> rfl

/-- **The fields of a record are the values of its members**, and nothing where it has none. -/
theorem fields?_eq {source : Source α} {v : α}
    (hentries : source.entries? v = some (members.map fun m => (.name m.1, m.2)))
    (hmembers : (members.map Prod.fst).Nodup) (hnames : names.Nodup) :
    source.fields? names v = some (names.map fun name => List.lookup name members) := by
  have hfields : ∀ index ∈ List.range names.length,
      field? names (members.map fun m => (Key.name m.1, m.2)) index =
        some (List.lookup (names.getD index "") members) := by
    intro index hindex
    have hlt := List.mem_range.1 hindex
    rw [field?_name hnames hmembers hlt, List.getD_eq_getElem?_getD, List.getElem?_eq_getElem hlt]
    rfl
  rw [fields?, hentries]
  refine (mapM_eq_some hfields).trans (congrArg some (List.ext_getElem (by simp) ?_))
  intro index hindex hindex'
  have hlt : index < names.length := by simpa using hindex'
  simp [List.getElem?_eq_getElem hlt]

end Source

/-! ## JSON values -/

namespace Json
variable {β : Type} {read : Json → Option β} {write : β → Json}

theorem fields?_record {names : List String} {members : List (String × Json)}
    (hmembers : (members.map Prod.fst).Nodup) (hnames : names.Nodup) :
    source.fields? names (.record members) = some (names.map fun name => List.lookup name members) := by
  refine Source.fields?_eq ?_ hmembers hnames
  show (members.map fun m => (some m.1, m.2)).mapM _ = _
  rw [List.mapM_map]
  exact mapM_eq_some fun m _ => rfl

theorem list?_array (h : ∀ x, read (write x) = some x) (xs : List β) :
    source.list? read (.array (xs.map write)) = some xs := by
  show (xs.map write).mapM read = _
  rw [List.mapM_map]
  exact (mapM_eq_some (fun x _ => h x)).trans (congrArg some (List.map_id' xs))

/-- A value that may be absent, and is written as null then. -/
theorem optional?_optional (h : ∀ x, read (write x) = some x) (hnull : ∀ x, write x ≠ .null)
    (x? : Option β) : source.optional? read (.optional (x?.map write)) = some x? := by
  cases x? with
  | none => rfl
  | some x =>
    have habsent : source.isAbsent (write x) = false := by
      have hne := hnull x
      cases hx : write x <;> first | rfl | exact absurd hx hne
    show Source.optional? source read (write x) = some (some x)
    rw [Source.optional?, habsent, h]
    rfl

theorem octet?_natural (b : UInt8) : source.octet? (.natural b.toNat) = some b := by
  have hlt : b.toNat < 256 := b.toNat_lt
  simp [Source.octet?, Source.below?, source, Option.filter, hlt]

theorem read?_cost (c : Cost) : Cost.read? source c.toJson = some c := by
  have hlt : c.value.toNat < UInt32.size := c.value.toNat_lt_size
  simp [Cost.read?, Cost.toJson, Source.below?, source, Option.filter, hlt, Cost.ofNat]

end Json
end MeshView
