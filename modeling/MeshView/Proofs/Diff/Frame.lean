/-
# Frames and differences spell each other

A frame is a list of fields, each of them a byte string where an identity or a cost is expected.
Decoding reads the fields in their order, and nothing but the widths decides: it fails with the fault
of the first field that has not the width of its kind (`Wire.verdict`), and otherwise it returns what
the fields spell (`Frame.decode_eq`).  So decoding undoes framing up to the costs that a frame cannot
carry, and framing undoes decoding without any exception.  What a topology reports never has such
costs: an added link and a link cost change tell the cost, a removed link tells none.
-/

import MeshView.Diff.Frame
import MeshView.Report

namespace MeshView
namespace Wire

/-! ## Fields -/

/-- A byte string where a value is expected. -/
structure Field where
  kind : Kind
  bytes : List UInt8

namespace Field

/-- The field has the width of its kind. -/
def Fits (f : Field) : Prop := f.bytes.length = f.kind.width

/-- Why the field is not a value. -/
def fault? (f : Field) : Option Fault :=
  if f.bytes.length < f.kind.width then
    some (.truncated f.kind.name f.kind.width f.bytes.length)
  else if f.kind.width < f.bytes.length then
    some (.trailing f.kind.typeName (f.bytes.length - f.kind.width))
  else none

theorem fault?_eq_none_iff (f : Field) : f.fault? = none ↔ f.Fits := by
  unfold fault? Fits
  split
  · simp
    omega
  · split
    · simp
      omega
    · simp
      omega

end Field

/-- The fault of the first field that is not a value, if there is one. -/
def verdict (fields : List Field) : Except Fault Unit :=
  match fields.findSome? Field.fault? with
  | some fault => .error fault
  | none => .ok ()

theorem verdict_eq_ok_iff {fields : List Field} :
    verdict fields = .ok () ↔ ∀ f ∈ fields, f.Fits := by
  have hnone : fields.findSome? Field.fault? = none ↔ ∀ f ∈ fields, f.Fits := by
    simp only [List.findSome?_eq_none_iff, Field.fault?_eq_none_iff]
  rw [← hnone, verdict]
  cases fields.findSome? Field.fault? <;> simp

theorem verdict_append (xs ys : List Field) :
    verdict (xs ++ ys) = verdict xs >>= fun _ => verdict ys := by
  unfold verdict
  rw [List.findSome?_append]
  cases xs.findSome? Field.fault? <;> rfl

/-- The first field that is not a value decides. -/
theorem verdict_of_first {before after : List Field} {f : Field}
    (hbefore : ∀ y ∈ before, y.Fits) {fault : Fault} (hf : f.fault? = some fault) :
    verdict (before ++ f :: after) = .error fault := by
  rw [verdict_append, verdict_eq_ok_iff.2 hbefore]
  show verdict (f :: after) = _
  rw [verdict, List.findSome?_cons, hf]

/-! ## Readers -/

/-- The reader looks at the given fields in their order; if all of them are values, it returns the
content, and otherwise the first fault. -/
def Reads {α β : Type} (fields : α → List Field) (content : α → β) (read : α → Except Fault β) :
    Prop := ∀ x, read x = verdict (fields x) >>= fun _ => pure (content x)

namespace Reads
variable {α β γ δ : Type} {fields : α → List Field} {content : α → β} {read : α → Except Fault β}

theorem eq_ok (h : Reads fields content read) {x : α} (hfits : ∀ f ∈ fields x, f.Fits) :
    read x = .ok (content x) := by
  rw [h, verdict_eq_ok_iff.2 hfits]
  rfl

theorem fits_of_eq_ok (h : Reads fields content read) {x : α} {y : β} (hy : read x = .ok y) :
    (∀ f ∈ fields x, f.Fits) ∧ content x = y := by
  rw [h] at hy
  cases hverdict : verdict (fields x) with
  | error fault =>
    rw [hverdict] at hy
    cases hy
  | ok u =>
    rw [hverdict] at hy
    exact ⟨verdict_eq_ok_iff.1 hverdict, Except.ok.inj hy⟩

/-- One value of fixed width. -/
theorem readWhole (codec : Codec α) (kind : Kind) (hwidth : kind.width = codec.width)
    (hname : kind.name = codec.name) (htypeName : kind.typeName = codec.typeName) :
    Reads (fun bytes => [⟨kind, bytes⟩]) codec.ofBytes codec.readWhole := by
  intro bytes
  have hverdict : verdict [⟨kind, bytes⟩] =
      match Field.fault? ⟨kind, bytes⟩ with
      | some fault => .error fault
      | none => .ok () := by
    simp only [verdict, List.findSome?_cons, List.findSome?_nil]
    cases Field.fault? ⟨kind, bytes⟩ <;> rfl
  rw [hverdict]
  simp only [Codec.readWhole, Codec.run_read, Field.fault?, hwidth, hname, htypeName]
  by_cases hshort : bytes.length < codec.width
  · simp only [hshort, if_true]
    rfl
  · by_cases hlong : codec.width < bytes.length
    · have hrest : (bytes.drop codec.width).isEmpty = false := by
        simpa using hlong
      simp only [hshort, hlong, hrest, if_true, if_false, List.length_drop]
      rfl
    · have hrest : (bytes.drop codec.width).isEmpty = true := by
        simpa using hlong
      have htake : bytes.take codec.width = bytes := List.take_of_length_le (by omega)
      simp only [hshort, hlong, hrest, htake, if_true, if_false]
      rfl

theorem nodeId : Reads (fun bytes => [⟨.nodeId, bytes⟩]) NodeId.ofBytes Wire.nodeId.readWhole :=
  readWhole Wire.nodeId .nodeId rfl rfl rfl

theorem cost : Reads (fun bytes => [⟨.cost, bytes⟩]) Cost.ofBytes Wire.cost.readWhole :=
  readWhole Wire.cost .cost rfl rfl rfl

theorem optional {codec : Codec α} {kind : Kind}
    (h : Reads (fun bytes => [⟨kind, bytes⟩]) codec.ofBytes codec.readWhole) :
    Reads (fun bytes? => (bytes?.map (Field.mk kind)).toList) (Option.map codec.ofBytes)
      codec.readOptional := by
  intro bytes?
  cases bytes? with
  | none => rfl
  | some bytes =>
    show Except.map some (codec.readWhole bytes) = _
    rw [h]
    show Except.map some (verdict [⟨kind, bytes⟩] >>= _) = verdict [⟨kind, bytes⟩] >>= _
    cases verdict [⟨kind, bytes⟩] <;> rfl

/-- One reader after another. -/
theorem bind (h : Reads fields content read) {x : α} {next : β → Except Fault γ}
    {more : List Field} {result : γ}
    (hnext : next (content x) = verdict more >>= fun _ => pure result) :
    (read x >>= next) = verdict (fields x ++ more) >>= fun _ => pure result := by
  rw [h, verdict_append]
  cases verdict (fields x) with
  | error fault => rfl
  | ok u => exact hnext

/-- The last reader. -/
theorem bind_pure (h : Reads fields content read) (x : α) (result : β → γ) :
    (read x >>= fun y => pure (result y)) =
      verdict (fields x) >>= fun _ => pure (result (content x)) := by
  rw [h]
  cases verdict (fields x) <;> rfl

/-- The entries of a list in their order. -/
theorem mapM (h : Reads fields content read) :
    Reads (fun xs => xs.flatMap fields) (List.map content) (List.mapM read) := by
  intro xs
  induction xs with
  | nil => rfl
  | cons x xs ih =>
    simp only [List.mapM_cons, List.flatMap_cons, List.map_cons]
    refine h.bind ?_
    rw [ih]
    cases verdict (xs.flatMap fields) <;> rfl

end Reads
end Wire

/-! ## Decoding -/

namespace NodeAddedFrame

def fields (f : NodeAddedFrame) : List Wire.Field :=
  ⟨.nodeId, f.nodeId⟩ :: (f.cost.map (Wire.Field.mk .cost)).toList

def content (f : NodeAddedFrame) : NodeAdded := ⟨.ofBytes f.nodeId, f.cost.map .ofBytes⟩

theorem reads : Wire.Reads fields content decode := fun _ =>
  Wire.Reads.nodeId.bind (Wire.Reads.cost.optional.bind_pure _ _)

end NodeAddedFrame

namespace NodeCostFrame

def fields (f : NodeCostFrame) : List Wire.Field := [⟨.nodeId, f.nodeId⟩, ⟨.cost, f.cost⟩]

def content (f : NodeCostFrame) : NodeCost := ⟨.ofBytes f.nodeId, .ofBytes f.cost⟩

theorem reads : Wire.Reads fields content decode := fun _ =>
  Wire.Reads.nodeId.bind (Wire.Reads.cost.bind_pure _ _)

end NodeCostFrame

namespace LinkFrame

def fields (f : LinkFrame) : List Wire.Field := [⟨.nodeId, f.nodeId1⟩, ⟨.nodeId, f.nodeId2⟩]

def content (f : LinkFrame) : LinkChange := ⟨.ofBytes f.nodeId1, .ofBytes f.nodeId2, none⟩

theorem reads : Wire.Reads fields content decode := fun _ =>
  Wire.Reads.nodeId.bind (Wire.Reads.nodeId.bind_pure _ _)

end LinkFrame

namespace LinkCostFrame

def fields (f : LinkCostFrame) : List Wire.Field :=
  [⟨.nodeId, f.nodeId1⟩, ⟨.nodeId, f.nodeId2⟩, ⟨.cost, f.cost⟩]

def content (f : LinkCostFrame) : LinkChange :=
  ⟨.ofBytes f.nodeId1, .ofBytes f.nodeId2, some (.ofBytes f.cost)⟩

theorem reads : Wire.Reads fields content decode := fun _ =>
  Wire.Reads.nodeId.bind (Wire.Reads.nodeId.bind (Wire.Reads.cost.bind_pure _ _))

end LinkCostFrame

namespace Frame

/-- All fields: the six lists one after another, the entries of a list in their order, and the fields
of an entry in theirs. -/
def fields (f : Frame) : List Wire.Field :=
  f.nodeAdded.flatMap NodeAddedFrame.fields ++ (f.nodeRemoved.flatMap (fun bytes => [⟨.nodeId, bytes⟩]) ++
    (f.nodeCostChanged.flatMap NodeCostFrame.fields ++ (f.linkAdded.flatMap LinkCostFrame.fields ++
      (f.linkRemoved.flatMap LinkFrame.fields ++ f.linkCostChanged.flatMap LinkCostFrame.fields))))

/-- What the fields spell, whatever their widths are. -/
def content (f : Frame) : Diff where
  nodesAdded := f.nodeAdded.map NodeAddedFrame.content
  nodesRemoved := f.nodeRemoved.map NodeId.ofBytes
  nodeCosts := f.nodeCostChanged.map NodeCostFrame.content
  linksAdded := f.linkAdded.map LinkCostFrame.content
  linksRemoved := f.linkRemoved.map LinkFrame.content
  linkCosts := f.linkCostChanged.map LinkCostFrame.content

/-- **Decoding reads the fields in their order.** -/
theorem reads : Wire.Reads fields content decode := fun _ =>
  NodeAddedFrame.reads.mapM.bind (Wire.Reads.nodeId.mapM.bind (NodeCostFrame.reads.mapM.bind
    (LinkCostFrame.reads.mapM.bind (LinkFrame.reads.mapM.bind
      (LinkCostFrame.reads.mapM.bind_pure _ _)))))

end Frame

/-! ## Framing what was decoded -/

namespace Wire

/-- A list of entries is written as it was read, if its fields have their widths. -/
theorem filterMap_map_content {α β : Type} {fields : α → List Field} {content : α → β}
    {write? : β → Option α}
    (hwrite : ∀ x, (∀ f ∈ fields x, f.Fits) → write? (content x) = some x) {xs : List α}
    (hfits : ∀ f ∈ xs.flatMap fields, f.Fits) : (xs.map content).filterMap write? = xs := by
  induction xs with
  | nil => rfl
  | cons x xs ih =>
    rw [List.flatMap_cons, List.forall_mem_append] at hfits
    rw [List.map_cons, List.filterMap_cons, hwrite x hfits.1, ih hfits.2]

theorem map_map_content {α β : Type} {fields : α → List Field} {content : α → β} {write : β → α}
    (hwrite : ∀ x, (∀ f ∈ fields x, f.Fits) → write (content x) = x) {xs : List α}
    (hfits : ∀ f ∈ xs.flatMap fields, f.Fits) : (xs.map content).map write = xs := by
  rw [← List.filterMap_eq_map]
  refine filterMap_map_content (fun x hx => ?_) hfits
  exact congrArg some (hwrite x hx)

end Wire

theorem LinkCostFrame.frame?_content (f : LinkCostFrame) (h : ∀ x ∈ f.fields, x.Fits) :
    f.content.frame? = some f := by
  obtain ⟨id1, id2, cost⟩ := f
  simp only [fields, List.forall_mem_cons, Wire.Field.Fits] at h
  obtain ⟨h1, h2, hcost, -⟩ := h
  simp only [content, LinkChange.frame?, Option.map_some, NodeId.bytes_ofBytes h1,
    NodeId.bytes_ofBytes h2, Cost.bytes_ofBytes hcost]

/-- **A frame whose fields have their widths is the frame of its content.** -/
theorem Frame.frame_content {f : Frame} (h : ∀ x ∈ f.fields, x.Fits) : f.content.frame = f := by
  obtain ⟨added, removed, costs, links, unlinks, linkCosts⟩ := f
  simp only [fields, List.forall_mem_append] at h
  obtain ⟨hadded, hremoved, hcosts, hlinks, hunlinks, hlinkCosts⟩ := h
  simp only [content, Diff.frame, Frame.mk.injEq]
  refine ⟨Wire.map_map_content (fun x hx => ?_) hadded,
    Wire.map_map_content (fun x hx => ?_) hremoved, Wire.map_map_content (fun x hx => ?_) hcosts,
    Wire.filterMap_map_content LinkCostFrame.frame?_content hlinks,
    Wire.map_map_content (fun x hx => ?_) hunlinks,
    Wire.filterMap_map_content LinkCostFrame.frame?_content hlinkCosts⟩
  · obtain ⟨id, _ | cost⟩ := x
    · simp only [NodeAddedFrame.fields, List.forall_mem_cons, Wire.Field.Fits] at hx
      simp only [NodeAddedFrame.content, NodeId.bytes_ofBytes hx.1, Option.map_none]
    · simp only [NodeAddedFrame.fields, List.forall_mem_cons, Wire.Field.Fits, Option.map_some,
        Option.toList_some] at hx
      simp only [NodeAddedFrame.content, NodeId.bytes_ofBytes hx.1, Option.map_some,
        Cost.bytes_ofBytes hx.2.1]
  · exact NodeId.bytes_ofBytes (hx _ List.mem_cons_self)
  · simp only [NodeCostFrame.fields, List.forall_mem_cons, Wire.Field.Fits] at hx
    simp only [NodeCostFrame.content, NodeId.bytes_ofBytes hx.1, Cost.bytes_ofBytes hx.2.1]
  · simp only [LinkFrame.fields, List.forall_mem_cons, Wire.Field.Fits] at hx
    simp only [LinkFrame.content, NodeId.bytes_ofBytes hx.1, NodeId.bytes_ofBytes hx.2.1]

/-! ## Decoding what was framed -/

/-- What a frame can carry of a difference: no added link and no link cost change without a cost, and
no cost of a removed link. -/
def Diff.framed (d : Diff) : Diff :=
  { d with
    linksAdded := d.linksAdded.filter (·.cost.isSome)
    linksRemoved := d.linksRemoved.map fun l => { l with cost := none }
    linkCosts := d.linkCosts.filter (·.cost.isSome) }

theorem Wire.fits_nodeId (id : NodeId) : (Field.mk .nodeId id.bytes).Fits := id.length_bytes

theorem Wire.fits_cost (cost : Cost) : (Field.mk .cost cost.bytes).Fits := cost.length_bytes

namespace LinkChange

theorem fits_frame? {l : LinkChange} {f : LinkCostFrame} (h : l.frame? = some f) :
    ∀ x ∈ f.fields, x.Fits := by
  obtain ⟨c, -, rfl⟩ := Option.map_eq_some_iff.1 h
  simp [LinkCostFrame.fields, Wire.fits_nodeId, Wire.fits_cost]

theorem content_frame? (links : List LinkChange) :
    (links.filterMap frame?).map LinkCostFrame.content = links.filter (·.cost.isSome) := by
  induction links with
  | nil => rfl
  | cons l links ih =>
    obtain ⟨first, second, _ | cost⟩ := l
    · have hnone : frame? ⟨first, second, none⟩ = none := rfl
      rw [List.filterMap_cons, hnone, ih]
      rfl
    · have hsome : frame? ⟨first, second, some cost⟩ =
          some ⟨first.bytes, second.bytes, cost.bytes⟩ := rfl
      rw [List.filterMap_cons, hsome, List.map_cons, ih]
      simp [LinkCostFrame.content, NodeId.ofBytes_bytes, Cost.ofBytes_bytes]

end LinkChange

namespace Diff

/-- Every field of a frame that was made of a difference has its width. -/
theorem fits_frame (d : Diff) : ∀ x ∈ d.frame.fields, x.Fits := by
  simp only [Frame.fields, frame, List.forall_mem_append, List.forall_mem_flatMap,
    List.forall_mem_map, List.forall_mem_filterMap]
  refine ⟨fun n _ => ?_, fun id _ => ?_, fun n _ => ?_, fun l _ f hf => LinkChange.fits_frame? hf,
    fun l _ => ?_, fun l _ f hf => LinkChange.fits_frame? hf⟩
  · cases n.cost <;> simp [NodeAddedFrame.fields, Wire.fits_nodeId, Wire.fits_cost]
  · simp [Wire.fits_nodeId]
  · simp [NodeCostFrame.fields, Wire.fits_nodeId, Wire.fits_cost]
  · simp [LinkFrame.fields, Wire.fits_nodeId]

theorem content_frame (d : Diff) : d.frame.content = d.framed := by
  obtain ⟨added, removed, costs, links, unlinks, linkCosts⟩ := d
  simp only [frame, Frame.content, framed, LinkChange.content_frame?, List.map_map]
  congr 1
  · refine (List.map_congr_left fun n _ => ?_).trans (List.map_id added)
    simp [NodeAddedFrame.content, NodeId.ofBytes_bytes, Cost.ofBytes_bytes, Function.comp_def]
  · refine (List.map_congr_left fun id _ => ?_).trans (List.map_id removed)
    exact id.ofBytes_bytes
  · refine (List.map_congr_left fun n _ => ?_).trans (List.map_id costs)
    simp [NodeCostFrame.content, NodeId.ofBytes_bytes, Cost.ofBytes_bytes]
  · refine List.map_congr_left fun l _ => ?_
    simp [LinkFrame.content, NodeId.ofBytes_bytes]

/-- **Decoding a frame gives what the frame can carry.** -/
theorem decode_frame (d : Diff) : d.frame.decode = .ok d.framed :=
  d.content_frame ▸ Frame.reads.eq_ok d.fits_frame

end Diff
end MeshView
