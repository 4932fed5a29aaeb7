/-
# What a topology reports can be transmitted

A frame cannot carry every difference, but it carries those that arise: an added link and a link cost
change tell the cost, a removed link tells none.  Every single report of a topology is of this sort,
joining keeps it, and all operations are joined from such reports (`Topology.isFramed_apply`).  So
decoding gives back what the topology reported, and beyond that it is exact on all frames
(`Frame.codec_exact`).
-/

import MeshView.Proofs.Diff.Frame

namespace MeshView

/-- The frame carries all of the difference. -/
def Diff.IsFramed (d : Diff) : Prop := d.framed = d

namespace Diff

theorem framed_append (x y : Diff) : (x ++ y).framed = x.framed ++ y.framed := by
  show (append x y).framed = append x.framed y.framed
  simp [append, framed]

theorem isFramed_empty : IsFramed ∅ := rfl

theorem IsFramed.append {x y : Diff} (hx : x.IsFramed) (hy : y.IsFramed) : (x ++ y).IsFramed := by
  rw [IsFramed, framed_append, hx, hy]

theorem isFramed_concat {ds : List Diff} (h : ∀ d ∈ ds, d.IsFramed) : (concat ds).IsFramed := by
  have hfold : ∀ (ds : List Diff) (d : Diff), d.IsFramed → (∀ x ∈ ds, x.IsFramed) →
      (ds.foldl (· ++ ·) d).IsFramed := by
    intro ds
    induction ds with
    | nil => exact fun d hd _ => hd
    | cons x xs ih =>
      intro d hd hds
      obtain ⟨hx, hxs⟩ := List.forall_mem_cons.1 hds
      exact ih _ (hd.append hx) hxs
  exact hfold ds ∅ isFramed_empty h

end Diff

namespace Topology
variable (t : Topology)

theorem isFramed_andThen {c : Change} {next : Topology → Change} (hc : c.diff.IsFramed)
    (hnext : ∀ t, (next t).diff.IsFramed) : (c.andThen next).diff.IsFramed :=
  hc.append (hnext c.topology)

theorem isFramed_each {α : Type} {operation : Topology → α → Change}
    (h : ∀ t x, (operation t x).diff.IsFramed) (xs : List α) :
    (t.each operation xs).diff.IsFramed := by
  induction xs generalizing t with
  | nil => exact Diff.isFramed_empty
  | cons x xs ih =>
    rw [each_cons]
    exact isFramed_andThen (h t x) fun t => ih t

theorem isFramed_reportNode (id : NodeId) (cost : Option Cost) :
    (t.reportNode id cost).diff.IsFramed := by
  unfold reportNode
  split
  · rfl
  · split
    · rfl
    · split <;> rfl

theorem isFramed_reportEdge (source target : NodeId) (cost : Cost) :
    (t.reportEdge source target cost).diff.IsFramed := by
  unfold reportEdge
  split
  · rfl
  · split
    · split
      · rfl
      · split <;> rfl
    · rfl

theorem isFramed_reportLink (source target : NodeId) (cost : Cost) :
    (t.reportLink source target cost).diff.IsFramed := by
  have hends : ((t.reportNode source none).andThen (·.reportNode target none)).diff.IsFramed :=
    isFramed_andThen (t.isFramed_reportNode source none) fun t => t.isFramed_reportNode target none
  refine isFramed_andThen hends fun t => ?_
  dsimp only
  split
  · rfl
  · exact isFramed_reportEdge _ source target cost

theorem isFramed_unlink (a b : NodeId) : (t.unlink a b).diff.IsFramed := by
  unfold unlink
  dsimp only
  split <;> rfl

theorem isFramed_detach (id : NodeId) : (t.detach id).diff.IsFramed := by
  unfold detach
  split
  · rfl
  · exact isFramed_andThen (t.isFramed_each (fun t x => t.isFramed_unlink id x) _) fun _ => rfl

theorem isFramed_prune : t.prune.diff.IsFramed := t.isFramed_each isFramed_detach _

/-- **Whatever a report changes, the frame carries it.** -/
theorem isFramed_apply (r : Report) : (t.apply r).diff.IsFramed := by
  cases r with
  | node id cost => exact t.isFramed_reportNode id cost
  | nodeGone id => exact isFramed_andThen (t.isFramed_detach id) isFramed_prune
  | link source target cost => exact t.isFramed_reportLink source target cost
  | linkGone a b => exact isFramed_andThen (t.isFramed_unlink a b) isFramed_prune

theorem isFramed_snapshot : t.snapshot.IsFramed := by
  have hcosts : ∀ l ∈ t.snapshot.linksAdded, l.cost.isSome = true := by
    simp only [snapshot, List.forall_mem_flatMap, List.forall_mem_map]
    exact fun v _ e _ => rfl
  show { t.snapshot with linksAdded := t.snapshot.linksAdded.filter (·.cost.isSome) } = t.snapshot
  rw [List.filter_eq_self.2 hcosts]

end Topology

/-- What a topology tells: the differences that a report makes, its snapshot, and what is joined from
such differences. -/
inductive Diff.Produced : Diff → Prop
  | applied (t : Topology) (r : Report) : Produced (t.apply r).diff
  | snapshot (t : Topology) : Produced t.snapshot
  | joined {ds : List Diff} (h : ∀ d ∈ ds, Produced d) : Produced (concat ds)

theorem Diff.Produced.isFramed {d : Diff} (h : d.Produced) : d.IsFramed := by
  induction h with
  | applied t r => exact t.isFramed_apply r
  | snapshot t => exact t.isFramed_snapshot
  | joined h ih => exact isFramed_concat ih

/-- So what a topology tells survives its frame. -/
theorem Diff.Produced.decode_frame {d : Diff} (h : d.Produced) : d.frame.decode = .ok d :=
  d.decode_frame.trans (congrArg _ h.isFramed)

/-- **The frame codec is exact in both directions.**  Decoding the frame of a difference returns it
without the added links and link cost changes that have no cost, and with the costs of removed links
cleared; what a topology tells is returned as it was.  A frame decodes if and only if every identity
has eight bytes and every cost has four, and then it is the frame of what it decodes to.  Otherwise
the first field that has not its width decides: a short one is truncated, with the bytes that it
needs and those that it has, and a long one has trailing bytes, with their number. -/
theorem Frame.codec_exact :
    (∀ d : Diff, d.frame.decode = .ok d.framed) ∧
    (∀ d : Diff, d.Produced → d.frame.decode = .ok d) ∧
    ∀ f : Frame,
      ((∃ d, f.decode = .ok d) ↔ ∀ x ∈ f.fields,
        (x.kind = .nodeId → x.bytes.length = 8) ∧ (x.kind = .cost → x.bytes.length = 4)) ∧
      (∀ d, f.decode = .ok d → d.frame = f) ∧
      ∀ before x after, f.fields = before ++ x :: after → (∀ y ∈ before, y.Fits) →
        (x.bytes.length < x.kind.width →
          f.decode = .error (.truncated x.kind.name x.kind.width x.bytes.length)) ∧
        (x.kind.width < x.bytes.length →
          f.decode = .error (.trailing x.kind.typeName (x.bytes.length - x.kind.width))) := by
  refine ⟨Diff.decode_frame, fun d hd => hd.decode_frame, fun f => ⟨?_, fun d hd => ?_, ?_⟩⟩
  · have hfits : ∀ x : Wire.Field, x.Fits ↔
        (x.kind = .nodeId → x.bytes.length = 8) ∧ (x.kind = .cost → x.bytes.length = 4) := by
      rintro ⟨_ | _, bytes⟩
      · exact ⟨fun h => ⟨fun _ => h, nofun⟩, fun h => h.1 rfl⟩
      · exact ⟨fun h => ⟨nofun, fun _ => h⟩, fun h => h.2 rfl⟩
    simp only [← hfits]
    exact ⟨fun ⟨d, hd⟩ => (Frame.reads.fits_of_eq_ok hd).1, fun h => ⟨_, Frame.reads.eq_ok h⟩⟩
  · obtain ⟨hfits, rfl⟩ := Frame.reads.fits_of_eq_ok hd
    exact Frame.frame_content hfits
  · intro before x after hfields hbefore
    have hfault : ∀ fault, x.fault? = some fault → f.decode = .error fault := by
      intro fault hx
      rw [Frame.reads f, hfields, Wire.verdict_of_first hbefore hx]
      rfl
    refine ⟨fun hshort => hfault _ (if_pos hshort), fun hlong => hfault _ ?_⟩
    rw [Wire.Field.fault?, if_neg (by omega), if_pos hlong]

/-- The first bad field is the short identity of a removed node, although a cost after it is too long. -/
example : Frame.decode ⟨[], [[1, 2]], [⟨[0, 0, 0, 0, 0, 0, 0, 1], [0, 0, 0, 0, 9]⟩], [], [], []⟩ =
    .error (.truncated "NodeId" 8 2) := rfl

end MeshView
