/-
# What was written is read back

Byte frames and scenarios are written as JSON records.  A field reads back if its value does; the
fields of a record are found by their names, so a frame or a scenario reads back as soon as the values
in its lists do.  An event is taken in as contents before its kind is known: the kind is found among
the members and left out, and the others are the fields that the kind asks for.

Together with the text of JSON values, which parses to the value that was written, and with the frames
of differences, which decode to them, nothing that is written is lost on the way.
-/

import MeshView.Document.Frame
import MeshView.Document.Scenario
import MeshView.Proofs.Diff.Transmission
import MeshView.Proofs.Json.RoundTrip
import MeshView.Proofs.Document.Records
import Mathlib.Data.List.Forall2
import Mathlib.Data.Nat.Digits.Lemmas

namespace MeshView
open Json (source)

@[simp] theorem Json.text?_text (s : String) : source.text? (.text s) = some s := by
  rw [source, text]

/-! ## Frames -/

@[simp] theorem Json.octets?_octets (bytes : Octets) :
    source.octets? (.octets bytes) = some bytes :=
  list?_array octet?_natural bytes

theorem NodeAddedFrame.read?_toJson (f : NodeAddedFrame) : read? source f.toJson = some f := by
  obtain ⟨id, cost⟩ := f
  cases cost with
  | none =>
    rw [read?, toJson, Json.fields?_record (by simp) (by decide)]
    simp [required, orElse, List.lookup_cons]
  | some cost =>
    have hcost : source.optional? source.octets? (.octets cost) = some (some cost) := by
      rw [Source.optional?, Json.octets?_octets]
      rfl
    rw [read?, toJson, Json.fields?_record (by simp) (by decide)]
    simp [required, orElse, List.lookup_cons, hcost]

theorem NodeCostFrame.read?_toJson (f : NodeCostFrame) : read? source f.toJson = some f := by
  rw [read?, toJson, Json.fields?_record (by simp) (by decide)]
  simp [required, List.lookup_cons]

theorem LinkFrame.read?_toJson (f : LinkFrame) : read? source f.toJson = some f := by
  rw [read?, toJson, Json.fields?_record (by simp) (by decide)]
  simp [required, List.lookup_cons]

theorem LinkCostFrame.read?_toJson (f : LinkCostFrame) : read? source f.toJson = some f := by
  rw [read?, toJson, Json.fields?_record (by simp) (by decide)]
  simp [required, List.lookup_cons]

theorem Frame.read?_toJson (f : Frame) : read? source f.toJson = some f := by
  rw [read?, toJson, Json.fields?_record (by simp) (by decide)]
  simp [fieldNames, required, List.lookup_cons, Json.list?_array Json.octets?_octets,
    Json.list?_array NodeAddedFrame.read?_toJson, Json.list?_array NodeCostFrame.read?_toJson,
    Json.list?_array LinkFrame.read?_toJson, Json.list?_array LinkCostFrame.read?_toJson]

/-! ## Nodes and links of scenarios -/

namespace Scenario

theorem optional?_cost (c : Option Cost) :
    source.optional? (Cost.read? source) (.optional (c.map Cost.toJson)) = some c :=
  Json.optional?_optional Json.read?_cost (fun _ => nofun) c

theorem Node.read?_toJson (n : Node) : read? source n.toJson = some n := by
  rw [read?, toJson, Json.fields?_record (by simp) (by decide)]
  simp [required, orElse, List.lookup_cons, optional?_cost]

theorem Link.read?_toJson (l : Link) : read? source l.toJson = some l := by
  rw [read?, toJson, Json.fields?_record (by simp) (by decide)]
  simp [required, List.lookup_cons, Json.read?_cost]

end Scenario

/-! ## Events -/

namespace Content
variable {members : List (String × Content)}

/-- A mapping with names as keys. -/
def record (members : List (String × Content)) : Content :=
  .mapping (members.map fun m => (.text m.1, m.2))

theorem fields?_record {names : List String} (hmembers : (members.map Prod.fst).Nodup)
    (hnames : names.Nodup) :
    source.fields? names (.record members) =
      some (names.map fun name => List.lookup name members) := by
  refine Source.fields?_eq ?_ hmembers hnames
  show (members.map fun m => (Content.text m.1, m.2)).mapM _ = _
  rw [List.mapM_map]
  exact mapM_eq_some fun m _ => rfl

@[simp] theorem text?_text (s : String) : source.text? (.text s) = some s := by
  rw [source]

theorem below?_natural {limit n : Nat} (h : n < limit) :
    source.below? limit (.natural n) = some n := by
  simp [Source.below?, source, h]

theorem read?_cost (c : Cost) : Cost.read? source (.natural c.value.toNat) = some c := by
  rw [Cost.read?, below?_natural c.value.toNat_lt_size]
  simp [Cost.ofNat]

theorem optional?_cost (c : Option Cost) : source.optional? (Cost.read? source)
    ((c.map fun c => .natural c.value.toNat).getD .null) = some c := by
  cases c with
  | none => rfl
  | some c =>
    show source.optional? _ (.natural _) = _
    rw [Source.optional?, read?_cost]
    rfl

/-- The tag of a record is its first member, and no other member has its name. -/
theorem tagged?_record {tag : String} (htag : tag ∉ members.map Prod.fst) (kind : Content) :
    (record ((tag, kind) :: members)).tagged? tag = some (kind, record members) := by
  have hother : ∀ m ∈ members, ¬m.1 = tag := fun m hm heq =>
    htag (List.mem_map.2 ⟨m, hm, heq⟩)
  have htaken : ∀ named : Content × Content → Bool, (∀ s v, named (.text s, v) = (s == tag)) →
      (members.map fun m => (Content.text m.1, m.2)).filter named = [] := by
    intro named hnamed
    rw [List.filter_map, List.map_eq_nil_iff, List.filter_eq_nil_iff]
    exact fun m hm htrue => hother m hm (eq_of_beq ((hnamed m.1 m.2).symm.trans htrue))
  have hleft : ∀ named : Content × Content → Bool, (∀ s v, named (.text s, v) = (s == tag)) →
      (members.map fun m => (Content.text m.1, m.2)).filter (fun e => !named e) =
        members.map fun m => (Content.text m.1, m.2) := by
    intro named hnamed
    rw [List.filter_eq_self]
    intro e he
    obtain ⟨m, hm, rfl⟩ := List.mem_map.1 he
    rw [hnamed, beq_eq_false_iff_ne.2 (hother m hm)]
    rfl
  simp only [record, tagged?, extract?, List.map_cons, List.filter_cons, beq_self_eq_true, if_true,
    Bool.not_true, Bool.false_eq_true, if_false]
  rw [htaken _ fun _ _ => rfl, hleft _ fun _ _ => rfl]
  rfl

end Content

namespace Json

/-- A value without parts that is taken in as it is. -/
structure TakenAs (v : Json) (c : Content) : Prop where
  proper : v.isProper = true
  depth : v.depth = 0
  content : v.toContent? = some c

theorem takenAs_text (s : String) : TakenAs (.text s) (.text s) := ⟨rfl, rfl, rfl⟩

theorem takenAs_natural {n : Nat} (h : n < UInt64.size) : TakenAs (.natural n) (.natural n) where
  proper := by
    have hlength : (Nat.toDigits 10 n).length ≤ 20 :=
      (Nat.length_toDigits_le_iff (by decide) (by decide)).2 (Nat.lt_trans h (by decide))
    rw [isProper, fitsDouble, if_pos (Or.inr (by omega))]
  depth := rfl
  content := by simp [toContent?, h]

theorem content?_record {members : List (String × Json)} {contents : List (String × Content)}
    (h : List.Forall₂ (fun m c => m.1 = c.1 ∧ TakenAs m.2 c.2) members contents) {level : Nat}
    (hlevel : level < depthLimit) : content? level (.record members) = some (.record contents) := by
  have hmembers : membersProper (members.map fun m => (some m.1, m.2)) = true ∧
      depthMembers (members.map fun m => (some m.1, m.2)) = 0 ∧
      membersToContent? (members.map fun m => (some m.1, m.2)) =
        some (contents.map fun c => (.text c.1, c.2)) := by
    clear hlevel
    induction h with
    | nil => exact ⟨rfl, rfl, rfl⟩
    | cons hm _ ih =>
      obtain ⟨hname, htaken⟩ := hm
      simp [membersProper, depthMembers, membersToContent?, hname, htaken.proper, htaken.depth,
        htaken.content, ih]
  obtain ⟨hproper, hdepth, hcontent⟩ := hmembers
  have hlevel' : 1 + level ≤ depthLimit := by omega
  simp [content?, record, Content.record, isProper, depth, toContent?, hproper, hdepth, hcontent, hlevel']

end Json

namespace Event

/-- The fields of an event as contents. -/
def contents (e : Event String) : List (String × Content) :=
  match e with
  | .node address cost =>
    [("address", .text address), ("cost", (cost.map fun c => .natural c.value.toNat).getD .null)]
  | .nodeGone address => [("address", .text address)]
  | .link a b cost => [("a", .text a), ("b", .text b), ("cost", .natural cost.value.toNat)]
  | .linkGone a b => [("a", .text a), ("b", .text b)]
  | .wait millis => [("millis", .natural millis.toNat)]

theorem content?_toJson (e : Event String) :
    Json.content? 2 e.toJson = some (.record (("kind", .text e.kind) :: e.contents)) := by
  refine Json.content?_record (.cons ⟨rfl, Json.takenAs_text _⟩ ?_) (by decide)
  cases e with
  | node address cost =>
    refine .cons ⟨rfl, Json.takenAs_text _⟩ (.cons ⟨rfl, ?_⟩ .nil)
    cases cost with
    | none => exact ⟨rfl, rfl, rfl⟩
    | some c => exact Json.takenAs_natural (Nat.lt_trans c.value.toNat_lt_size (by decide))
  | nodeGone address => exact .cons ⟨rfl, Json.takenAs_text _⟩ .nil
  | link a b cost =>
    exact .cons ⟨rfl, Json.takenAs_text _⟩ (.cons ⟨rfl, Json.takenAs_text _⟩
      (.cons ⟨rfl, Json.takenAs_natural (Nat.lt_trans cost.value.toNat_lt_size (by decide))⟩ .nil))
  | linkGone a b => exact .cons ⟨rfl, Json.takenAs_text _⟩ (.cons ⟨rfl, Json.takenAs_text _⟩ .nil)
  | wait millis => exact .cons ⟨rfl, Json.takenAs_natural millis.toNat_lt_size⟩ .nil

theorem readFields?_contents (e : Event String) :
    readFields? Content.source e.kind (.record e.contents) = some e := by
  cases e <;> simp only [kind, readFields?] <;>
    rw [Content.fields?_record (by simp [contents]) (by decide)]
  case wait millis =>
    simp [required, List.lookup_cons, contents, Content.below?_natural millis.toNat_lt_size]
  all_goals
    simp [required, orElse, List.lookup_cons, contents, Content.optional?_cost, Content.read?_cost]

theorem read?_toJson (e : Event String) : (Json.content? 2 e.toJson).bind read? = some e := by
  have hkind : "kind" ∉ e.contents.map Prod.fst := by cases e <;> simp [contents]
  rw [content?_toJson]
  simp [read?, Content.tagged?_record hkind, readFields?_contents]

end Event

theorem Scenario.read?_toJson (s : Scenario) :
    read? source (Json.content? 2) s.toJson = some s := by
  have hevents : source.list? (fun v => (Json.content? 2 v).bind Event.read?)
      (.array (s.events.map Event.toJson)) = some s.events :=
    Json.list?_array Event.read?_toJson s.events
  rw [read?, toJson, Json.fields?_record (by simp) (by decide)]
  simp [required, orElse, List.lookup_cons, Json.list?_array Node.read?_toJson,
    Json.list?_array Link.read?_toJson, hevents]

/-! ## Texts -/

/-- **What is written as JSON is read back.**  The text that is written for a frame reads as the frame;
the cost of an added node is among its members if and only if there is one.  So what a topology tells
passes unchanged through its frame, the text of the frame and back.  The text that is written for a
scenario reads as the scenario. -/
theorem Json.read_toText :
    (∀ f : Frame, (ofText? f.toJson.toText).bind (Frame.read? source) = some f) ∧
    (∀ a : NodeAddedFrame, source.fields? ["cost"] a.toJson = some [a.cost.map octets]) ∧
    (∀ d : Diff, d.Produced →
      ((ofText? d.frame.toJson.toText).bind (Frame.read? source)).map Frame.decode =
        some (.ok d)) ∧
    ∀ s : Scenario,
      (ofText? s.toJson.toText).bind (Scenario.read? source (content? 2)) = some s := by
  have hframe : ∀ f : Frame, (ofText? f.toJson.toText).bind (Frame.read? source) = some f := by
    intro f
    rw [ofText?_toText]
    exact f.read?_toJson
  refine ⟨hframe, fun ⟨id, cost⟩ => ?_, fun d hd => ?_, fun s => ?_⟩
  · rw [NodeAddedFrame.toJson, fields?_record (by cases cost <;> simp) (by decide)]
    cases cost <;> rfl
  · rw [hframe, Option.map_some, hd.decode_frame]
  · rw [ofText?_toText]
    exact s.read?_toJson

/-- An added node without a cost, and a scenario's node without one. -/
example : (NodeAddedFrame.toJson ⟨[0, 255], none⟩).toText = "\x7b\"nodeId\":[0,255]\x7d" ∧
    (Scenario.Node.toJson ⟨"a\n", none⟩).toText =
      "\x7b\"address\":\"a\\n\",\"cost\":null\x7d" := by
  decide +kernel

end MeshView
