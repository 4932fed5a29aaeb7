/-
# Values on a shared buffer

Nothing frames the values of a buffer, so one read that took too much or too little would shift all
later ones.  One read is described without a look into it (`Kind.reading_eq_ok_iff`,
`Kind.reading_eq_error_iff`): a buffer is the bytes of a value of the kind with more bytes after them,
and then the read returns this value and leaves those bytes, or it is too short, and then the read
fails and leaves all of it.  Reads in turn are reads from what was left before (`readings_append`).
So what was written is read back (`readings_writeAll`), and the bytes of the values that were read,
with the bytes left after them, are always the whole buffer (`writeAll_taken`), whichever reads fail.
-/

import MeshView.Wire

namespace MeshView
namespace Wire

/-! ## One read -/

namespace Codec
variable {α : Type} (codec : Codec α)

theorem run_map_read {β : Type} (wrap : α → β) (buffer : List UInt8) :
    (wrap <$> codec.read).run buffer =
      if buffer.length < codec.width then
        .error (.truncated codec.name codec.width buffer.length) buffer
      else .ok (wrap (codec.ofBytes (buffer.take codec.width))) (buffer.drop codec.width) := by
  rw [← bind_pure_comp, EStateM.run_bind, run_read]
  by_cases h : buffer.length < codec.width
  · simp only [if_pos h]
  · simp only [if_neg h, EStateM.run_pure]

/-- A value that stands in front is read, and what follows it is left. -/
theorem run_map_read_write {β : Type} (wrap : α → β) (a : α) (rest : List UInt8) :
    (wrap <$> codec.read).run (codec.write a ++ rest) = .ok (wrap a) rest := by
  have hwidth := codec.length_write a
  have hlong : ¬ (codec.write a ++ rest).length < codec.width := by
    rw [List.length_append]
    omega
  rw [run_map_read, if_neg hlong, List.take_left' hwidth, List.drop_left' hwidth,
    codec.ofBytes_write]

/-- The bytes in front of a buffer are those of a value, if there are enough. -/
theorem exists_write_append {buffer : List UInt8} (h : codec.width ≤ buffer.length) :
    ∃ a rest, codec.write a ++ rest = buffer := by
  have hwidth : (buffer.take codec.width).length = codec.width := List.length_take_of_le h
  refine ⟨codec.ofBytes (buffer.take codec.width), buffer.drop codec.width, ?_⟩
  rw [codec.write_ofBytes hwidth, List.take_append_drop]

end Codec

theorem Value.length_write (value : Value) : value.write.length = value.kind.width := by
  cases value with
  | nodeId id => exact Wire.nodeId.length_write id
  | cost c => exact Wire.cost.length_write c

theorem Value.reading_write (value : Value) (rest : List UInt8) :
    value.kind.reading (value.write ++ rest) = ⟨.ok value, rest⟩ := by
  cases value with
  | nodeId id => simp only [Kind.reading, Kind.read, kind, write, Codec.run_map_read_write]
  | cost c => simp only [Kind.reading, Kind.read, kind, write, Codec.run_map_read_write]

namespace Kind
variable {kind : Kind} {buffer : List UInt8}

theorem reading_of_lt (h : buffer.length < kind.width) :
    kind.reading buffer = ⟨.error (.truncated kind.name kind.width buffer.length), buffer⟩ := by
  cases kind with
  | nodeId =>
    have hshort : buffer.length < Wire.nodeId.width := h
    simp only [reading, read, name, width, Codec.run_map_read, if_pos hshort]
  | cost =>
    have hshort : buffer.length < Wire.cost.width := h
    simp only [reading, read, name, width, Codec.run_map_read, if_pos hshort]

/-- A buffer is too short for a kind, or it starts with a value of it. -/
theorem short_or_value (kind : Kind) (buffer : List UInt8) :
    buffer.length < kind.width ∨
      ∃ (value : Value) (rest : List UInt8), value.kind = kind ∧ value.write ++ rest = buffer := by
  rcases Nat.lt_or_ge buffer.length kind.width with hshort | hlong
  · exact .inl hshort
  · right
    cases kind with
    | nodeId =>
      obtain ⟨id, rest, hbytes⟩ := Wire.nodeId.exists_write_append hlong
      exact ⟨.nodeId id, rest, rfl, hbytes⟩
    | cost =>
      obtain ⟨c, rest, hbytes⟩ := Wire.cost.exists_write_append hlong
      exact ⟨.cost c, rest, rfl, hbytes⟩

/-- **A read returns the value that stands in front, and leaves what follows it.** -/
theorem reading_eq_ok_iff {value : Value} {rest : List UInt8} :
    kind.reading buffer = ⟨.ok value, rest⟩ ↔ value.kind = kind ∧ value.write ++ rest = buffer := by
  constructor
  · intro hread
    rcases kind.short_or_value buffer with hshort | ⟨front, behind, rfl, rfl⟩
    · rw [reading_of_lt hshort] at hread
      cases hread
    · rw [front.reading_write] at hread
      cases hread
      exact ⟨rfl, rfl⟩
  · rintro ⟨rfl, rfl⟩
    exact value.reading_write rest

/-- **A read fails exactly if the buffer is too short, and then it leaves the buffer as it was.** -/
theorem reading_eq_error_iff {fault : Fault} {rest : List UInt8} :
    kind.reading buffer = ⟨.error fault, rest⟩ ↔
      buffer.length < kind.width ∧ rest = buffer ∧
        fault = .truncated kind.name kind.width buffer.length := by
  constructor
  · intro hread
    rcases kind.short_or_value buffer with hshort | ⟨front, behind, rfl, rfl⟩
    · rw [reading_of_lt hshort] at hread
      cases hread
      exact ⟨hshort, rfl, rfl⟩
    · rw [front.reading_write] at hread
      cases hread
  · rintro ⟨hshort, rfl, rfl⟩
    exact reading_of_lt hshort

end Kind

/-! ## Reads in turn -/

/-- The bytes that some reads from a buffer leave. -/
def leftover (buffer : List UInt8) (rs : List Reading) : List UInt8 :=
  (rs.map Reading.rest).getLastD buffer

/-- The values that some reads returned. -/
def taken (rs : List Reading) : List Value := rs.filterMap fun r => r.outcome.toOption

theorem leftover_cons (buffer : List UInt8) (r : Reading) (rs : List Reading) :
    leftover buffer (r :: rs) = leftover r.rest rs := List.getLastD_cons ..

theorem readings_cons (kind : Kind) (kinds : List Kind) (buffer : List UInt8) :
    readings (kind :: kinds) buffer =
      kind.reading buffer :: readings kinds (kind.reading buffer).rest := rfl

theorem readings_append (before after : List Kind) (buffer : List UInt8) :
    readings (before ++ after) buffer =
      readings before buffer ++ readings after (leftover buffer (readings before buffer)) := by
  induction before generalizing buffer with
  | nil => rfl
  | cons kind before ih =>
    rw [List.cons_append, readings_cons, readings_cons, ih, leftover_cons, List.cons_append]

/-- What was written is read back, and no more. -/
theorem readings_writeAll (values : List Value) (rest : List UInt8) :
    let rs := readings (values.map Value.kind) (writeAll values ++ rest)
    rs.map Reading.outcome = values.map .ok ∧ leftover (writeAll values ++ rest) rs = rest := by
  induction values with
  | nil => exact ⟨rfl, rfl⟩
  | cons value values ih =>
    have hbuffer : writeAll (value :: values) ++ rest = value.write ++ (writeAll values ++ rest) := by
      rw [writeAll, List.flatMap_cons, List.append_assoc]
      rfl
    rw [hbuffer, List.map_cons, readings_cons, value.reading_write]
    exact ⟨congrArg _ ih.1, (leftover_cons ..).trans ih.2⟩

/-- Whichever reads fail, no byte is lost: those of the values that were read stand in front of
those that are left. -/
theorem writeAll_taken (kinds : List Kind) (buffer : List UInt8) :
    writeAll (taken (readings kinds buffer)) ++ leftover buffer (readings kinds buffer) = buffer := by
  induction kinds generalizing buffer with
  | nil => rfl
  | cons kind kinds ih =>
    rw [readings_cons, leftover_cons]
    rcases kind.short_or_value buffer with hshort | ⟨value, rest, rfl, rfl⟩
    · -- a failed read gives no value and leaves the buffer to the reads after it
      rw [Kind.reading_of_lt hshort]
      exact ih buffer
    · rw [value.reading_write]
      have htaken : taken (⟨.ok value, rest⟩ :: readings kinds rest) =
          value :: taken (readings kinds rest) := rfl
      rw [htaken, writeAll, List.flatMap_cons, List.append_assoc]
      exact congrArg _ (ih rest)

/-- **The codec is exact on a shared buffer.**  An identity takes eight bytes and a cost four.  Values
that were written one after another are read back in turn, and what follows them is left.  Of the
reads in any sequence each sees what those before it left: it fails if and only if those are fewer
bytes than its kind takes; a value that it returns is written as the bytes that it took from the
front; and a failure tells the bytes needed and those there, and takes none of them, so that the later
reads go on as if the read had not been tried.  The bytes of all values read, one after another, with
what is left in the end, are the buffer. -/
theorem readings_exact :
    (Kind.nodeId.width = 8 ∧ Kind.cost.width = 4) ∧
    (∀ (values : List Value) (rest : List UInt8),
      let rs := readings (values.map Value.kind) (writeAll values ++ rest)
      rs.map Reading.outcome = values.map .ok ∧ leftover (writeAll values ++ rest) rs = rest) ∧
    (∀ (before : List Kind) (kind : Kind) (after : List Kind) (buffer : List UInt8),
      let seen := leftover buffer (readings before buffer)
      ∃ r, readings (before ++ kind :: after) buffer =
          readings before buffer ++ r :: readings after r.rest ∧
        ((∃ fault, r.outcome = .error fault) ↔ seen.length < kind.width) ∧
        (∀ value, r.outcome = .ok value →
          value.kind = kind ∧ value.write.length = kind.width ∧ value.write ++ r.rest = seen) ∧
        ∀ fault, r.outcome = .error fault →
          fault = .truncated kind.name kind.width seen.length ∧ r.rest = seen ∧
          readings before buffer ++ readings after r.rest = readings (before ++ after) buffer) ∧
    ∀ (kinds : List Kind) (buffer : List UInt8),
      writeAll (taken (readings kinds buffer)) ++ leftover buffer (readings kinds buffer) = buffer := by
  refine ⟨⟨rfl, rfl⟩, readings_writeAll, fun before kind after buffer => ?_, writeAll_taken⟩
  intro seen
  refine ⟨kind.reading seen, readings_append .., ⟨?_, fun hshort => ?_⟩, fun value hok => ?_,
    fun fault herror => ?_⟩
  · rintro ⟨fault, herror⟩
    exact (Kind.reading_eq_error_iff.1 (Reading.ext herror rfl)).1
  · rw [Kind.reading_of_lt hshort]
    exact ⟨_, rfl⟩
  · obtain ⟨hkind, hbytes⟩ := Kind.reading_eq_ok_iff.1 (Reading.ext hok rfl)
    exact ⟨hkind, hkind ▸ value.length_write, hbytes⟩
  · have hread : kind.reading seen = ⟨.error fault, (kind.reading seen).rest⟩ :=
      Reading.ext herror rfl
    obtain ⟨-, hrest, hfault⟩ := Kind.reading_eq_error_iff.1 hread
    exact ⟨hfault, hrest, by rw [hrest, readings_append]⟩

/-- Five bytes are too few for an identity; the cost in front of them is read all the same, and the
byte after it stays, although an identity is asked for again. -/
example : readings [.nodeId, .cost, .nodeId] [0, 0, 1, 2, 9] =
    [⟨.error (.truncated "NodeId" 8 5), [0, 0, 1, 2, 9]⟩, ⟨.ok (.cost ⟨258⟩), [9]⟩,
      ⟨.error (.truncated "NodeId" 8 1), [9]⟩] := rfl

end Wire
end MeshView
