/-
# JSON text reads back

Every JSON value reads back from its text, also numbers with an exponent and strings that stand for no
text (`ofText?_toText`).  The proof goes along the value.  A value is followed by a comma, a closing
bracket or the end of the text, none of which goes on with a number; it starts with no blank, so the
reader skips nothing in front of it, and with no closing bracket, so an array that has items is not
taken for an empty one.  The reader spends one unit of fuel for each bracket, item or member, and each
of them has a character of its own, so the length of the text is enough.
-/

import MeshView.Proofs.Json.Tokens

namespace MeshView
namespace Json

/-- What may follow a value inside a text. -/
theorem ends_cons {c : Char} (h : c = ',' ∨ c = ']' ∨ c = '}') (rest : List Char) :
    Ends (c :: rest) := by
  intro x hx
  obtain rfl : c = x := by simpa using hx
  rcases h with rfl | rfl | rfl <;> decide

theorem skipBlanks_cons {c : Char} (h : isBlank c = false) (rest : List Char) :
    skipBlanks (c :: rest) = c :: rest := by
  simp [skipBlanks, h]

/-- What a number starts with is no blank, and it starts nothing else. -/
theorem value_of_digit {c : Char} (h : c.isDigit = true ∨ c = '-') (fuel : Nat) (cs : List Char) :
    value (fuel + 1) (c :: cs) = number (c :: cs) := by
  unfold value
  split <;> simp_all

/-- The text of a number starts as a number does. -/
theorem exists_renderReal (negative : Bool) (digits : Nat) (exponent : Int) :
    ∃ c cs, renderReal negative digits exponent = c :: cs ∧ (c.isDigit = true ∨ c = '-') := by
  obtain ⟨c, cs, hcs, hdigit, -⟩ := exists_renderNat digits
  cases negative with
  | true => exact ⟨'-', _, rfl, .inr rfl⟩
  | false =>
    refine ⟨c, cs ++ 'e' :: (if exponent < 0 then ['-'] else []) ++ renderNat exponent.natAbs, ?_,
      .inl hdigit⟩
    simp [renderReal, hcs]

theorem start_of_digit {c : Char} (h : c.isDigit = true ∨ c = '-') :
    isBlank c = false ∧ c ≠ ']' := by
  rcases h with h | rfl
  · constructor
    · refine Bool.eq_false_iff.2 fun hblank => ?_
      rcases of_decide_eq_true hblank with rfl | rfl | rfl | rfl <;> exact absurd h (by decide)
    · rintro rfl
      exact absurd h (by decide)
  · decide

/-- The text of a value starts with no blank and with no closing bracket. -/
theorem exists_render (v : Json) : ∃ c cs, render v = c :: cs ∧ isBlank c = false ∧ c ≠ ']' := by
  match v with
  | .null => exact ⟨'n', _, rfl, by decide⟩
  | .bool true => exact ⟨'t', _, rfl, by decide⟩
  | .bool false => exact ⟨'f', _, rfl, by decide⟩
  | .natural n =>
    obtain ⟨c, cs, hcs, hdigit, -⟩ := exists_renderNat n
    exact ⟨c, cs, by rw [render, hcs], start_of_digit (.inl hdigit)⟩
  | .real negative digits exponent =>
    obtain ⟨c, cs, hcs, hstart⟩ := exists_renderReal negative digits exponent
    exact ⟨c, cs, by rw [render, hcs], start_of_digit hstart⟩
  | .string s =>
    obtain ⟨cs, hcs, -⟩ := stringBody_render s []
    exact ⟨'"', cs, by rw [render, hcs], by decide⟩
  | .array [] => exact ⟨'[', _, by rw [render], by decide⟩
  | .array (v :: vs) => exact ⟨'[', _, by rw [render]; rfl, by decide⟩
  | .object [] => exact ⟨'{', _, by rw [render], by decide⟩
  | .object ((name, v) :: ms) => exact ⟨'{', _, by rw [render]; rfl, by decide⟩

theorem skipBlanks_render (v : Json) (rest : List Char) :
    skipBlanks (render v ++ rest) = render v ++ rest := by
  obtain ⟨c, cs, hcs, hblank, -⟩ := v.exists_render
  rw [hcs, List.cons_append, skipBlanks_cons hblank]

theorem length_render_pos (v : Json) : 0 < (render v).length := by
  obtain ⟨c, cs, hcs, -⟩ := v.exists_render
  simp [hcs]

theorem ends_renderItems (vs : List Json) (rest : List Char) : Ends (renderItems vs ++ rest) := by
  cases vs with
  | nil => exact ends_cons (by simp) _
  | cons v vs => exact ends_cons (by simp) _

theorem ends_renderMembers (ms : List (Option String × Json)) (rest : List Char) :
    Ends (renderMembers ms ++ rest) := by
  cases ms with
  | nil => exact ends_cons (by simp) _
  | cons m ms => exact ends_cons (by simp) _

/-- With this much fuel, whatever has a text of at most this length reads back: a value, the items of
an array with its closing bracket, and the members of an object with its closing brace. -/
structure ReadsBack (fuel : Nat) : Prop where
  value : ∀ v rest, (render v).length ≤ fuel → Ends rest →
    Json.value fuel (render v ++ rest) = some (v, rest)
  items : ∀ v vs rest, (render v ++ renderItems vs).length ≤ fuel →
    Json.items fuel (render v ++ (renderItems vs ++ rest)) = some (v :: vs, rest)
  members : ∀ name v ms rest,
    (renderString name ++ ':' :: (render v ++ renderMembers ms)).length ≤ fuel →
    Json.members fuel (renderString name ++ ':' :: (render v ++ (renderMembers ms ++ rest))) =
      some ((name, v) :: ms, rest)

namespace ReadsBack

/-- Every text has a character. -/
theorem zero : ReadsBack 0 where
  value v rest hfuel := by
    have := v.length_render_pos
    omega
  items v vs rest hfuel := by
    have := v.length_render_pos
    rw [List.length_append] at hfuel
    omega
  members name v ms rest hfuel := by
    rw [List.length_append, List.length_cons] at hfuel
    omega

variable {fuel : Nat} (h : ReadsBack fuel)
include h

theorem value_succ (v : Json) {rest : List Char} (hfuel : (render v).length ≤ fuel + 1)
    (hrest : Ends rest) : Json.value (fuel + 1) (render v ++ rest) = some (v, rest) := by
  match v with
  | .null => rfl
  | .bool true => rfl
  | .bool false => rfl
  | .natural n =>
    obtain ⟨c, cs, hcs, hdigit, -⟩ := exists_renderNat n
    have hread := number_renderNat n hrest
    rw [hcs] at hread
    rw [render, hcs, List.cons_append, value_of_digit (.inl hdigit)]
    exact hread
  | .real negative digits exponent =>
    obtain ⟨c, cs, hcs, hstart⟩ := exists_renderReal negative digits exponent
    have hread := number_renderReal negative digits exponent hrest
    rw [hcs] at hread
    rw [render, hcs, List.cons_append, value_of_digit hstart]
    exact hread
  | .string s =>
    obtain ⟨cs, hcs, hread⟩ := stringBody_render s rest
    rw [render, hcs, List.cons_append, Json.value, hread]
    rfl
  | .array [] => rfl
  | .array (v :: vs) =>
    rw [render, List.cons_append, List.length_cons] at hfuel
    have hitems := h.items v vs rest (by omega)
    obtain ⟨c, cs, hcs, hblank, hclose⟩ := v.exists_render
    rw [render, List.cons_append, List.cons_append, List.append_assoc]
    rw [hcs, List.cons_append] at hitems ⊢
    rw [Json.value, skipBlanks_cons hblank]
    split
    · simp_all
    · rw [hitems]
      rfl
  | .object [] => rfl
  | .object ((name, v) :: ms) =>
    have hlength : (render (.object ((name, v) :: ms))).length =
        (renderString name ++ ':' :: (render v ++ renderMembers ms)).length + 1 := by
      simp [render]
    have hmembers := h.members name v ms rest (by omega)
    obtain ⟨cs, hcs, -⟩ := stringBody_render name []
    rw [render]
    simp only [List.cons_append, List.append_assoc]
    rw [hcs, List.cons_append] at hmembers ⊢
    rw [Json.value, skipBlanks_cons (by decide)]
    split
    · simp_all
    · rw [hmembers]
      rfl

theorem items_succ (v : Json) (vs : List Json) (rest : List Char)
    (hfuel : (render v ++ renderItems vs).length ≤ fuel + 1) :
    Json.items (fuel + 1) (render v ++ (renderItems vs ++ rest)) = some (v :: vs, rest) := by
  have hpos := v.length_render_pos
  rw [List.length_append] at hfuel
  match vs with
  | [] =>
    have hlength : (renderItems []).length = 1 := rfl
    have hvalue := h.value v (renderItems [] ++ rest) (by omega) (ends_renderItems [] rest)
    rw [Json.items, hvalue]
    rfl
  | w :: vs =>
    have hlength : (renderItems (w :: vs)).length = (render w ++ renderItems vs).length + 1 := rfl
    have hvalue := h.value v (renderItems (w :: vs) ++ rest) (by omega) (ends_renderItems _ rest)
    have hitems := h.items w vs rest (by omega)
    have hcomma : skipBlanks (renderItems (w :: vs) ++ rest) =
        ',' :: (render w ++ (renderItems vs ++ rest)) := by
      rw [renderItems, List.cons_append, List.cons_append, List.append_assoc]
      exact skipBlanks_cons (by decide) _
    rw [Json.items, hvalue]
    simp [hcomma, skipBlanks_render, hitems]

theorem members_succ (name : Option String) (v : Json) (ms : List (Option String × Json))
    (rest : List Char)
    (hfuel : (renderString name ++ ':' :: (render v ++ renderMembers ms)).length ≤ fuel + 1) :
    Json.members (fuel + 1) (renderString name ++ ':' :: (render v ++ (renderMembers ms ++ rest))) =
      some ((name, v) :: ms, rest) := by
  have hpos := v.length_render_pos
  obtain ⟨cs, hcs, hname⟩ :=
    stringBody_render name (':' :: (render v ++ (renderMembers ms ++ rest)))
  have hcolon : skipBlanks (':' :: (render v ++ (renderMembers ms ++ rest))) =
      ':' :: (render v ++ (renderMembers ms ++ rest)) := skipBlanks_cons (by decide) _
  rw [List.length_append, List.length_cons, List.length_append, hcs, List.length_cons] at hfuel
  have hvalue := h.value v (renderMembers ms ++ rest) (by omega) (ends_renderMembers ms rest)
  rw [hcs, List.cons_append, Json.members, hname]
  match ms with
  | [] =>
    have hclose : skipBlanks (renderMembers [] ++ rest) = '}' :: rest :=
      skipBlanks_cons (by decide) _
    simp [hcolon, skipBlanks_render, hvalue, hclose]
  | (name', w) :: ms =>
    have hlength : (renderMembers ((name', w) :: ms)).length =
        (renderString name' ++ ':' :: (render w ++ renderMembers ms)).length + 1 := by
      simp [renderMembers]
    have hmembers := h.members name' w ms rest (by omega)
    have hcomma : skipBlanks (renderMembers ((name', w) :: ms) ++ rest) =
        ',' :: (renderString name' ++ ':' :: (render w ++ (renderMembers ms ++ rest))) := by
      simp only [renderMembers, List.cons_append, List.append_assoc]
      exact skipBlanks_cons (by decide) _
    have hskip : skipBlanks (renderString name' ++ ':' :: (render w ++ (renderMembers ms ++ rest))) =
        renderString name' ++ ':' :: (render w ++ (renderMembers ms ++ rest)) := by
      obtain ⟨cs', hcs', -⟩ := stringBody_render name' []
      rw [hcs', List.cons_append]
      exact skipBlanks_cons (by decide) _
    simp [hcolon, skipBlanks_render, hvalue, hcomma, hskip, hmembers]

theorem succ : ReadsBack (fuel + 1) where
  value v _ hfuel hrest := h.value_succ v hfuel hrest
  items := h.items_succ
  members := h.members_succ

end ReadsBack

theorem readsBack (fuel : Nat) : ReadsBack fuel := by
  induction fuel with
  | zero => exact .zero
  | succ fuel ih => exact ih.succ

/-- **Every value reads back from its text.** -/
theorem ofText?_toText (v : Json) : ofText? v.toText = some v := by
  have hskip := skipBlanks_render v []
  have hvalue := (readsBack ((render v).length + 1)).value v [] (by omega) ends_nil
  rw [List.append_nil] at hskip hvalue
  rw [ofText?, toText, parse, String.toList_ofList, hskip, hvalue]
  rfl

end Json
end MeshView
