/-
# Numbers and strings read back from their text

A number ends where its digits end, so it reads back only in front of a text that does not go on with
more of a number (`Ends`); inside a JSON text that is always so.  A string ends with its closing quote,
and every escape sequence stands for the one character that it was written for.
-/

import MeshView.Json.Parse
import MeshView.Json.Render
import Mathlib.Data.Option.Basic

namespace MeshView
namespace Json

/-! ## Numbers -/

/-- The text does not go on with a digit, a fraction or an exponent. -/
def Ends (rest : List Char) : Prop :=
  ∀ c ∈ rest.head?, c.isDigit = false ∧ c ≠ '.' ∧ c ≠ 'e' ∧ c ≠ 'E'

theorem ends_nil : Ends [] := nofun

theorem valueOf_renderNat (n : Nat) : valueOf (renderNat n) = n := Nat.ofDigitChars_ten_toDigits

theorem isDigit_of_mem_renderNat {n : Nat} {c : Char} (h : c ∈ renderNat n) : c.isDigit = true :=
  Nat.isDigit_of_mem_toDigits (by decide) (by decide) h

/-- The first digit is zero for zero alone. -/
theorem exists_renderNat (n : Nat) : ∃ c cs, renderNat n = c :: cs ∧ c.isDigit = true ∧
    (c = '0' → cs = [] ∧ n = 0) := by
  induction n using Nat.strongRecOn with
  | ind n ih =>
    by_cases hn : n < 10
    · have hdigits : renderNat n = [n.digitChar] := Nat.toDigits_of_lt_base hn
      have hmem : n.digitChar ∈ renderNat n := hdigits ▸ List.mem_cons_self
      exact ⟨n.digitChar, [], hdigits, isDigit_of_mem_renderNat hmem,
        fun h => ⟨rfl, Nat.digitChar_eq_zero.1 h⟩⟩
    · have hdigits : renderNat n = renderNat (n / 10) ++ [(n % 10).digitChar] :=
        Nat.toDigits_of_base_le (by decide) (by omega)
      obtain ⟨c, cs, hcs, hdigit, hzero⟩ := ih (n / 10) (by omega)
      refine ⟨c, cs ++ [(n % 10).digitChar], ?_, hdigit, fun h => ?_⟩
      · rw [hdigits, hcs]
        rfl
      · have := (hzero h).2
        omega

theorem isWhole_renderNat (n : Nat) : isWhole (renderNat n) = true := by
  obtain ⟨c, cs, hcs, -, hzero⟩ := exists_renderNat n
  rw [hcs]
  by_cases h : c = '0'
  · rw [h, (hzero h).1]
    rfl
  · unfold isWhole
    split <;> simp_all

section Digits
variable {n : Nat} {rest : List Char} (hrest : ∀ c ∈ rest.head?, c.isDigit = false)
include hrest

theorem takeWhile_renderNat : (renderNat n ++ rest).takeWhile Char.isDigit = renderNat n := by
  have hnil : rest.takeWhile Char.isDigit = [] := by
    cases rest with
    | nil => rfl
    | cons c rest => simp [hrest c rfl]
  rw [List.takeWhile_append_of_pos fun c hc => isDigit_of_mem_renderNat hc, hnil, List.append_nil]

theorem dropWhile_renderNat : (renderNat n ++ rest).dropWhile Char.isDigit = rest := by
  rw [List.dropWhile_append_of_pos fun c hc => isDigit_of_mem_renderNat hc]
  cases rest with
  | nil => rfl
  | cons c rest => simp [hrest c rfl]

omit hrest in
theorem guard_of {p : Prop} [Decidable p] (h : p) : (guard p : Option Unit) = some () := if_pos h

/-- The digits of a number and what they are, whatever exponent follows them. -/
theorem unsignedNumber_renderNat (hpoint : ∀ c ∈ rest.head?, c ≠ '.') (negative : Bool)
    {size? : Option Int} {after : List Char} (hsize : exponent? rest = some (size?, after)) :
    unsignedNumber negative (renderNat n ++ rest) = some
      (if !negative && size?.isNone then .natural n else .real negative n (size?.getD 0), after) := by
  have hfraction : fraction? rest = some ([], rest) := by
    unfold fraction?
    split
    · exact absurd rfl (hpoint '.' rfl)
    · rfl
  unfold unsignedNumber
  dsimp only
  rw [takeWhile_renderNat hrest, dropWhile_renderNat hrest, guard_of (isWhole_renderNat n), hfraction]
  cases negative <;> cases size? <;> simp [hsize, valueOf_renderNat]

end Digits

theorem number_renderNat (n : Nat) {rest : List Char} (h : Ends rest) :
    number (renderNat n ++ rest) = some (.natural n, rest) := by
  have hexponent : exponent? rest = some (none, rest) := by
    unfold exponent?
    split
    · rename_i c cs
      obtain ⟨-, -, he, hE⟩ := h c rfl
      simp [he, hE]
    · rfl
  have hread := unsignedNumber_renderNat (n := n) (fun c hc => (h c hc).1) (fun c hc => (h c hc).2.1)
    false hexponent
  obtain ⟨c, cs, hcs, hdigit, -⟩ := exists_renderNat n
  rw [hcs] at hread ⊢
  unfold number
  split
  · simp_all
  · exact hread

theorem exponent?_render (exponent : Int) {rest : List Char} (h : Ends rest) :
    exponent? ('e' :: (if exponent < 0 then ['-'] else []) ++ renderNat exponent.natAbs ++ rest) =
      some (some exponent, rest) := by
  have hrest : ∀ c ∈ rest.head?, c.isDigit = false := fun c hc => (h c hc).1
  obtain ⟨c, cs, hcs, hdigit, -⟩ := exists_renderNat exponent.natAbs
  have hsign : exponentSign ((if exponent < 0 then ['-'] else []) ++
      (renderNat exponent.natAbs ++ rest)) =
        (decide (exponent < 0), renderNat exponent.natAbs ++ rest) := by
    by_cases hneg : exponent < 0
    · simp [hneg, exponentSign]
    · rw [if_neg hneg, decide_eq_false hneg, hcs]
      show exponentSign (c :: (cs ++ rest)) = _
      unfold exponentSign
      split <;> simp_all
  have hvalue : (if exponent < 0 then -(exponent.natAbs : Int) else exponent.natAbs) = exponent := by
    split <;> omega
  have hdigits : (renderNat exponent.natAbs).isEmpty = false := by rw [hcs]; rfl
  rw [List.cons_append, List.cons_append, List.append_assoc]
  simp only [exponent?, hsign, takeWhile_renderNat hrest, dropWhile_renderNat hrest,
    valueOf_renderNat, hdigits, true_or, if_true, Bool.false_eq_true, if_false, decide_eq_true_eq,
    hvalue]

theorem number_renderReal (negative : Bool) (digits : Nat) (exponent : Int) {rest : List Char}
    (h : Ends rest) : number (renderReal negative digits exponent ++ rest) =
      some (.real negative digits exponent, rest) := by
  have hread := unsignedNumber_renderNat (n := digits) (by simp) (by simp) negative
    (exponent?_render exponent h)
  obtain ⟨c, cs, hcs, hdigit, -⟩ := exists_renderNat digits
  cases negative with
  | true => simpa [renderReal, number] using hread
  | false =>
    simp only [renderReal, Bool.false_eq_true, if_false, List.nil_append, List.append_assoc]
    rw [hcs] at hread ⊢
    unfold number
    split
    · simp_all
    · simpa using hread

/-! ## Strings -/

/-- A character below the blank is the value of its two hexadecimal digits. -/
theorem unit?_hexDigits : ∀ n < 32,
    unit? '0' '0' (Bytes.hexDigit (n / 16)) (Bytes.hexDigit (n % 16)) = some n := by
  decide

/-- **An escape sequence stands for its character.** -/
theorem stringUnits_escape (c : Char) (rest : List Char) :
    stringUnits (escape c ++ rest) =
      (stringUnits rest).map fun p => (c.toNat :: p.1, p.2) := by
  have hletter : ∀ e, e ≠ 'u' → escapeLetter? e = some c.toNat →
      stringUnits ('\\' :: e :: rest) = (stringUnits rest).map fun p => (c.toNat :: p.1, p.2) := by
    intro e he hunit
    rw [stringUnits.eq_4 _ _ (by simp_all), hunit]
    cases stringUnits rest <;> rfl
  unfold escape
  -- seven characters have a letter of their own
  iterate 7
    split
    · subst_vars
      exact hletter _ (by decide) rfl
  split
  · rename_i hcontrol
    show stringUnits ('\\' :: 'u' :: '0' :: '0' :: _ :: _ :: rest) = _
    rw [stringUnits, unit?_hexDigits _ hcontrol]
    cases stringUnits rest <;> rfl
  · rename_i hquote hbackslash _ _ _ _ _ hplain
    show stringUnits (c :: rest) = _
    rw [stringUnits.eq_5 _ _ hquote (by simp_all) (by simp_all),
      guard_of ⟨hbackslash, Nat.not_lt.1 hplain⟩]
    cases stringUnits rest <;> rfl

/-- No character is half of a surrogate pair. -/
theorem notHalf_toNat (c : Char) : isHighHalf c.toNat = false ∧ isLowHalf c.toNat = false := by
  have hvalid := c.valid
  have hnat : c.toNat = c.val.toNat := rfl
  simp only [isHighHalf, isLowHalf, decide_eq_false_iff_not]
  rcases hvalid with h | h <;> omega

theorem pairUnits_toNat (cs : List Char) : pairUnits (cs.map Char.toNat) = some cs := by
  induction cs with
  | nil => rfl
  | cons c cs ih =>
    obtain ⟨hhigh, hlow⟩ := notHalf_toNat c
    rw [List.map_cons, pairUnits.eq_def]
    simp [hhigh, hlow, ih, Char.ofNat_toNat]

/-- **A string reads back**, whatever follows its closing quote. -/
theorem stringBody_escape (cs rest : List Char) :
    stringBody (cs.flatMap escape ++ '"' :: rest) = some (some (String.ofList cs), rest) := by
  have hunits : stringUnits (cs.flatMap escape ++ '"' :: rest) = some (cs.map Char.toNat, rest) := by
    induction cs with
    | nil => rfl
    | cons c cs ih =>
      rw [List.flatMap_cons, List.append_assoc, stringUnits_escape, ih]
      rfl
  simp [stringBody, hunits, pairUnits_toNat]

/-- So does a string that stands for no text. -/
theorem stringBody_render (s : Option String) (rest : List Char) :
    ∃ cs, renderString s = '"' :: cs ∧ stringBody (cs ++ rest) = some (s, rest) := by
  cases s with
  | none =>
    refine ⟨['\\', 'u', 'd', '8', '0', '0', '"'], rfl, ?_⟩
    have hunits : stringUnits ('\\' :: 'u' :: 'd' :: '8' :: '0' :: '0' :: '"' :: rest) =
        some ([0xd800], rest) := rfl
    show stringBody ('\\' :: 'u' :: 'd' :: '8' :: '0' :: '0' :: '"' :: rest) = some (none, rest)
    rw [stringBody, hunits]
    rfl
  | some s =>
    refine ⟨s.toList.flatMap escape ++ ['"'], rfl, ?_⟩
    rw [List.append_assoc]
    simpa using stringBody_escape s.toList rest

end Json
end MeshView
