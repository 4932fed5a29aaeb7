/-
# The latest word

Where later words replace earlier ones, what counts in the end is the last element of a list that says
anything at all (`latest`).  It is found from the end of the list (`latest_concat`), and a state that
takes over what each element says and keeps what it has otherwise ends up with it (`foldl_latest`).
-/

namespace MeshView

/-- What the last element says that says anything. -/
def latest {α β : Type} (tell : α → Option β) (xs : List α) : Option β :=
  (xs.filterMap tell).getLast?

section Latest
variable {α β : Type} (tell : α → Option β)

@[simp] theorem latest_nil : latest tell [] = none := rfl

theorem latest_append (xs ys : List α) :
    latest tell (xs ++ ys) = (latest tell ys).or (latest tell xs) := by
  rw [latest, List.filterMap_append, List.getLast?_append]
  rfl

theorem latest_singleton (x : α) : latest tell [x] = tell x := by
  cases hx : tell x <;> simp [latest, hx]

theorem latest_concat (xs : List α) (x : α) :
    latest tell (xs ++ [x]) = (tell x).or (latest tell xs) := by
  rw [latest_append, latest_singleton]

theorem latest_cons (x : α) (xs : List α) :
    latest tell (x :: xs) = (latest tell xs).or (tell x) := by
  rw [← List.singleton_append, latest_append, latest_singleton]

theorem latest_map {γ : Type} (f : γ → α) (xs : List γ) :
    latest tell (xs.map f) = latest (tell ∘ f) xs := by
  rw [latest, List.filterMap_map]
  rfl

theorem mem_of_latest {xs : List α} {y : β} (h : latest tell xs = some y) :
    ∃ x ∈ xs, tell x = some y :=
  List.mem_filterMap.1 (List.mem_of_getLast? h)

theorem latest_eq_none_iff {xs : List α} : latest tell xs = none ↔ ∀ x ∈ xs, tell x = none := by
  rw [latest, List.getLast?_eq_none_iff, List.filterMap_eq_nil_iff]

/-- What is seen of a state in which every element of a list replaces what was seen before, as long as
an invariant lets it. -/
theorem foldl_latest {σ : Type} {step : σ → α → σ} (seen : σ → Option β) {P : σ → Prop}
    (xs : List α) (hkeep : ∀ s, P s → ∀ x ∈ xs, P (step s x))
    (hstep : ∀ s, P s → ∀ x ∈ xs, seen (step s x) = (tell x).or (seen s)) {s : σ} (hs : P s) :
    seen (xs.foldl step s) = (latest tell xs).or (seen s) := by
  induction xs generalizing s with
  | nil => rfl
  | cons x xs ih =>
    have hfirst : x ∈ x :: xs := List.mem_cons_self
    rw [List.foldl_cons, ih (fun s hs y hy => hkeep s hs y (List.mem_cons_of_mem _ hy))
      (fun s hs y hy => hstep s hs y (List.mem_cons_of_mem _ hy)) (hkeep s hs x hfirst),
      hstep s hs x hfirst, latest_cons, Option.or_assoc]

end Latest
end MeshView
