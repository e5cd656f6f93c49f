import ClassAtlas.Text.Basic

namespace ClassAtlas

/-- The number of names that are not visited yet. -/
def unvisited (names visited : List Text) : Nat := (names.filter fun n => !visited.contains n).length

/-- A list that passes fewer elements and at least one less is shorter. -/
theorem length_filter_lt {α : Type} {p q : α → Bool} {xs : List α} {a : α} (ha : a ∈ xs)
    (hp : p a = false) (hq : q a = true) (hpq : ∀ x, p x = true → q x = true) :
    (xs.filter p).length < (xs.filter q).length := by
  have hfilter : xs.filter p = (xs.filter q).filter p := by
    rw [List.filter_filter]
    congr 1
    funext x
    cases hx : p x with
    | false => simp
    | true => simp [hpq x hx]
  rw [hfilter]
  refine Nat.lt_of_le_of_ne (List.length_filter_le _ _) fun heq => ?_
  have hall := List.length_filter_eq_length_iff.mp heq a (List.mem_filter.mpr ⟨ha, hq⟩)
  rw [hp] at hall
  contradiction

/-- More visits never leave more to visit. -/
theorem unvisited_le {names visited more : List Text} (h : ∀ n ∈ visited, n ∈ more) :
    unvisited names more ≤ unvisited names visited := by
  unfold unvisited
  have hfilter : (names.filter fun n => !more.contains n) =
      (names.filter fun n => !visited.contains n).filter fun n => !more.contains n := by
    rw [List.filter_filter]
    congr 1
    funext n
    cases hn : more.contains n with
    | true => simp
    | false =>
      have : visited.contains n = false := by
        simp only [List.contains_eq_mem, decide_eq_false_iff_not] at hn ⊢
        exact fun hmem => hn (h n hmem)
      rw [this]; rfl
  rw [hfilter]
  exact List.length_filter_le _ _

/-- A first visit to one of the names leaves fewer to visit. -/
theorem unvisited_lt {names visited more : List Text} {name : Text} (hname : name ∈ names)
    (hnew : visited.contains name = false) (hmore : name ∈ more) (h : ∀ n ∈ visited, n ∈ more) :
    unvisited names more < unvisited names visited := by
  refine length_filter_lt hname ?_ ?_ fun n hn => ?_
  · simpa using hmore
  · rw [hnew]; rfl
  · simp only [List.contains_eq_mem, Bool.not_eq_true', decide_eq_false_iff_not] at hn ⊢
    exact fun hmem => hn (h n hmem)

end ClassAtlas
