import ClassAtlas.Text.Basic

namespace ClassAtlas

/-- A strict total order with a decision procedure. -/
class KeyOrder (κ : Type) where
  before : κ → κ → Bool
  irrefl : ∀ a, before a a = false
  trans : ∀ a b c, before a b = true → before b c = true → before a c = true
  eq_of_not_before : ∀ a b, before a b = false → before b a = false → a = b

namespace KeyOrder

variable {κ : Type} [KeyOrder κ]

/-- At most one of two keys comes before the other. -/
theorem asymm {a b : κ} (h : before a b = true) : before b a = false := by
  cases hba : before b a with
  | false => rfl
  | true =>
    have haa := trans a b a h hba
    rw [irrefl a] at haa
    exact haa.symm

/-- A key before another one differs from it. -/
theorem ne_of_before {a b : κ} (h : before a b = true) : a ≠ b := by
  intro hab
  subst hab
  rw [irrefl a] at h
  contradiction

/-- Of two different keys one comes before the other. -/
theorem before_or_before {a b : κ} (h : a ≠ b) :
    before a b = true ∨ before b a = true := by
  cases hab : before a b with
  | true => exact Or.inl rfl
  | false =>
    cases hba : before b a with
    | true => exact Or.inr rfl
    | false => exact absurd (eq_of_not_before a b hab hba) h

/-- The order of lists: the first difference decides, and a list comes before its extensions. -/
def listBefore : List κ → List κ → Bool
  | _, [] => false
  | [], _ :: _ => true
  | x :: a, y :: b => before x y || (!before y x && listBefore a b)

/-- No list comes before itself. -/
theorem listBefore_irrefl (a : List κ) : listBefore a a = false := by
  induction a with
  | nil => rfl
  | cons x a ih => simp [listBefore, ih, irrefl]

/-- The order of lists at two nonempty lists. -/
theorem listBefore_cons_iff {x y : κ} {a b : List κ} :
    listBefore (x :: a) (y :: b) = true ↔ before x y = true ∨ (x = y ∧ listBefore a b = true) := by
  simp only [listBefore, Bool.or_eq_true, Bool.and_eq_true, Bool.not_eq_true']
  constructor
  · rintro (h | ⟨hyx, hab⟩)
    · exact Or.inl h
    · cases hxy : before x y with
      | true => exact Or.inl rfl
      | false => exact Or.inr ⟨eq_of_not_before _ _ hxy hyx, hab⟩
  · rintro (h | ⟨rfl, hab⟩)
    · exact Or.inl h
    · exact Or.inr ⟨irrefl _, hab⟩

/-- The order of lists is transitive. -/
theorem listBefore_trans (a b c : List κ) (hab : listBefore a b = true)
    (hbc : listBefore b c = true) : listBefore a c = true := by
  induction a generalizing b c with
  | nil =>
    cases c with
    | nil => cases b <;> simp [listBefore] at hbc
    | cons z c => rfl
  | cons x a ih =>
    cases b with
    | nil => simp [listBefore] at hab
    | cons y b =>
      cases c with
      | nil => simp [listBefore] at hbc
      | cons z c =>
        rw [listBefore_cons_iff] at hab hbc ⊢
        rcases hab with hxy | ⟨rfl, hab⟩
        · rcases hbc with hyz | ⟨rfl, _⟩
          · exact Or.inl (trans _ _ _ hxy hyz)
          · exact Or.inl hxy
        · rcases hbc with hyz | ⟨rfl, hbc⟩
          · exact Or.inl hyz
          · exact Or.inr ⟨rfl, ih b c hab hbc⟩

/-- Two lists of which neither comes before the other are equal. -/
theorem eq_of_not_listBefore (a b : List κ) (hab : listBefore a b = false)
    (hba : listBefore b a = false) : a = b := by
  induction a generalizing b with
  | nil =>
    cases b with
    | nil => rfl
    | cons y b => simp [listBefore] at hab
  | cons x a ih =>
    cases b with
    | nil => simp [listBefore] at hba
    | cons y b =>
      simp only [listBefore, Bool.or_eq_false_iff] at hab hba
      have hxy : x = y := eq_of_not_before _ _ hab.1 hba.1
      subst hxy
      simp only [irrefl, Bool.not_false, Bool.true_and, true_and] at hab hba
      rw [ih b hab hba]

instance : KeyOrder UInt8 where
  before x y := x < y
  irrefl x := by simp
  trans x y z hxy hyz := by
    simp only [decide_eq_true_eq] at hxy hyz ⊢
    exact UInt8.lt_trans hxy hyz
  eq_of_not_before x y hxy hyx := by
    simp only [decide_eq_false_iff_not] at hxy hyx
    exact UInt8.le_antisymm (UInt8.not_lt.mp hyx) (UInt8.not_lt.mp hxy)

instance : KeyOrder (List κ) where
  before := listBefore
  irrefl := listBefore_irrefl
  trans := listBefore_trans
  eq_of_not_before := eq_of_not_listBefore

instance : KeyOrder Nat where
  before x y := x < y
  irrefl x := by simp
  trans x y z hxy hyz := by
    simp only [decide_eq_true_eq] at hxy hyz ⊢
    exact Nat.lt_trans hxy hyz
  eq_of_not_before x y hxy hyx := by
    simp only [decide_eq_false_iff_not, Nat.not_lt] at hxy hyx
    exact Nat.le_antisymm hyx hxy

/-- Pairs are ordered by their first component, then by their second. -/
instance {α β : Type} [KeyOrder α] [KeyOrder β] : KeyOrder (α × β) where
  before p q := before p.1 q.1 || (!before q.1 p.1 && before p.2 q.2)
  irrefl p := by simp [irrefl]
  trans p q r hpq hqr := by
    simp only [Bool.or_eq_true, Bool.and_eq_true, Bool.not_eq_true'] at hpq hqr ⊢
    rcases hpq with h | ⟨h, h'⟩ <;> rcases hqr with k | ⟨k, k'⟩
    · exact Or.inl (trans _ _ _ h k)
    · cases hqr1 : before q.1 r.1 with
      | true => exact Or.inl (trans _ _ _ h hqr1)
      | false => exact Or.inl (eq_of_not_before _ _ hqr1 k ▸ h)
    · cases hpq1 : before p.1 q.1 with
      | true => exact Or.inl (trans _ _ _ hpq1 k)
      | false => exact Or.inl (eq_of_not_before _ _ hpq1 h ▸ k)
    · cases hpq1 : before p.1 q.1 with
      | true =>
        cases hqr1 : before q.1 r.1 with
        | true => exact Or.inl (trans _ _ _ hpq1 hqr1)
        | false => exact Or.inl (eq_of_not_before _ _ hqr1 k ▸ hpq1)
      | false =>
        have hpq' := eq_of_not_before _ _ hpq1 h
        cases hqr1 : before q.1 r.1 with
        | true => exact Or.inl (hpq' ▸ hqr1)
        | false =>
          have hqr' := eq_of_not_before _ _ hqr1 k
          refine Or.inr ⟨?_, trans _ _ _ h' k'⟩
          rw [hpq', hqr']
          exact irrefl _
  eq_of_not_before p q hpq hqp := by
    simp only [Bool.or_eq_false_iff] at hpq hqp
    have hfst := eq_of_not_before _ _ hpq.1 hqp.1
    have hsnd : p.2 = q.2 := by
      have h := hpq.2
      have k := hqp.2
      rw [hqp.1] at h
      rw [hpq.1] at k
      exact eq_of_not_before _ _ (by simpa using h) (by simpa using k)
    exact Prod.ext hfst hsnd

end KeyOrder

end ClassAtlas
