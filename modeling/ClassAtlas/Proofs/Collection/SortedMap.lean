import ClassAtlas.Collection.SortedMap
import Mathlib.Data.List.Sort

namespace ClassAtlas

variable {κ α β : Type} [KeyOrder κ]

/-- Pairs with the same first part are ordered by their second part. -/
theorem KeyOrder.before_same_fst [KeyOrder α] (a : α) (b c : κ) :
    before (a, b) (a, c) = before b c := by
  simp [before, irrefl]

/-- Pairs with the same second part are ordered by their first part. -/
theorem KeyOrder.before_same_snd [KeyOrder α] (a b : κ) (c : α) :
    before (a, c) (b, c) = before a b := by
  simp [before, irrefl]

/-- The keys of the elements increase strictly. -/
def IncreasingBy (key : α → κ) (xs : List α) : Prop :=
  xs.Pairwise fun a b => KeyOrder.before (key a) (key b) = true

namespace IncreasingBy

variable {key : α → κ} {xs ys : List α}

/-- A list in strictly increasing order is determined by its elements. -/
theorem eq_of_mem_iff (hx : IncreasingBy key xs) (hy : IncreasingBy key ys)
    (h : ∀ a, a ∈ xs ↔ a ∈ ys) : xs = ys := by
  have : Std.Irrefl fun a b : α => KeyOrder.before (key a) (key b) = true :=
    ⟨fun a => by simp [KeyOrder.irrefl]⟩
  have : Std.Antisymm fun a b : α => KeyOrder.before (key a) (key b) = true :=
    ⟨fun a b hab hba => by simp [KeyOrder.asymm hab] at hba⟩
  exact List.Pairwise.eq_of_mem_iff hx hy h

/-- No two elements have one key. -/
theorem nodup_map (h : IncreasingBy key xs) : (xs.map key).Nodup := by
  rw [List.nodup_iff_pairwise_ne, List.pairwise_map]
  exact h.imp fun hab => KeyOrder.ne_of_before hab

/-- No element stands twice. -/
theorem nodup (h : IncreasingBy key xs) : xs.Nodup := h.nodup_map.of_map key

/-- An element is determined by its key. -/
theorem eq_of_key_eq (h : IncreasingBy key xs) {a b : α} (ha : a ∈ xs) (hb : b ∈ xs)
    (hkey : key a = key b) : a = b :=
  List.inj_on_of_nodup_map h.nodup_map ha hb hkey

/-- What is left of a sorted list is sorted. -/
theorem filter (h : IncreasingBy key xs) (p : α → Bool) : IncreasingBy key (xs.filter p) :=
  List.Pairwise.filter p h

/-- A list is sorted if what it was made from was sorted by the keys it gets. -/
theorem map {f : β → α} {bs : List β} (h : IncreasingBy (fun b => key (f b)) bs) :
    IncreasingBy key (bs.map f) := List.pairwise_map.mpr h

/-- Where the first of two keys is the same throughout, the second one increases. -/
theorem of_same_fst [KeyOrder β] {first : α → β} (h : IncreasingBy (fun a => (first a, key a)) xs)
    {k : β} (hsame : ∀ a ∈ xs, first a = k) : IncreasingBy key xs := by
  refine List.Pairwise.imp_of_mem ?_ h
  intro a b ha hb hbefore
  simpa only [hsame a ha, hsame b hb, KeyOrder.before_same_fst] using hbefore

/-- A list that is sorted by two keys and has only one second key is sorted by the first one. -/
theorem of_same_snd [KeyOrder β] {second : α → β} (h : IncreasingBy (fun a => (key a, second a)) xs)
    {k : β} (hsame : ∀ a ∈ xs, second a = k) : IncreasingBy key xs := by
  refine List.Pairwise.imp_of_mem ?_ h
  intro a b ha hb hbefore
  simpa only [hsame a ha, hsame b hb, KeyOrder.before_same_snd] using hbefore

end IncreasingBy

/-- Sorting loses nothing and repeats nothing. -/
theorem sortBy_perm (key : α → κ) (xs : List α) : (sortBy key xs).Perm xs := List.mergeSort_perm _ _

/-- Sorting keeps the elements. -/
@[simp] theorem mem_sortBy {key : α → κ} {xs : List α} {a : α} : a ∈ sortBy key xs ↔ a ∈ xs :=
  List.mem_mergeSort

/-- Sorting keeps the length. -/
@[simp] theorem length_sortBy (key : α → κ) (xs : List α) : (sortBy key xs).length = xs.length :=
  List.length_mergeSort _

/-- Sorting a list whose keys are all different gives a strictly increasing list. -/
theorem increasingBy_sortBy {key : α → κ} {xs : List α} (h : (xs.map key).Nodup) :
    IncreasingBy key (sortBy key xs) := by
  have hsorted : (sortBy key xs).Pairwise fun a b => (!KeyOrder.before (key b) (key a)) = true := by
    apply List.pairwise_mergeSort
    · intro a b c hab hbc
      simp only [Bool.not_eq_true'] at hab hbc ⊢
      cases hca : KeyOrder.before (key c) (key a) with
      | false => rfl
      | true =>
        by_cases hkey : key a = key b
        · rw [hkey, hbc] at hca
          exact hca.symm
        · have hab' := (KeyOrder.before_or_before hkey).resolve_right (by simp [hab])
          rw [KeyOrder.trans _ _ _ hca hab'] at hbc
          exact hbc
    · intro a b
      cases hba : KeyOrder.before (key b) (key a) with
      | false => simp
      | true => simp [KeyOrder.asymm hba]
  have hdistinct : (sortBy key xs).Pairwise fun a b => key a ≠ key b := by
    rw [← List.pairwise_map (R := (· ≠ ·)), ← List.nodup_iff_pairwise_ne]
    exact ((sortBy_perm key xs).map key).nodup_iff.mpr h
  refine (hsorted.and hdistinct).imp ?_
  rintro a b ⟨hab, hne⟩
  exact (KeyOrder.before_or_before hne).resolve_right (by simpa using hab)

/-- An increasing list is what sorting makes of every order of its elements. -/
theorem sortBy_eq_of_perm {key : α → κ} {xs ys : List α} (hperm : xs.Perm ys)
    (h : IncreasingBy key ys) : sortBy key xs = ys := by
  have hnodup : (xs.map key).Nodup := (hperm.map key).nodup_iff.mpr h.nodup_map
  apply (increasingBy_sortBy hnodup).eq_of_mem_iff h
  intro a
  rw [mem_sortBy, hperm.mem_iff]

/-- A list that increases strictly is left alone by sorting. -/
theorem sortBy_eq_self {key : α → κ} {xs : List α} (h : IncreasingBy key xs) : sortBy key xs = xs :=
  sortBy_eq_of_perm (List.Perm.refl xs) h

/-- Halving finds an element of an increasing array between the bounds. -/
theorem lowerBound_eq_of_getElem? {ks : Array κ} (hsorted : IncreasingBy id ks.toList) {k : κ}
    {i low high : Nat} (hi : ks[i]? = some k) (hlow : low ≤ i) (hhigh : i ≤ high) :
    lowerBound ks k low high = i := by
  have hbefore : ∀ {a b : Nat} {x y : κ}, a < b → ks[a]? = some x → ks[b]? = some y →
      KeyOrder.before x y = true := by
    intro a b x y hab hx hy
    obtain ⟨ha, rfl⟩ := Array.getElem?_eq_some_iff.mp hx
    obtain ⟨hb, rfl⟩ := Array.getElem?_eq_some_iff.mp hy
    exact List.pairwise_iff_getElem.mp hsorted a b ha hb hab
  fun_induction lowerBound ks k low high with
  | case1 low high hlt middle hmiddle ih =>
    obtain ⟨x, hx, hxk⟩ := (Option.any_eq_true _ _).mp hmiddle
    refine ih ?_ hhigh
    by_contra hnot
    rcases Nat.eq_or_lt_of_le (Nat.le_of_not_lt hnot) with rfl | hless
    · rw [hi] at hx
      obtain rfl := Option.some.inj hx
      rw [KeyOrder.irrefl] at hxk
      contradiction
    · have hkx := hbefore hless hi hx
      rw [KeyOrder.asymm hkx] at hxk
      contradiction
  | case2 low high hlt middle hmiddle ih =>
    refine ih hlow ?_
    by_contra hnot
    have hsize : middle < ks.size := by
      have hbound := (Array.getElem?_eq_some_iff.mp hi).1
      omega
    have hkm := hbefore (Nat.lt_of_not_le hnot) (Array.getElem?_eq_getElem hsize) hi
    exact hmiddle ((Option.any_eq_true _ _).mpr ⟨_, Array.getElem?_eq_getElem hsize, hkm⟩)
  | case3 low high hnot => omega

/-- The binary search finds exactly the elements of a sorted list. -/
theorem hasSorted_iff [BEq κ] [LawfulBEq κ] {ks : List κ} (hsorted : IncreasingBy id ks) {k : κ} :
    hasSorted ks.toArray k = true ↔ k ∈ ks := by
  unfold hasSorted
  rw [beq_iff_eq]
  constructor
  · intro hfound
    simpa using Array.mem_of_getElem? hfound
  · intro hmem
    obtain ⟨i, hi⟩ := List.mem_iff_getElem?.mp hmem
    have hi' : ks.toArray[i]? = some k := by simpa using hi
    have hbound := (Array.getElem?_eq_some_iff.mp hi').1
    rw [lowerBound_eq_of_getElem? hsorted hi' (Nat.zero_le i) (Nat.le_of_lt hbound), hi']

namespace SortedMap

/-- Nothing is found in a map without entries. -/
@[simp] theorem find?_empty (k : κ) : (empty : SortedMap κ α).find? k = none := rfl

private theorem findIn_of_mem {k : κ} {v : α} {entries : List (κ × α)} (hasc : Ascending entries)
    (h : (k, v) ∈ entries) : findIn k entries = some v := by
  induction entries with
  | nil => simp at h
  | cons e rest ih =>
    obtain ⟨key, w⟩ := e
    have hrest := List.pairwise_cons.mp hasc
    rcases List.mem_cons.mp h with h | h
    · obtain ⟨rfl, rfl⟩ := Prod.mk.inj h
      simp [findIn, KeyOrder.irrefl]
    · have hbefore := hrest.1 _ h
      simp [findIn, hbefore, KeyOrder.asymm hbefore, ih hrest.2 h]

/-- The entries of a map are the keys with the values found at them. -/
theorem mem_toList_iff {m : SortedMap κ α} {k : κ} {v : α} :
    (k, v) ∈ m.toList ↔ m.find? k = some v :=
  ⟨findIn_of_mem m.ascending, mem_of_findIn⟩

/-- A search from the front of the entries finds the same as a look-up, which stops where the keys get too
large. -/
theorem lookup_toList [BEq κ] [LawfulBEq κ] (m : SortedMap κ α) (k : κ) :
    m.toList.lookup k = m.find? k := by
  cases hlookup : m.toList.lookup k with
  | some v =>
    obtain ⟨before, behind, hsplit, -⟩ := List.lookup_eq_some_iff.mp hlookup
    exact (mem_toList_iff.mp (by simp [hsplit])).symm
  | none =>
    cases hfind : m.find? k with
    | none => rfl
    | some v =>
      have hne := List.lookup_eq_none_iff.mp hlookup (k, v) (mem_toList_iff.mpr hfind)
      simp at hne

/-- Every key comes once, in order. -/
theorem increasingBy_toList (m : SortedMap κ α) : IncreasingBy Prod.fst m.toList := m.ascending

/-- Two maps with the same look-ups are equal. -/
theorem ext {m m' : SortedMap κ α} (h : ∀ k, m.find? k = m'.find? k) : m = m' := by
  have hlist : m.toList = m'.toList := by
    apply m.increasingBy_toList.eq_of_mem_iff m'.increasingBy_toList
    rintro ⟨k, v⟩
    rw [mem_toList_iff, mem_toList_iff, h]
  cases m
  cases m'
  cases hlist
  rfl

/-- A key is contained if a value is found for it. -/
theorem contains_iff {m : SortedMap κ α} {k : κ} : m.contains k = true ↔ ∃ v, m.find? k = some v :=
  Option.isSome_iff_exists

/-- A key is not contained if nothing is found for it. -/
theorem contains_eq_false_iff {m : SortedMap κ α} {k : κ} :
    m.contains k = false ↔ m.find? k = none := by
  simp [contains]

/-- The keys listed are those that are contained. -/
theorem mem_keys_iff {m : SortedMap κ α} {k : κ} : k ∈ m.keys ↔ m.contains k = true := by
  rw [contains_iff]
  constructor
  · intro h
    obtain ⟨⟨j, v⟩, hmem, rfl⟩ := List.mem_map.mp h
    exact ⟨v, mem_toList_iff.mp hmem⟩
  · rintro ⟨v, hv⟩
    exact mem_keys_of_find? hv

/-- The keys are listed in order, without repetition. -/
theorem increasingBy_keys (m : SortedMap κ α) :
    IncreasingBy id m.keys := IncreasingBy.map m.ascending

/-- The values listed are those that are found for some key. -/
theorem mem_values_iff {m : SortedMap κ α} {v : α} : v ∈ m.values ↔ ∃ k, m.find? k = some v := by
  constructor
  · intro h
    obtain ⟨⟨k, w⟩, hmem, rfl⟩ := List.mem_map.mp h
    exact ⟨k, mem_toList_iff.mp hmem⟩
  · rintro ⟨k, hk⟩
    exact List.mem_map.mpr ⟨(k, v), mem_toList_iff.mpr hk, rfl⟩

/-- Values that tell their own keys stand in the order of these. -/
theorem increasingBy_values {m : SortedMap κ α} {key : α → κ}
    (h : ∀ {k v}, m.find? k = some v → key v = k) :
    IncreasingBy key m.values := by
  refine IncreasingBy.map (m.increasingBy_toList.imp_of_mem ?_)
  rintro ⟨j, v⟩ ⟨k, w⟩ hv hw hjk
  change KeyOrder.before (key v) (key w) = true
  rw [h (mem_toList_iff.mp hv), h (mem_toList_iff.mp hw)]
  exact hjk

/-- Values that tell their own keys are found by them. -/
theorem find?_values [BEq κ] [LawfulBEq κ] {m : SortedMap κ α} {key : α → κ}
    (h : ∀ {k v}, m.find? k = some v → key v = k) (k : κ) :
    m.values.find? (key · == k) = m.find? k := by
  have hkey : ∀ v ∈ m.values, (key v == k) = true → m.find? k = some v := by
    intro v hv heq
    obtain ⟨j, hj⟩ := mem_values_iff.mp hv
    rwa [← h hj, eq_of_beq heq] at hj
  cases hv : m.find? k with
  | none =>
    rw [List.find?_eq_none]
    intro v hmem heq
    rw [hkey v hmem heq] at hv
    contradiction
  | some v =>
    have hmem : v ∈ m.values := mem_values_iff.mpr ⟨k, hv⟩
    have hsome : (m.values.find? (key · == k)).isSome = true :=
      List.find?_isSome.mpr ⟨v, hmem, by simp [h hv]⟩
    obtain ⟨w, hw⟩ := Option.isSome_iff_exists.mp hsome
    have hbeq := List.find?_some hw
    have hfound := hkey w (List.mem_of_find?_eq_some hw) hbeq
    rw [hw, ← hfound, hv]

private theorem findIn_map {f : κ → α → β} (k : κ) (entries : List (κ × α)) :
    findIn k (entries.map fun p => (p.1, f p.1 p.2)) = (findIn k entries).map (f k) := by
  induction entries with
  | nil => rfl
  | cons e rest ih =>
    obtain ⟨key, w⟩ := e
    simp only [List.map_cons, findIn, ih]
    split
    · rfl
    · next hlt =>
      split
      · rfl
      · next hgt =>
        rw [KeyOrder.eq_of_not_before k key (by simpa using hlt) (by simpa using hgt)]
        rfl

/-- A change of all values shows in every look-up. -/
@[simp] theorem find?_map (m : SortedMap κ α) (f : κ → α → β) (k : κ) :
    (m.map f).find? k = (m.find? k).map (f k) := findIn_map k m.toList

/-- A change of all values leaves the keys alone. -/
@[simp] theorem contains_map (m : SortedMap κ α) (f : κ → α → β) (k : κ) :
    (m.map f).contains k = m.contains k := by
  simp [contains]

/-- A change of all values leaves the number of entries alone. -/
@[simp] theorem size_map (m : SortedMap κ α) (f : κ → α → β) : (m.map f).size = m.size := by
  simp [size, map]

/-- A change at one key shows there only, and only if a value was there. -/
theorem find?_modify [DecidableEq κ] (m : SortedMap κ α) (j k : κ) (f : α → α) :
    (m.modify k f).find? j = if j = k then (m.find? k).map f else m.find? j := by
  unfold modify
  cases hk : m.find? k with
  | none =>
    simp only [Option.map_none]
    split
    · next h => rw [h, hk]
    · rfl
  | some v => rw [find?_insert, Option.map_some]

/-- A change at one key leaves the keys alone. -/
@[simp] theorem contains_modify [DecidableEq κ] (m : SortedMap κ α) (j k : κ) (f : α → α) :
    (m.modify k f).contains j = m.contains j := by
  unfold contains
  rw [find?_modify]
  split
  · next h => simp [h]
  · rfl

/-- An erased key is not found any more, and all others are. -/
theorem find?_erase [DecidableEq κ] (m : SortedMap κ α) (j k : κ) :
    (m.erase k).find? j = if j = k then none else m.find? j := by
  have hmem : ∀ v, (j, v) ∈ (m.erase k).toList ↔ (j, v) ∈ m.toList ∧ j ≠ k := by
    intro v
    simp only [erase, List.mem_filter, Bool.or_eq_true]
    refine and_congr_right fun _ => ⟨?_, fun hne => KeyOrder.before_or_before hne⟩
    rintro (h | h)
    · exact KeyOrder.ne_of_before h
    · exact (KeyOrder.ne_of_before h).symm
  apply Option.ext
  intro v
  rw [← mem_toList_iff, hmem, mem_toList_iff]
  split
  · next h => simp [h]
  · next h => simp [h]

private theorem length_insertIn (k : κ) (v : α) (entries : List (κ × α))
    (h : findIn k entries = none) :
    (insertIn k v entries).length = entries.length + 1 := by
  induction entries with
  | nil => rfl
  | cons e rest ih =>
    obtain ⟨key, w⟩ := e
    unfold findIn at h
    unfold insertIn
    split at h
    · next hlt => rw [if_pos hlt]; rfl
    · next hlt =>
      rw [if_neg hlt]
      split at h
      · next hgt => rw [if_pos hgt, List.length_cons, ih h, List.length_cons]
      · contradiction

/-- A new key makes the map larger by one. -/
theorem size_insert_of_find?_eq_none {m : SortedMap κ α} {k : κ} (h : m.find? k = none) (v : α) :
    (m.insert k v).size = m.size + 1 := length_insertIn k v m.toList h

private theorem keys_insertIn (k : κ) (v : α) {old : α} (entries : List (κ × α))
    (h : findIn k entries = some old) :
    (insertIn k v entries).map Prod.fst = entries.map Prod.fst := by
  induction entries with
  | nil => simp [findIn] at h
  | cons e rest ih =>
    obtain ⟨key, w⟩ := e
    unfold findIn at h
    unfold insertIn
    split at h
    · contradiction
    · next hlt =>
      rw [if_neg hlt]
      split at h
      · next hgt => rw [if_pos hgt, List.map_cons, ih h, List.map_cons]
      · next hgt =>
        rw [if_neg hgt, KeyOrder.eq_of_not_before k key (by simpa using hlt) (by simpa using hgt)]
        rfl

/-- A change of values keeps the keys. -/
@[simp] theorem keys_modify (m : SortedMap κ α) (k : κ) (f : α → α) :
    (m.modify k f).keys = m.keys := by
  unfold modify
  cases hk : m.find? k with
  | none => rfl
  | some v => exact keys_insertIn k (f v) m.toList hk

/-- A change at one key leaves the number of entries alone, whether the key was there or not. -/
@[simp] theorem size_modify (m : SortedMap κ α) (k : κ) (f : α → α) :
    (m.modify k f).size = m.size := by
  have h := congrArg List.length (m.keys_modify k f)
  simpa [keys, size] using h

end SortedMap

namespace SortedSet

/-- After keys were added, a set contains those and what it contained before. -/
theorem contains_foldl_add [DecidableEq κ] (s : SortedSet κ) (ks : List κ) (k : κ) :
    (ks.foldl add s).contains k = (s.contains k || decide (k ∈ ks)) := by
  induction ks generalizing s with
  | nil => simp
  | cons a rest ih =>
    rw [List.foldl_cons, ih]
    simp only [add, SortedMap.contains_insert, List.mem_cons, Bool.decide_or]
    cases s.contains k <;> cases decide (k = a) <;> rfl

end SortedSet

/-- The distinct elements of a list are its elements. -/
theorem mem_sortDistinct [DecidableEq κ] {ks : List κ} {k : κ} : k ∈ sortDistinct ks ↔ k ∈ ks := by
  unfold sortDistinct SortedSet.ofList
  rw [SortedMap.mem_keys_iff, SortedSet.contains_foldl_add]
  simp [SortedMap.contains]

/-- The elements of a list are listed in order, each once. -/
theorem increasingBy_sortDistinct (ks : List κ) : IncreasingBy id (sortDistinct ks) :=
  SortedMap.increasingBy_keys _

end ClassAtlas
