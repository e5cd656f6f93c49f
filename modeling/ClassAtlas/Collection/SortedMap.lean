import ClassAtlas.Collection.KeyOrder

namespace ClassAtlas

variable {κ α β : Type}

/-- Every entry's key comes before the keys of the entries behind it. -/
def Ascending [KeyOrder κ] (entries : List (κ × α)) : Prop :=
  entries.Pairwise fun p q => KeyOrder.before p.1 q.1 = true

/-- A finite map, listed by increasing keys. -/
structure SortedMap (κ α : Type) [KeyOrder κ] where
  toList : List (κ × α)
  ascending : Ascending toList

namespace SortedMap

variable [KeyOrder κ]

/-- The map without entries. -/
def empty : SortedMap κ α := ⟨[], .nil⟩

instance : EmptyCollection (SortedMap κ α) := ⟨empty⟩

instance : Inhabited (SortedMap κ α) := ⟨empty⟩

/-- The value at a key of an ascending list. -/
def findIn (k : κ) : List (κ × α) → Option α
  | [] => none
  | (key, v) :: rest =>
    if KeyOrder.before k key then none
    else if KeyOrder.before key k then findIn k rest
    else some v

/-- The value at a key. -/
def find? (m : SortedMap κ α) (k : κ) : Option α := findIn k m.toList

/-- What is found at a key stands in the list. -/
theorem mem_of_findIn {k : κ} {v : α} {entries : List (κ × α)} (h : findIn k entries = some v) :
    (k, v) ∈ entries := by
  induction entries with
  | nil => simp [findIn] at h
  | cons e rest ih =>
    obtain ⟨key, w⟩ := e
    unfold findIn at h
    split at h
    · contradiction
    · next hlt =>
      split at h
      · exact List.mem_cons_of_mem _ (ih h)
      · next hgt =>
        have hkey : k = key :=
          KeyOrder.eq_of_not_before _ _ (by simpa using hlt) (by simpa using hgt)
        rw [hkey, ← Option.some.inj h]
        exact List.mem_cons_self ..

/-- The map has an entry at the key. -/
def contains (m : SortedMap κ α) (k : κ) : Bool := (m.find? k).isSome

/-- Puts an entry into an ascending list; the value of a present key is replaced. -/
def insertIn (k : κ) (v : α) : List (κ × α) → List (κ × α)
  | [] => [(k, v)]
  | (key, old) :: rest =>
    if KeyOrder.before k key then (k, v) :: (key, old) :: rest
    else if KeyOrder.before key k then (key, old) :: insertIn k v rest
    else (k, v) :: rest

/-- The keys after an insertion are the new one and the old ones. -/
theorem mem_insertIn {k : κ} {v : α} {entries : List (κ × α)} {p : κ × α}
    (h : p ∈ insertIn k v entries) : p = (k, v) ∨ p ∈ entries := by
  induction entries with
  | nil => simpa [insertIn] using h
  | cons e rest ih =>
    unfold insertIn at h
    split at h
    · simpa using h
    · split at h
      · rcases List.mem_cons.mp h with rfl | h
        · exact Or.inr (List.mem_cons_self ..)
        · rcases ih h with h | h
          · exact Or.inl h
          · exact Or.inr (List.mem_cons_of_mem _ h)
      · rcases List.mem_cons.mp h with rfl | h
        · exact Or.inl rfl
        · exact Or.inr (List.mem_cons_of_mem _ h)

/-- An insertion keeps the keys strictly increasing. -/
theorem ascending_insertIn (k : κ) (v : α) {entries : List (κ × α)} (h : Ascending entries) :
    Ascending (insertIn k v entries) := by
  induction entries with
  | nil => exact List.pairwise_singleton _ _
  | cons e rest ih =>
    obtain ⟨key, old⟩ := e
    have hrest := List.pairwise_cons.mp h
    unfold insertIn
    split
    · next hlt =>
      refine List.pairwise_cons.mpr ⟨fun q hq => ?_, h⟩
      rcases List.mem_cons.mp hq with rfl | hq
      · exact hlt
      · exact KeyOrder.trans _ _ _ hlt (hrest.1 q hq)
    · split
      · next hgt =>
        refine List.pairwise_cons.mpr ⟨fun q hq => ?_, ih hrest.2⟩
        rcases mem_insertIn hq with rfl | hq
        · exact hgt
        · exact hrest.1 q hq
      · next hlt hgt =>
        have hkey : k = key := KeyOrder.eq_of_not_before _ _ (by simpa using hlt) (by simpa using hgt)
        subst hkey
        exact List.pairwise_cons.mpr ⟨hrest.1, hrest.2⟩

/-- The map with `v` at `k`. -/
def insert (m : SortedMap κ α) (k : κ) (v : α) : SortedMap κ α :=
  ⟨insertIn k v m.toList, ascending_insertIn k v m.ascending⟩

private theorem findIn_insertIn_self (k : κ) (v : α) (entries : List (κ × α)) :
    findIn k (insertIn k v entries) = some v := by
  induction entries with
  | nil => simp [insertIn, findIn, KeyOrder.irrefl]
  | cons e rest ih =>
    obtain ⟨key, w⟩ := e
    unfold insertIn
    split
    · simp [findIn, KeyOrder.irrefl]
    · next hlt =>
      split
      · next hgt => simp [findIn, hlt, hgt, ih]
      · simp [findIn, KeyOrder.irrefl]

private theorem findIn_insertIn_of_ne {j k : κ} (hne : j ≠ k) (v : α) (entries : List (κ × α)) :
    findIn j (insertIn k v entries) = findIn j entries := by
  induction entries with
  | nil =>
    rcases KeyOrder.before_or_before hne with h | h
    · simp [insertIn, findIn, h]
    · simp [insertIn, findIn, h]
  | cons e rest ih =>
    obtain ⟨key, w⟩ := e
    unfold insertIn
    split
    · next hlt =>
      rcases KeyOrder.before_or_before hne with h | h
      · simp [findIn, h, KeyOrder.trans _ _ _ h hlt]
      · simp [findIn, h, KeyOrder.asymm h]
    · next hlt =>
      split
      · simp only [findIn, ih]
      · next hgt =>
        have hkey : k = key := KeyOrder.eq_of_not_before _ _ (by simpa using hlt)
          (by simpa using hgt)
        subst hkey
        rcases KeyOrder.before_or_before hne with h | h
        · simp [findIn, h]
        · simp [findIn, h, KeyOrder.asymm h]

/-- What was inserted is found. -/
@[simp] theorem find?_insert_self (m : SortedMap κ α) (k : κ) (v : α) :
    (m.insert k v).find? k = some v :=
  findIn_insertIn_self k v m.toList

/-- An insertion leaves the other keys alone. -/
theorem find?_insert_of_ne (m : SortedMap κ α) {j k : κ} (hne : j ≠ k) (v : α) :
    (m.insert k v).find? j = m.find? j := findIn_insertIn_of_ne hne v m.toList

/-- The look-ups after an insertion. -/
theorem find?_insert [DecidableEq κ] (m : SortedMap κ α) (j k : κ) (v : α) :
    (m.insert k v).find? j = if j = k then some v else m.find? j := by
  split
  · next h => rw [h, find?_insert_self]
  · next h => exact find?_insert_of_ne m h v

/-- The keys after an insertion. -/
@[simp] theorem contains_insert [DecidableEq κ] (m : SortedMap κ α) (j k : κ) (v : α) :
    (m.insert k v).contains j = (decide (j = k) || m.contains j) := by
  unfold contains
  rw [find?_insert]
  split
  · next h => simp [h]
  · next h => simp [h]

/-- The map without the entry at `k`. -/
def erase (m : SortedMap κ α) (k : κ) : SortedMap κ α :=
  ⟨m.toList.filter fun p => KeyOrder.before p.1 k || KeyOrder.before k p.1, m.ascending.filter _⟩

/-- The map with only the entries that pass a test. -/
def filter (m : SortedMap κ α) (keep : κ → α → Bool) : SortedMap κ α :=
  ⟨m.toList.filter fun p => keep p.1 p.2, m.ascending.filter _⟩

/-- The map with every value replaced by its image. -/
def map (m : SortedMap κ α) (f : κ → α → β) : SortedMap κ β :=
  ⟨m.toList.map fun p => (p.1, f p.1 p.2), by
    unfold Ascending
    rw [List.pairwise_map]
    exact m.ascending⟩

/-- Changes the value at a key, if there is one. -/
def modify (m : SortedMap κ α) (k : κ) (f : α → α) : SortedMap κ α :=
  match m.find? k with
  | none => m
  | some v => m.insert k (f v)

/-- The keys in increasing order. -/
def keys (m : SortedMap κ α) : List κ := m.toList.map Prod.fst

/-- A key with a value is one of the keys. -/
theorem mem_keys_of_find? {m : SortedMap κ α} {k : κ} {v : α} (h : m.find? k = some v) :
    k ∈ m.keys := List.mem_map.mpr ⟨(k, v), mem_of_findIn h, rfl⟩

/-- The values in the order of their keys. -/
def values (m : SortedMap κ α) : List α := m.toList.map Prod.snd

/-- The number of entries. -/
def size (m : SortedMap κ α) : Nat := m.toList.length

/-- Inserts the entries of a list one after the other; of two entries at one key the later wins. -/
def ofList (entries : List (κ × α)) : SortedMap κ α :=
  entries.foldl (fun m p => m.insert p.1 p.2) empty

end SortedMap

/-- A finite set, listed in increasing order. -/
abbrev SortedSet (κ : Type) [KeyOrder κ] := SortedMap κ Unit

namespace SortedSet

variable [KeyOrder κ]

/-- The set with one more element. -/
def add (s : SortedSet κ) (k : κ) : SortedSet κ := s.insert k ()

/-- The elements of a list. -/
def ofList (ks : List κ) : SortedSet κ := ks.foldl add SortedMap.empty

end SortedSet

/-- The elements of a list in increasing order, each once. -/
def sortDistinct [KeyOrder κ] (ks : List κ) : List κ := (SortedSet.ofList ks).keys

/-- Sorts a list stably by a key of its elements. -/
def sortBy [KeyOrder κ] (key : α → κ) (xs : List α) : List α :=
  xs.mergeSort fun a b => !KeyOrder.before (key b) (key a)

/-- The first position between `low` and `high` at which an increasing array does not come before
a key, by halving. -/
def lowerBound [KeyOrder κ] (ks : Array κ) (k : κ) (low high : Nat) : Nat :=
  if low < high then
    let middle := (low + high) / 2
    if ks[middle]?.any (KeyOrder.before · k) then lowerBound ks k (middle + 1) high
    else lowerBound ks k low middle
  else low
termination_by high - low

/-- An increasing array has the element. -/
def hasSorted [KeyOrder κ] [BEq κ] (ks : Array κ) (k : κ) : Bool :=
  ks[lowerBound ks k 0 ks.size]? == some k

end ClassAtlas
