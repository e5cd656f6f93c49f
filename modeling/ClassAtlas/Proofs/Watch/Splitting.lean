import ClassAtlas.Proofs.Collection.SortedMap
import ClassAtlas.Proofs.Watch.Batch

namespace ClassAtlas.Watch

variable {batch out : List FileChange} {c : FileChange} {i : Nat}

/-- A change of a new path comes at the end. -/
theorem record_of_notMem (hnew : c.path ∉ out.map (·.path)) : record c out = out ++ [c] := by
  induction out with
  | nil => rfl
  | cons first rest ih =>
    obtain ⟨hfirst, hrest⟩ := not_or.mp (mt List.mem_cons.mpr hnew)
    have hother : (first.path == c.path) = false := beq_false_of_ne (Ne.symm hfirst)
    simp only [record, hother, Bool.false_eq_true, if_false, ih hrest, List.cons_append]

/-- A change that is written over the one at the place of its path is recorded. -/
theorem set_eq_record (hnodup : (out.map (·.path)).Nodup) (hplace : (out.map (·.path))[i]? = some c.path) :
    out.set i c = record c out := by
  induction out generalizing i with
  | nil => simp at hplace
  | cons first rest ih =>
    obtain ⟨hfresh, hrest⟩ := List.nodup_cons.mp hnodup
    cases i with
    | zero =>
      have hsame : first.path = c.path := by simpa using hplace
      simp [record, hsame]
    | succ i =>
      have hlater : (rest.map (·.path))[i]? = some c.path := by simpa using hplace
      have hother : first.path ≠ c.path := by
        intro heq
        rw [← heq] at hlater
        exact hfresh (List.mem_of_getElem? hlater)
      simp [record, hother, ih hrest hlater]

/-- A change written over one of its path changes no path. -/
theorem map_path_set (hplace : (out.map (·.path))[i]? = some c.path) :
    (out.set i c).map (·.path) = out.map (·.path) := by
  obtain ⟨hi, hpath⟩ := List.getElem?_eq_some_iff.mp hplace
  rw [List.map_set, ← hpath, List.set_getElem_self]

/-- Every path of a batch is kept, and no other one. -/
theorem mem_map_path_dedupe {p : Text} : p ∈ (dedupe batch).map (·.path) ↔ p ∈ batch.map (·.path) := by
  simp only [List.mem_map, mem_dedupe_iff]
  constructor
  · rintro ⟨c, hc, rfl⟩
    exact ⟨c, hc.mem, rfl⟩
  · rintro ⟨c, hc, rfl⟩
    exact exists_isLatest hc

/-- The paths stand in the order in which they first came. -/
theorem pairwise_idxOf_dedupe (batch : List FileChange) : ((dedupe batch).map (·.path)).Pairwise
    fun p q => (batch.map (·.path)).idxOf p < (batch.map (·.path)).idxOf q := by
  induction batch using List.reverseRecOn with
  | nil => exact List.Pairwise.nil
  | append_singleton batch c ih =>
    have hkept : ∀ p ∈ (dedupe batch).map (·.path),
        ((batch ++ [c]).map (·.path)).idxOf p = (batch.map (·.path)).idxOf p := by
      intro p hp
      rw [List.map_append]
      exact List.idxOf_append_of_mem (mem_map_path_dedupe.mp hp)
    have hbefore : ((dedupe batch).map (·.path)).Pairwise
        fun p q => ((batch ++ [c]).map (·.path)).idxOf p < ((batch ++ [c]).map (·.path)).idxOf q :=
      ih.imp_of_mem fun hp hq hlt => by rwa [hkept _ hp, hkept _ hq]
    rw [dedupe_append_singleton, map_path_record]
    split
    · exact hbefore
    · next hnew =>
      -- a new path comes behind all that were there before
      refine List.pairwise_append.mpr ⟨hbefore, List.pairwise_singleton _ _, fun p hp q hq => ?_⟩
      rw [mem_map_path_dedupe] at hnew
      rw [List.mem_singleton.mp hq, hkept p hp, List.map_append, List.idxOf_append_of_notMem hnew]
      have hlt := List.idxOf_lt_length_of_mem (mem_map_path_dedupe.mp hp)
      omega

/-- Each path of a batch is left once, and no other. -/
theorem count_path_dedupe (batch : List FileChange) (p : Text) : ((dedupe batch).map (·.path)).count p =
    if p ∈ batch.map (·.path) then 1 else 0 := by
  rw [(nodup_map_path_dedupe batch).count]
  simp only [mem_map_path_dedupe]

/-- A batch in two parts is gone over in one. -/
theorem dedupe_append (first rest : List FileChange) :
    dedupe (first ++ rest) = rest.foldl (fun out c => record c out) (dedupe first) :=
  List.foldl_append

/-- Nothing is dropped where every path comes once. -/
theorem dedupe_of_nodup (hnodup : (batch.map (·.path)).Nodup) : dedupe batch = batch := by
  induction batch using List.reverseRecOn with
  | nil => rfl
  | append_singleton batch c ih =>
    rw [List.map_append, List.nodup_append] at hnodup
    obtain ⟨hbatch, -, hdisjoint⟩ := hnodup
    have hnew : c.path ∉ batch.map (·.path) := fun hmem => hdisjoint _ hmem _ (by simp) rfl
    rw [dedupe_append_singleton, ih hbatch, record_of_notMem hnew]

/-- Changes of different paths, with the place of each path among them. -/
structure Placed where
  changes : List FileChange
  places : SortedMap Text Nat
  places_iff : ∀ p i, places.find? p = some i ↔ (changes.map (·.path))[i]? = some p

namespace Placed

/-- No changes. -/
def empty : Placed where
  changes := []
  places := SortedMap.empty
  places_iff p i := by simp

/-- The paths are different, since each has one place. -/
theorem nodup_map_path (b : Placed) : (b.changes.map (·.path)).Nodup := by
  rw [List.nodup_iff_getElem?_ne_getElem?]
  intro i j hij hj heq
  have hplace := (b.places_iff _ j).mpr (List.getElem?_eq_getElem hj)
  have hplace' := (b.places_iff _ i).mpr (heq.trans (List.getElem?_eq_getElem hj))
  have : i = j := Option.some.inj (hplace'.symm.trans hplace)
  omega

/-- A new path has its place behind the others. -/
theorem places_insert_iff (b : Placed) (hnew : b.places.find? c.path = none) (p : Text) (i : Nat) :
    (b.places.insert c.path b.changes.length).find? p = some i ↔
      ((b.changes ++ [c]).map (·.path))[i]? = some p := by
  rw [SortedMap.find?_insert, List.map_append, List.getElem?_append, List.length_map]
  by_cases hi : i < b.changes.length
  · rw [if_pos hi, ← b.places_iff]
    split
    · next heq =>
      rw [heq, hnew]
      simp [Nat.ne_of_gt hi]
    · exact Iff.rfl
  · have hnone : b.places.find? p ≠ some i := by
      rw [ne_eq, b.places_iff, List.getElem?_eq_none (by simpa using hi)]
      simp
    have hlast : i - b.changes.length = 0 ↔ b.changes.length = i := by omega
    rw [if_neg hi, List.map_singleton, List.getElem?_singleton]
    by_cases hp : p = c.path
    · simp [hp, hlast]
    · simp [hp, Ne.symm hp, hnone]

/-- Writes a change over the one at the place of its path, or at the end if the path has no place yet. -/
def put (b : Placed) (c : FileChange) : Placed :=
  match hplace : b.places.find? c.path with
  | some i =>
    { changes := b.changes.set i c
      places := b.places
      places_iff := fun p j => by
        rw [map_path_set ((b.places_iff c.path i).mp hplace)]
        exact b.places_iff p j }
  | none =>
    { changes := b.changes ++ [c]
      places := b.places.insert c.path b.changes.length
      places_iff := b.places_insert_iff hplace }

/-- Overwriting a change records it. -/
theorem changes_put (b : Placed) (c : FileChange) : (b.put c).changes = record c b.changes := by
  unfold put
  split
  · next i hplace => exact set_eq_record b.nodup_map_path ((b.places_iff c.path i).mp hplace)
  · next hnew =>
    refine (record_of_notMem fun hmem => ?_).symm
    obtain ⟨i, hi⟩ := List.mem_iff_getElem?.mp hmem
    rw [(b.places_iff c.path i).mpr hi] at hnew
    contradiction

/-- Putting changes at the places of their paths records them. -/
theorem changes_foldl_put (b : Placed) (batch : List FileChange) :
    (batch.foldl put b).changes = batch.foldl (fun out c => record c out) b.changes := by
  induction batch generalizing b with
  | nil => rfl
  | cons c rest ih => rw [List.foldl_cons, List.foldl_cons, ih, changes_put]

end Placed

/-- What is kept of a batch: one change for each of its paths, in the order in which the paths first came, and each the
last one that was given for its path. Writing every change over the earlier one of its path gives the same. A
beginning of the batch may be reduced first, wherever it is cut. -/
theorem dedupe_splits (first rest : List FileChange) :
    (∀ p, ((dedupe first).map (·.path)).count p = if p ∈ first.map (·.path) then 1 else 0) ∧
      (((dedupe first).map (·.path)).Pairwise fun p q =>
        (first.map (·.path)).idxOf p < (first.map (·.path)).idxOf q) ∧
      (∀ c, c ∈ dedupe first ↔ IsLatest first c) ∧
      (first.foldl Placed.put Placed.empty).changes = dedupe first ∧
      dedupe (dedupe first ++ rest) = dedupe (first ++ rest) := by
  refine ⟨count_path_dedupe first, pairwise_idxOf_dedupe first, fun c => mem_dedupe_iff, ?_, ?_⟩
  · exact Placed.changes_foldl_put Placed.empty first
  · rw [dedupe_append, dedupe_append, dedupe_of_nodup (nodup_map_path_dedupe first)]

/-- Of two writes of one path the later one is kept, in the place of the earlier one. -/
example : dedupe [⟨"/a", .write, 1⟩, ⟨"/b", .write, 2⟩, ⟨"/a", .write, 3⟩] =
    [⟨"/a", .write, 3⟩, ⟨"/b", .write, 2⟩] := by
  decide

end ClassAtlas.Watch
