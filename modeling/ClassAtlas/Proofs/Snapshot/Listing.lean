import ClassAtlas.Proofs.Snapshot.Shelf

namespace ClassAtlas

section StableSort

variable {α : Type} {le : α → α → Bool} (htrans : ∀ a b c, le a b → le b c → le a c)
  (htotal : ∀ a b, (le a b || le b a) = true)
include htrans htotal

end StableSort

namespace Snapshot

namespace Key

end Key

/-- All keys of the store are keys of entries. -/
def Keyed (s : SnapshotStore) : Prop :=
  ∀ key value, s.values.find? key = some value → ∃ k : Key, k.Named ∧ k.text = key

namespace Keyed

variable {s : SnapshotStore}

/-- The empty store has no keys. -/
theorem empty : Keyed .empty := fun _ _ h => by cases h

/-- A value that is put under the key of an entry adds no other key. -/
theorem put (h : Keyed s) {k : Key} (hk : k.Named) (value : StoredValue) :
    Keyed (s.put k.text value) := by
  intro key value' hfind
  rw [SnapshotStore.put, SortedMap.find?_insert] at hfind
  split at hfind
  · next hkey => exact ⟨k, hk, hkey.symm⟩
  · exact h key value' hfind

/-- A key that is dropped adds none. -/
theorem drop (h : Keyed s) (key : Text) : Keyed (s.drop key) := by
  intro key' value hfind
  rw [SnapshotStore.drop, SortedMap.find?_erase] at hfind
  split at hfind
  · cases hfind
  · exact h key' value hfind

/-- A snapshot is written under keys of entries. -/
theorem write (h : Keyed s) (x : Saved) : Keyed (write s x.info x.graph) := by
  have hp := x.isDigest_project
  have hi := x.isDigest_id
  have hdata := h.put (k := .data x.project x.id) ⟨hp, hi⟩ (pack x.graph)
  have hrecord := hdata.put (k := .record x.project x.id) ⟨hp, hi⟩ x.stored
  have hlatest := hrecord.put (k := .latest x.project) hp (.plain x.id)
  exact hlatest.put (k := .index x.id) hi (.plain x.project)

/-- A snapshot that is removed adds no key. -/
theorem remove (h : Keyed s) {s' : SnapshotStore} {p i : Text} (hremove : remove s p i = .ok s') :
    Keyed s' := by
  unfold Snapshot.remove at hremove
  split at hremove
  · cases hremove
  · cases hremove
    have hdropped := ((h.drop (dataKey p i)).drop (metaKey p i)).drop (indexKey i)
    unfold dropLatest
    split
    · split
      · exact hdropped.drop _
      · exact hdropped
    · exact hdropped

end Keyed

/-- What may be saved so that its record is read back as it was written. -/
structure Recordable (x : Saved) : Prop where
  label : Utf8.isValid x.label = true
  root : Utf8.isValid x.graph.root = true
  measured : x.info.Measured

/-- One record is listed before another: it is newer, or of the same time and with the smaller
key. -/
def Newer (a b : SnapshotInfo) : Prop :=
  b.createdAt < a.createdAt ∨ a.createdAt = b.createdAt ∧
    KeyOrder.before (metaKey a.project a.id) (metaKey b.project b.id) = true

namespace Represents

variable {s : SnapshotStore} {v : Shelf} {origin : Saved → Prop}

section Records

variable (h : Represents s v) (hkeys : Keyed s) (hv : v.Sound origin)
  (horigin : ∀ x, origin x → Recordable x) {project : Text} (hproject : 58 ∉ project)
include h hkeys hv horigin hproject

end Records

end Represents

end Snapshot

end ClassAtlas
