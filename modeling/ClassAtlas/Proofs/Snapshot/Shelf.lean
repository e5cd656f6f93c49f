import ClassAtlas.Proofs.Collection.SortedMap
import ClassAtlas.Proofs.Snapshot.Keys
import Mathlib.Logic.Function.Basic

namespace ClassAtlas

/-- An open store gives what it has under a key, or says that there is nothing. -/
theorem SnapshotStore.get_eq {s : SnapshotStore} (hopen : s.closed = false) (key : Text) :
    s.get key = (s.values.find? key).elim (.error .notFound) .ok := by
  unfold get
  rw [hopen]
  cases s.values.find? key <;> rfl

namespace Snapshot

/-- The snapshots that are held by name, and the latest name of each project. -/
structure Shelf where
  held : Text → Option Saved
  latest : Text → Option Text

namespace Shelf

/-- A shelf without snapshots. -/
def empty : Shelf := ⟨fun _ => none, fun _ => none⟩

/-- The shelf with a snapshot put on it as the latest of its project. -/
def put (v : Shelf) (x : Saved) : Shelf :=
  ⟨Function.update v.held x.id (some x), Function.update v.latest x.project (some x.id)⟩

/-- The shelf without a snapshot of a project. -/
def remove (v : Shelf) (project id : Text) : Shelf :=
  ⟨Function.update v.held id none,
    if v.latest project = some id then Function.update v.latest project none else v.latest⟩

/-- The snapshot with a name, if it is one of the project. -/
def find (v : Shelf) (project id : Text) : Option Saved := (v.held id).filter (·.project = project)

/-- What stands under a key. -/
def entry (v : Shelf) : Key → Option StoredValue
  | .data project id => (v.find project id).map (pack ·.graph)
  | .record project id => (v.find project id).map (·.stored)
  | .latest project => (v.latest project).map .plain
  | .index id => (v.held id).map (.plain ·.project)

/-- A snapshot is found under a project if it is held and belongs to the project. -/
theorem find_eq_some_iff {v : Shelf} {p i : Text} {x : Saved} :
    v.find p i = some x ↔ v.held i = some x ∧ x.project = p := by
  simp [find, Option.filter_eq_some_iff]

/-- A snapshot that is put on the shelf takes the place of another one with its name, and of no other. -/
@[simp] theorem held_put (v : Shelf) (x : Saved) (i : Text) :
    (v.put x).held i = if i = x.id then some x else v.held i := Function.update_apply ..

/-- A snapshot that is put on the shelf is the latest of its project, and of no other. -/
@[simp] theorem latest_put (v : Shelf) (x : Saved) (p : Text) :
    (v.put x).latest p = if p = x.project then some x.id else v.latest p := Function.update_apply ..

/-- Only the name that is removed is not held any more. -/
@[simp] theorem held_remove (v : Shelf) (p i j : Text) :
    (v.remove p i).held j = if j = i then none else v.held j :=
  Function.update_apply ..

/-- A project loses its latest snapshot only if it is the one that is removed. -/
@[simp] theorem latest_remove (v : Shelf) (p i q : Text) :
    (v.remove p i).latest q = if q = p ∧ v.latest p = some i then none else v.latest q := by
  unfold remove
  split
  · next h => simp [h, Function.update_apply]
  · next h => simp [h]

/-- A name that is held belongs to one project only. -/
theorem find_eq_none {v : Shelf} {p i : Text} (hproject : ∀ y, v.held i = some y → y.project = p)
    {q : Text} (hq : q ≠ p) : v.find q i = none := by
  rw [find, Option.filter_eq_none_iff]
  intro y hy
  simpa [hproject y hy] using hq.symm

/-- There is one snapshot under a name, so all that are held under it belong to one project. -/
theorem project_eq_of_held {v : Shelf} {i : Text} {x : Saved} (h : v.held i = some x) :
    ∀ y, v.held i = some y → y.project = x.project := by
  intro y hy
  rw [Option.some.inj (h.symm.trans hy)]

/-- A new snapshot is found under its project. The others are found as before, provided the name was not
taken by another project. -/
theorem find_put {v : Shelf} {x : Saved}
    (hproject : ∀ y, v.held x.id = some y → y.project = x.project) (p i : Text) :
    (v.put x).find p i = if p = x.project ∧ i = x.id then some x else v.find p i := by
  by_cases hi : i = x.id
  · subst hi
    by_cases hp : p = x.project
    · simp [find, hp]
    · rw [if_neg fun h => hp h.1, find_eq_none hproject hp]
      simp [find, Ne.symm hp]
  · simp [find, hi]

/-- A removed snapshot is not found any more, and the others are found as before, provided the name
belongs to the project. -/
theorem find_remove {v : Shelf} {p i : Text} (hproject : ∀ y, v.held i = some y → y.project = p)
    (q j : Text) :
    (v.remove p i).find q j = if q = p ∧ j = i then none else v.find q j := by
  by_cases hj : j = i
  · subst hj
    by_cases hq : q = p
    · simp [find, hq]
    · rw [if_neg fun h => hq h.1, find_eq_none hproject hq]
      simp [find]
  · simp [find, hj]

end Shelf

/-- The names on a shelf are those of its snapshots, each of which has an origin, and the latest
snapshot of a project is on the shelf. -/
structure Shelf.Sound (v : Shelf) (origin : Saved → Prop) : Prop where
  held : ∀ {i x}, v.held i = some x → x.id = i ∧ origin x
  latest : ∀ {p i}, v.latest p = some i → ∃ x, v.find p i = some x

namespace Shelf.Sound

variable {v : Shelf} {origin origin' : Saved → Prop}

/-- A shelf without snapshots is sound, whatever the origins. -/
theorem empty (origin : Saved → Prop) : Shelf.empty.Sound origin where
  held h := by cases h
  latest h := by cases h

/-- More origins leave a shelf sound. -/
theorem mono (h : v.Sound origin) (hle : ∀ x, origin x → origin' x) : v.Sound origin' where
  held hx := ⟨(h.held hx).1, hle _ (h.held hx).2⟩
  latest := h.latest

/-- Where a name is given in one project only, the held snapshot with a name is of that project. -/
theorem project_eq (h : v.Sound origin) {x : Saved}
    (hroot : ∀ y, origin y → y.id = x.id → y.graph.root = x.graph.root) :
    ∀ y, v.held x.id = some y → y.project = x.project := by
  intro y hy
  obtain ⟨hid, hy⟩ := h.held hy
  exact congrArg projectHash (hroot y hy hid)

/-- A shelf stays sound with a new snapshot that has an origin and a name that no other project has taken. -/
theorem put (h : v.Sound origin) {x : Saved}
    (hproject : ∀ y, v.held x.id = some y → y.project = x.project) (hx : origin x) :
    (v.put x).Sound origin where
  held {i y} hy := by
    rw [held_put] at hy
    split at hy
    · next hi =>
      obtain rfl := Option.some.inj hy
      exact ⟨hi.symm, hx⟩
    · exact h.held hy
  latest {p i} hi := by
    rw [find_put hproject]
    rw [latest_put] at hi
    split at hi
    · next hp => exact ⟨x, by simp [hp, Option.some.inj hi]⟩
    · next hp => simpa [hp] using h.latest hi

/-- A shelf stays sound without a snapshot of the project. -/
theorem remove (h : v.Sound origin) {p i : Text}
    (hproject : ∀ y, v.held i = some y → y.project = p) :
    (v.remove p i).Sound origin where
  held {j y} hy := by
    rw [held_remove] at hy
    split at hy
    · cases hy
    · exact h.held hy
  latest {q j} hj := by
    rw [latest_remove] at hj
    split at hj
    · cases hj
    · next hlatest =>
      rw [find_remove hproject, if_neg]
      · exact h.latest hj
      · rintro ⟨rfl, rfl⟩
        exact hlatest ⟨rfl, hj⟩

end Shelf.Sound

/-- The entries of an open store are those of a shelf, whatever key is asked for. -/
structure Represents (s : SnapshotStore) (v : Shelf) : Prop where
  isOpen : s.closed = false
  find?_eq : ∀ k : Key, s.values.find? k.text = v.entry k

/-- A new value is found under its key, and every other key keeps its value. Different keys have different
texts, so the key must only be a named one. -/
theorem find?_put {k : Key} (hk : k.Named) (s : SnapshotStore) (value : StoredValue) (k' : Key) :
    (s.put k.text value).values.find? k'.text =
      if k' = k then some value else s.values.find? k'.text := by
  simp only [SnapshotStore.put, SortedMap.find?_insert, Key.text_inj hk]

/-- A dropped key is not found any more, and every other key keeps its value. -/
theorem find?_drop {k : Key} (hk : k.Named) (s : SnapshotStore) (k' : Key) :
    (s.drop k.text).values.find? k'.text = if k' = k then none else s.values.find? k'.text := by
  simp only [SnapshotStore.drop, SortedMap.find?_erase, Key.text_inj hk]

/-- What stands under a key behind the writing of a snapshot. -/
theorem find?_write (s : SnapshotStore) (x : Saved) (k : Key) :
    (write s x.info x.graph).values.find? k.text =
      if k = .index x.id then some (.plain x.project)
      else if k = .latest x.project then some (.plain x.id)
      else if k = .record x.project x.id then some x.stored
      else if k = .data x.project x.id then some (pack x.graph)
      else s.values.find? k.text := by
  have hp := x.isDigest_project
  have hi := x.isDigest_id
  have hwrite : write s x.info x.graph =
      (((s.put (Key.data x.project x.id).text (pack x.graph)).put
        (Key.record x.project x.id).text x.stored).put
        (Key.latest x.project).text (.plain x.id)).put
        (Key.index x.id).text (.plain x.project) := rfl
  rw [hwrite, find?_put (k := .index _) hi, find?_put (k := .latest _) hp,
    find?_put (k := .record _ _) ⟨hp, hi⟩, find?_put (k := .data _ _) ⟨hp, hi⟩]

/-- Only the pointer to the latest snapshot is dropped, and only if it points to this one. -/
theorem find?_dropLatest {p : Text} (hp : IsDigest p) (s : SnapshotStore) (i : Text) (k : Key) :
    (dropLatest s p i).values.find? k.text =
      if k = .latest p ∧ (s.values.find? (Key.latest p).text).map (·.bytes) = some i then none
      else s.values.find? k.text := by
  unfold dropLatest
  cases hlatest : s.values.find? (Key.latest p).text with
  | none => simp [show s.values.find? (latestKey p) = none from hlatest]
  | some value =>
    simp only [show s.values.find? (latestKey p) = some value from hlatest]
    by_cases hvalue : value.bytes = i
    · simp only [hvalue, beq_self_eq_true, if_true, Option.map_some, and_true]
      exact find?_drop (k := .latest p) hp s k
    · simp [hvalue]

/-- Taking away the latest name of a project neither closes a store nor opens it. -/
@[simp] theorem dropLatest_closed (s : SnapshotStore) (p i : Text) :
    (dropLatest s p i).closed = s.closed := by
  unfold dropLatest
  split
  · split <;> rfl
  · rfl

namespace Represents

variable {s : SnapshotStore} {v : Shelf}

/-- The empty store holds what an empty shelf holds. -/
theorem empty : Represents .empty .empty where
  isOpen := rfl
  find?_eq k := by cases k <;> rfl

/-- Writing a snapshot is putting it on the shelf. -/
theorem write (h : Represents s v) {x : Saved}
    (hproject : ∀ y, v.held x.id = some y → y.project = x.project) :
    Represents (write s x.info x.graph) (v.put x) where
  isOpen := h.isOpen
  find?_eq k := by
    rw [find?_write, h.find?_eq]
    cases k with
    | data p i =>
      by_cases hk : p = x.project ∧ i = x.id <;> simp [Shelf.entry, Shelf.find_put hproject, hk]
    | record p i =>
      by_cases hk : p = x.project ∧ i = x.id <;> simp [Shelf.entry, Shelf.find_put hproject, hk]
    | latest p => by_cases hk : p = x.project <;> simp [Shelf.entry, hk]
    | index i => by_cases hk : i = x.id <;> simp [Shelf.entry, hk]

/-- The entries that a removal leaves; the pointer to the latest snapshot goes only if it is to this
one. -/
theorem remove (h : Represents s v) {p i : Text} (hp : IsDigest p) (hi : IsDigest i)
    (hproject : ∀ y, v.held i = some y → y.project = p) :
    ∃ s', Snapshot.remove s p i = .ok s' ∧ Represents s' (v.remove p i) := by
  refine ⟨_, if_neg (by simp [h.isOpen]), ⟨?_, fun k => ?_⟩⟩
  · rw [dropLatest_closed]
    exact h.isOpen
  have hfind : ∀ k : Key,
      (((s.drop (dataKey p i)).drop (metaKey p i)).drop (indexKey i)).values.find? k.text =
        if k = .data p i ∨ k = .record p i ∨ k = .index i then none else v.entry k := by
    intro k
    have hdrop :=
      find?_drop (k := .index i) hi ((s.drop (Key.data p i).text).drop (Key.record p i).text) k
    rw [find?_drop (k := .record p i) ⟨hp, hi⟩, find?_drop (k := .data p i) ⟨hp, hi⟩,
      h.find?_eq] at hdrop
    refine hdrop.trans ?_
    grind
  rw [find?_dropLatest hp, hfind, hfind]
  cases k with
  | data q j => by_cases hk : q = p ∧ j = i <;> simp [Shelf.entry, Shelf.find_remove hproject, hk]
  | record q j => by_cases hk : q = p ∧ j = i <;> simp [Shelf.entry, Shelf.find_remove hproject, hk]
  | latest q =>
    have hbytes : (v.entry (.latest p)).map (·.bytes) = v.latest p := by
      simp [Shelf.entry, Function.comp_def, StoredValue.bytes]
    simp only [reduceCtorEq, or_self, if_false, hbytes, Key.latest.injEq]
    by_cases hk : q = p ∧ v.latest p = some i <;> simp [Shelf.entry, hk]
  | index j => by_cases hk : j = i <;> simp [Shelf.entry, hk]

/-- Every look-up in the store is answered by the shelf. -/
theorem get_eq (h : Represents s v) (k : Key) :
    s.get k.text = (v.entry k).elim (.error .notFound) .ok := by
  rw [SnapshotStore.get_eq h.isOpen, h.find?_eq]

/-- The project of a name is that of the snapshot held under it. -/
theorem findProject_eq (h : Represents s v) (action : SnapshotAction) (budget : Budget) {i : Text}
    (hi : i ≠ []) :
    findProject s action (some budget) i = (v.held i).elim
    (.error (.lookup i .notFound)) fun x => .ok x.project := by
  have hget := h.get_eq (.index i)
  simp only [Key.text, Shelf.entry] at hget
  unfold findProject
  rw [hget]
  cases v.held i <;> simp [hi] <;> rfl

/-- The latest name of a project is the one on the shelf. -/
theorem findLatest_eq (h : Represents s v) (budget : Budget) {p : Text} (hp : p ≠ []) :
    findLatest s (some budget) p = (v.latest p).elim (.error (.latest p .notFound)) .ok := by
  have hget := h.get_eq (.latest p)
  simp only [Key.text, Shelf.entry] at hget
  unfold findLatest
  rw [hget]
  cases v.latest p <;> simp [hp] <;> rfl

/-- What is not on the shelf cannot be read. -/
theorem read_of_find_eq_none (h : Represents s v) {p i : Text} (hfind : v.find p i = none) :
    read s p i = .error (.data i .notFound) := by
  have hget := h.get_eq (.data p i)
  simp only [Key.text, Shelf.entry, hfind] at hget
  unfold read
  rw [hget]
  rfl

/-- A snapshot on the shelf is read with its record, and its graph is restored. -/
theorem read_of_find_eq_some (h : Represents s v) {p i : Text} {x : Saved} (hx : x.Storable)
    (hfind : v.find p i = some x) :
    ∃ g, read s p i = .ok (g, x.rereadInfo) ∧ GraphDocument.Restores x.graph g := by
  have hdata := h.find?_eq (.data p i)
  have hrecord := h.find?_eq (.record p i)
  simp only [Shelf.entry, hfind, Option.map_some] at hdata hrecord
  exact hx.read_eq h.isOpen hdata hrecord

end Represents

end Snapshot

end ClassAtlas
