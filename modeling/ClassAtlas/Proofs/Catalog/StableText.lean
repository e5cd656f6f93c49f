import ClassAtlas.Catalog.Basic

namespace ClassAtlas

namespace TextCache

/-- Every cached text is the content of its file. -/
def Agrees (d : Disk) (c : TextCache) : Prop :=
  ∀ path t, c.find? path = some t → d.readFile path = .ok t

/-- A text that is found among the first ones is found among all. -/
theorem lookup_take {path t : Text} {texts : List (Text × Text)} {n : Nat}
    (h : (texts.take n).lookup path = some t) : texts.lookup path = some t := by
  induction texts generalizing n with
  | nil => simp at h
  | cons e rest ih =>
    obtain ⟨key, value⟩ := e
    cases n with
    | zero => simp at h
    | succ n =>
      rw [List.take_succ_cons, List.lookup_cons] at h
      rw [List.lookup_cons]
      split at h
      · exact h
      · exact ih h

/-- Taking out the text of a path changes nothing for another path. -/
theorem lookup_filter_ne {path other : Text} (hne : other ≠ path) (texts : List (Text × Text)) :
    (texts.filter (·.1 != path)).lookup other = texts.lookup other := by
  induction texts with
  | nil => rfl
  | cons e rest ih =>
    obtain ⟨key, value⟩ := e
    by_cases hkey : key = path
    · have hother : (other == path) = false := by simpa using hne
      simpa [hkey, List.lookup_cons, hother] using ih
    · simp [hkey, List.lookup_cons, ih]

/-- A text that was just read leaves the cache in agreement with the disk. -/
theorem Agrees.put {d : Disk} {c : TextCache} (h : c.Agrees d) {path t : Text}
    (ht : d.readFile path = .ok t) : (c.put path t).Agrees d := by
  intro other t' hfind
  have hlookup := lookup_take hfind
  rw [List.lookup_cons] at hlookup
  split at hlookup
  · next heq =>
    obtain rfl := Option.some.inj hlookup
    rw [eq_of_beq heq]
    exact ht
  · next hne =>
    rw [lookup_filter_ne (by simpa using hne)] at hlookup
    exact h other t' hlookup

/-- A cache that agrees with the disk gives what the disk gives, and goes on agreeing. -/
theorem Agrees.read {d : Disk} {c : TextCache} (h : c.Agrees d) (path : Text) :
    (c.read d path).1 = (d.readFile path).mapError (⟨path, ·⟩) ∧ (c.read d path).2.Agrees d := by
  unfold TextCache.read
  cases hfind : c.find? path with
  | some t =>
    have ht := h path t hfind
    rw [ht]
    exact ⟨rfl, h.put ht⟩
  | none =>
    cases hdisk : d.readFile path with
    | ok t => exact ⟨rfl, h.put hdisk⟩
    | error e => exact ⟨rfl, h⟩

end TextCache

namespace Catalog

/-- The caches that readings of classes lead to. -/
inductive ReadsTo (c : Catalog) (d : Disk) (start : TextCache) : TextCache → Prop
  | none : ReadsTo c d start start
  | read {cache : TextCache} (name : Text) :
      ReadsTo c d start cache → ReadsTo c d start (c.text d name cache).2

/-- No reading changes what a later reading gives. -/
def StableTexts (c : Catalog) (d : Disk) (cache : TextCache) : Prop :=
  ∀ later, ReadsTo c d cache later → ∀ name, (c.text d name later).1 = (c.text d name cache).1

/-- The text of a class, if it can be read. -/
def text? (c : Catalog) (d : Disk) (cache : TextCache) (name : Text) : Option Text :=
  (c.text d name cache).1.toOption

/-- The text of a class is that of its file, read through the cache. -/
theorem text_of_unit {c : Catalog} {name : Text} {u : SourceUnit}
    (hunit : c.unit? name = some u) (d : Disk) (cache : TextCache) :
    c.text d name cache =
      ((cache.read d u.path).1.mapError .unreadable, (cache.read d u.path).2) := by
  simp only [Catalog.text, hunit]
  cases cache.read d u.path with
  | mk result cache' => cases result <;> rfl

/-- A name without a class has no text, and the cache stays as it is. -/
theorem text_of_no_unit {c : Catalog} {name : Text} (hunit : c.unit? name = none) (d : Disk)
    (cache : TextCache) : c.text d name cache = (.error (.classNotFound name), cache) := by
  simp only [Catalog.text, hunit]

/-- Texts are stable if the cache holds nothing but contents of files. -/
theorem stableTexts_of_agrees {c : Catalog} {d : Disk} {cache : TextCache} (h : cache.Agrees d) :
    c.StableTexts d cache := by
  have hagrees : ∀ later, c.ReadsTo d cache later → later.Agrees d := by
    intro later hlater
    induction hlater with
    | none => exact h
    | read name _ ih =>
      cases hunit : c.unit? name with
      | none =>
        rw [text_of_no_unit hunit]
        exact ih
      | some u =>
        rw [text_of_unit hunit]
        exact (ih.read u.path).2
  intro later hlater name
  cases hunit : c.unit? name with
  | none => rw [text_of_no_unit hunit, text_of_no_unit hunit]
  | some u =>
    rw [text_of_unit hunit, text_of_unit hunit, ((hagrees later hlater).read u.path).1,
      (h.read u.path).1]

end Catalog

end ClassAtlas
