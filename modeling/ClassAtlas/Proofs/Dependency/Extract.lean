import ClassAtlas.Dependency.Extract
import ClassAtlas.Proofs.Catalog.StableText
import ClassAtlas.Proofs.Collection.SortedMap
import ClassAtlas.Proofs.Source.Word

namespace ClassAtlas

namespace ClassRef

variable {name : Text} {names : List Text} {c : ClassRef} {classes : List ClassRef}

/-- What is looked for carries the name that it was made of. -/
theorem name_of_of? (h : of? name = some c) : c.name = name := by
  unfold of? at h
  split at h
  · rw [← Option.some.inj h]
  · split at h
    · rw [← Option.some.inj h]
    · contradiction

/-- A class cannot be looked for exactly if its simple name has stray bytes. Names of word bytes need no
pattern, but have none. -/
theorem of?_eq_none_iff : of? name = none ↔ Utf8.isValid (ClassName.simple name) = false := by
  unfold of?
  by_cases hword : Word.isIdentifier (ClassName.simple name) = true
  · simp [hword, Word.isValid_of_isIdentifier hword]
  · by_cases hvalid : Utf8.isValid (ClassName.simple name) = true <;> simp [hword, hvalid]

/-- One class that cannot be looked for is enough. -/
theorem all?_eq_none_iff : all? names = none ↔ ∃ name ∈ names, of? name = none := by
  induction names with
  | nil => simp [all?]
  | cons name rest ih =>
    rw [all?, List.exists_mem_cons_iff, ← ih]
    cases of? name <;> cases all? rest <;> simp

/-- Every name has its class, in the order of the names. -/
theorem map_name_of_all? (h : all? names = some classes) : classes.map (·.name) = names := by
  induction names generalizing classes with
  | nil =>
    obtain rfl := Option.some.inj h
    rfl
  | cons name rest ih =>
    rw [all?] at h
    split at h
    · next c more hc hmore =>
      obtain rfl := Option.some.inj h
      rw [List.map_cons, name_of_of? hc, ih hmore]
    · contradiction

end ClassRef

namespace Extractor

variable {c : Catalog}

/-- The classes that are looked for are those of the catalog. -/
theorem map_name_classes (x : Extractor) : x.classes.map (·.name) = x.names :=
  ClassRef.map_name_of_all? x.complete

/-- The search looks for classes of the catalog only. -/
theorem name_mem_names {x : Extractor} {r : ClassRef} (hr : r ∈ x.classes) : r.name ∈ x.names := by
  rw [← x.map_name_classes]
  exact List.mem_map_of_mem hr

/-- The search looks for all classes of the catalog. -/
theorem exists_mem_classes {x : Extractor} {name : Text} (hname : name ∈ x.names) :
    ∃ r ∈ x.classes, r.name = name := by
  rw [← x.map_name_classes] at hname
  exact List.mem_map.mp hname

/-- There is no search for a catalog exactly if a simple name has stray bytes. -/
theorem of?_eq_none_iff :
    of? c = none ↔ ∃ name ∈ c.names, Utf8.isValid (ClassName.simple name) = false := by
  have hall : of? c = none ↔ ClassRef.all? c.names = none := by
    unfold of?
    split <;> simp [*]
  simp only [hall, ClassRef.all?_eq_none_iff, ClassRef.of?_eq_none_iff]

/-- The search that is prepared for a catalog is a search for that catalog, and the only one. -/
theorem of?_eq_some_iff {x : Extractor} : of? c = some x ↔ x.toCatalog = c := by
  constructor
  · intro h
    unfold of? at h
    split at h
    · contradiction
    · rw [← Option.some.inj h]
  · rintro rfl
    obtain ⟨c, classes, hclasses⟩ := x
    unfold of?
    split
    · next hnone => simp [hnone] at hclasses
    · next found hfound =>
      obtain rfl := Option.some.inj (hfound.symm.trans hclasses)
      rfl

/-- The classes of a search have well-formed simple names. -/
theorem isValid_simple {x : Extractor} {name : Text} (hname : name ∈ x.names) :
    Utf8.isValid (ClassName.simple name) = true := by
  have hsome : of? x.toCatalog ≠ none := by simp [of?_eq_some_iff.mpr rfl]
  rw [Ne, of?_eq_none_iff] at hsome
  by_contra hinvalid
  exact hsome ⟨name, hname, Bool.not_eq_true _ ▸ hinvalid⟩

end Extractor

namespace Dependency

variable {x : Extractor} {d : Disk}

/-- The dependencies of a class are those that its text names, without the class itself. -/
theorem extractFor_eq (x : Extractor) (d : Disk) (name : Text) (cache : TextCache) :
    x.extractFor d name cache =
      ((x.text d name cache).1.map fun t =>
        (x.extract t).filter fun dep => dep.target != name, (x.text d name cache).2) := by
  unfold Extractor.extractFor
  split
  · next htext => simp [htext, Except.map]
  · next htext => simp [htext, Except.map]

/-- The targets are listed in the order of the catalog, each once. -/
theorem extract_targets_sublist (x : Extractor) (t : Text) :
    ((x.extract t).map (·.target)).Sublist x.names := by
  have hnames : x.names = (x.classes.map fun c => (⟨c.name, rulesFor t (Source.package t)
      (Source.imports t) (Word.runs t) c⟩ : Dependency)).map (·.target) := by
    rw [List.map_map]
    exact x.map_name_classes.symm
  rw [hnames]
  exact List.filter_sublist.map _

/-- A class depends on other classes of the catalog, and on each of them once. -/
theorem extractFor_targets {name : Text} {cache : TextCache} {found : List Dependency}
    (hfound : (x.extractFor d name cache).1 = .ok found) :
    (found.map (·.target)).Nodup ∧ ∀ dep ∈ found, dep.target ∈ x.names ∧ dep.target ≠ name := by
  rw [extractFor_eq] at hfound
  cases htext : (x.text d name cache).1 with
  | error e => simp [htext, Except.map] at hfound
  | ok t =>
    simp only [htext, Except.map, Except.ok.injEq] at hfound
    subst hfound
    have hnames := extract_targets_sublist x t
    constructor
    · exact ((List.filter_sublist.map _).trans hnames).nodup
        (SortedMap.increasingBy_keys x.units.entries).nodup
    · intro dep hdep
      obtain ⟨hmem, hne⟩ := List.mem_filter.mp hdep
      exact ⟨hnames.subset (List.mem_map_of_mem hmem), by simpa using hne⟩

/-- The cache after the dependencies of classes were looked up. -/
def cacheAfter (x : Extractor) (d : Disk) (cache : TextCache) (names : List Text) : TextCache :=
  names.foldl (fun cache name => (x.extractFor d name cache).2) cache

/-- The cache after a search comes from the one before it by reading. -/
theorem readsTo_cacheAfter (cache : TextCache) (names : List Text) :
    x.ReadsTo d cache (cacheAfter x d cache names) := by
  unfold cacheAfter
  apply List.foldlRecOn (motive := x.ReadsTo d cache) _ _ .none
  intro later hlater name _
  rw [extractFor_eq]
  exact .read name hlater

/-- What is found for a class when the dependencies of all classes are looked up by name. -/
def extraction (x : Extractor) (d : Disk) (cache : TextCache) (name : Text) :
    Except SourceError (List Dependency) :=
  (x.extractFor d name (cacheAfter x d cache (x.names.takeWhile (· != name)))).1

/-- Where texts are stable the order of the look-ups does not matter. -/
theorem extraction_eq_of_stable {cache : TextCache} (h : x.StableTexts d cache) (name : Text) :
    extraction x d cache name = (x.extractFor d name cache).1 := by
  have hlater := h _ (readsTo_cacheAfter cache (x.names.takeWhile (· != name))) name
  rw [extraction, extractFor_eq, extractFor_eq, hlater]

/-- A function tells what each of the classes gives when it is looked up after those before it. -/
def Foretells (x : Extractor) (d : Disk) (found : Text → Except SourceError (List Dependency)) :
    TextCache → List Text → Prop
  | _, [] => True
  | cache, name :: rest => found name = (x.extractFor d name cache).1 ∧
      Foretells x d found (x.extractFor d name cache).2 rest

/-- What is foretold of all classes is foretold of the first ones. -/
theorem Foretells.take {found : Text → Except SourceError (List Dependency)} {cache : TextCache}
    {names : List Text} (h : Foretells x d found cache names) (n : Nat) :
    Foretells x d found cache (names.take n) := by
  induction names generalizing cache n with
  | nil => simpa using h
  | cons name rest ih =>
    cases n with
    | zero => trivial
    | succ n => exact ⟨h.1, ih h.2 n⟩

/-- Looking up all classes by name tells what each of them gives in its turn. -/
theorem extraction_foretells (cache : TextCache) :
    Foretells x d (extraction x d cache) cache x.names := by
  have hnodup : x.names.Nodup := (SortedMap.increasingBy_keys x.units.entries).nodup
  have hsuffix : ∀ before rest, x.names = before ++ rest →
      Foretells x d (extraction x d cache) (cacheAfter x d cache before) rest := by
    intro before rest hsplit
    induction rest generalizing before with
    | nil => trivial
    | cons name rest ih =>
      have hbefore : x.names.takeWhile (· != name) = before := by
        have hname : name ∉ before := by
          rw [hsplit] at hnodup
          intro hmem
          exact (List.nodup_append.mp hnodup).2.2 name hmem name (by simp) rfl
        rw [hsplit, List.takeWhile_append_of_pos]
        · simp
        · intro other hother
          have hne : other ≠ name := fun heq => hname (heq ▸ hother)
          simpa using hne
      refine ⟨by rw [extraction, hbefore], ?_⟩
      have hnext := ih (before ++ [name]) (by simpa using hsplit)
      simpa [cacheAfter] using hnext
  exact hsuffix [] x.names rfl

end Dependency

end ClassAtlas
