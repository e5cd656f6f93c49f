import ClassAtlas.Catalog.Scan
import ClassAtlas.Proofs.Catalog.StableText
import ClassAtlas.Proofs.Collection.SortedMap

namespace ClassAtlas

/-- Every path has a module with a name. -/
theorem Module.ofPath_ne_nil (root path : Text) : Module.ofPath root path ≠ [] := by
  have hunknown : Module.unknown ≠ [] := by decide
  unfold Module.ofPath
  split
  · exact hunknown
  · split
    · exact hunknown
    · dsimp only
      split
      · exact hunknown
      · next hfirst => simpa using hfirst

namespace TreeScan

/-- A class in the catalog has a name and a module. -/
def Proper (u : SourceUnit) : Prop := u.name ≠ [] ∧ u.module ≠ []

/-- What the scan keeps from one file to the next. -/
structure Sound (d : Disk) (p : Progress) : Prop where
  proper : ∀ name u, p.units.find? name = some u → Proper u
  agrees : p.cache.Agrees d

/-- The class that a file with a text gives. -/
def unitOf (root extension path t : Text) : SourceUnit :=
  ⟨Source.package t ++ "." ++ (Path.base path).dropTail extension, Source.package t, path,
    Module.ofPath root path⟩

/-- A file that can be read and declares a package gives a class; any other adds nothing. -/
theorem index_cases (d : Disk) (root extension path : Text) (p : Progress) :
    ((index d root extension path p).units = p.units ∧
      (index d root extension path p).cache = p.cache) ∨
    ∃ t, d.readFile path = .ok t ∧ Source.package t ≠ [] ∧
      (index d root extension path p).units = p.units.add (unitOf root extension path t) ∧
      (index d root extension path p).cache = p.cache.put path t := by
  unfold TreeScan.index
  cases hread : d.readFile path with
  | error e => exact Or.inl ⟨rfl, rfl⟩
  | ok t =>
    dsimp only
    split
    · exact Or.inl ⟨rfl, rfl⟩
    · next hpackage => exact Or.inr ⟨t, rfl, by simpa using hpackage, rfl, rfl⟩

/-- What every file of a walk keeps holds when the walk is over. -/
theorem collect_induction {P : Progress → Prop} {d : Disk} {root extension : Text}
    {visits : List Visit} {budget : Budget} {p p' : Progress}
    (hindex : ∀ v ∈ visits, ∀ p, P p → P (index d root extension v.path p)) (h : P p)
    (hcollect : collect d root extension visits budget p = .ok p') : P p' := by
  induction visits generalizing budget p with
  | nil => exact Except.ok.inj hcollect ▸ h
  | cons v rest ih =>
    rw [TreeScan.collect] at hcollect
    split at hcollect
    · contradiction
    · apply ih (fun w hw => hindex w (List.mem_cons_of_mem _ hw)) _ hcollect
      unfold take
      split
      · exact h
      · split
        · exact hindex v (List.mem_cons_self ..) p h
        · exact h

/-- One more file keeps what the scan keeps, whether or not the file gives a class. -/
theorem Sound.index {d : Disk} {p : Progress} (h : Sound d p) (root extension path : Text) :
    Sound d (index d root extension path p) := by
  obtain ⟨hunits, hcache⟩ | ⟨t, hread, hpackage, hunits, hcache⟩ :=
    index_cases d root extension path p
  · exact ⟨hunits ▸ h.proper, hcache ▸ h.agrees⟩
  · refine ⟨?_, hcache ▸ h.agrees.put hread⟩
    intro name u hu
    simp only [hunits, UnitMap.find?, UnitMap.add, SortedMap.find?_insert] at hu
    split at hu
    · obtain rfl := Option.some.inj hu
      exact ⟨by simp [unitOf, hpackage], Module.ofPath_ne_nil root path⟩
    · exact h.proper name u hu

end TreeScan

namespace Catalog

/-- A listed class is found under its name. -/
theorem unit?_of_mem_list {c : Catalog} {u : SourceUnit} (hu : u ∈ c.list) :
    c.unit? u.name = some u := by
  obtain ⟨name, hname⟩ := SortedMap.mem_values_iff.mp hu
  have heq : u.name = name := UnitMap.name_of_find? hname
  rw [heq]
  exact hname

/-- The catalog comes from a scan. -/
def Scanned (c : Catalog) : Prop :=
  ∃ d options budget root cache, scan d options budget root = .ok (c, cache)

/-- What a scan that succeeds went through. -/
theorem scan_eq_ok {c : Catalog} {d : Disk} {options : ScanOptions} {budget : Budget}
    {root : Text} {cache : TextCache} (hscan : scan d options budget root = .ok (c, cache)) :
    ∃ p, TreeScan.validRoot d root = .ok c.root ∧
      TreeScan.collect d c.root options.extension (TreeScan.visits d options.ignored c.root) budget
        ⟨UnitMap.empty, [], {}, TextCache.ofSize options.cacheSize⟩ = .ok p ∧
      c.extension = options.extension ∧ c.units = p.units ∧ cache = p.cache := by
  unfold scan at hscan
  split at hscan
  · contradiction
  · next path hroot =>
    dsimp only at hscan
    split at hscan
    · contradiction
    · next p hcollect =>
      obtain ⟨rfl, rfl⟩ := Prod.mk.inj (Except.ok.inj hscan)
      exact ⟨p, hroot, hcollect, rfl, rfl, rfl⟩

/-- The classes of a scan have names and modules, and its cache holds what stands on the disk. -/
theorem sound_of_scan {c : Catalog} {d : Disk} {options : ScanOptions} {budget : Budget}
    {root : Text} {cache : TextCache} (hscan : scan d options budget root = .ok (c, cache)) :
    (∀ name u, c.unit? name = some u → TreeScan.Proper u) ∧ cache.Agrees d := by
  obtain ⟨p, -, hcollect, -, hunits, rfl⟩ := scan_eq_ok hscan
  have hstart : TreeScan.Sound d ⟨UnitMap.empty, [], {}, TextCache.ofSize options.cacheSize⟩ := by
    refine ⟨?_, ?_⟩
    · intro name u hu
      simp [UnitMap.find?, UnitMap.empty] at hu
    · intro path t ht
      simp [TextCache.find?, TextCache.ofSize] at ht
  have hend := TreeScan.collect_induction (P := TreeScan.Sound d)
    (fun v _ p hp => hp.index c.root options.extension v.path) hstart hcollect
  simp only [unit?, hunits]
  exact ⟨hend.proper, hend.agrees⟩

/-- The classes of a scanned catalog have names and modules. -/
theorem Scanned.proper {c : Catalog} (h : c.Scanned) {name : Text} {u : SourceUnit}
    (hu : c.unit? name = some u) : TreeScan.Proper u := by
  obtain ⟨d, options, budget, root, cache, hscan⟩ := h
  exact (sound_of_scan hscan).1 name u hu

end Catalog

end ClassAtlas
