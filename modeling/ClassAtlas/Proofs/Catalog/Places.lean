import ClassAtlas.Proofs.Catalog.Scan
import ClassAtlas.Proofs.Path.Relative

namespace ClassAtlas

namespace TreeScan

/-- The class is what the file at its path gives, and the path is in its shortest form. -/
structure Located (d : Disk) (root extension : Text) (u : SourceUnit) : Prop where
  clean : Path.IsClean u.path
  content : ∃ t, d.readFile u.path = .ok t ∧ u = unitOf root extension u.path t

variable {d : Disk} {root extension : Text}

/-- The module of a class is that of its path. -/
theorem Located.module_eq {u : SourceUnit} (h : Located d root extension u) :
    u.module = Module.ofPath root u.path := by
  obtain ⟨t, -, hu⟩ := h.content
  exact congrArg SourceUnit.module hu

/-- Two classes do not come from one file. -/
theorem Located.eq_of_path_eq {u v : SourceUnit} (hu : Located d root extension u)
    (hv : Located d root extension v) (hpath : u.path = v.path) : u = v := by
  obtain ⟨t, ht, hut⟩ := hu.content
  obtain ⟨s, hs, hvs⟩ := hv.content
  rw [hpath, hs] at ht
  obtain rfl := Except.ok.inj ht
  rw [hut, hvs, hpath]

/-- Whether a directory can be listed or not, only the visit itself is reported. -/
theorem eq_of_mem_reported {unlisted : Bool} {v w : Visit} (h : v ∈ reported unlisted w) : v = w := by
  cases unlisted <;> simpa [reported] using h

/-- All paths that are visited are in their shortest form. -/
theorem isClean_of_mem_visits (ignored : List Text) (hroot : Path.IsClean root) :
    ∀ v ∈ visits d ignored root, Path.IsClean v.path := by
  intro v hv
  unfold visits at hv
  split at hv
  · contradiction
  · split at hv
    · rcases List.mem_append.mp hv with hfirst | hinside
      · obtain rfl := eq_of_mem_reported hfirst
        exact hroot
      · obtain ⟨e, -, he⟩ := List.mem_flatMap.mp hinside
        obtain rfl := eq_of_mem_reported he
        exact Path.isClean_join hroot.1 e.1
    · obtain rfl := List.mem_singleton.mp hv
      exact hroot
    · contradiction

/-- One more file leaves all classes located. -/
theorem located_index {p : Progress} {path : Text} (hpath : Path.IsClean path)
    (h : ∀ name u, p.units.find? name = some u → Located d root extension u) :
    ∀ name u, (index d root extension path p).units.find? name = some u →
      Located d root extension u := by
  intro name u hu
  obtain ⟨hunits, -⟩ | ⟨t, hread, -, hunits, -⟩ := index_cases d root extension path p
  · exact h name u (hunits ▸ hu)
  · rw [hunits] at hu
    simp only [UnitMap.find?, UnitMap.add, SortedMap.find?_insert] at hu
    split at hu
    · obtain rfl := Option.some.inj hu
      exact ⟨hpath, t, hread, rfl⟩
    · exact h name u hu

/-- A valid root is in its shortest form, if the working directory is absolute. -/
theorem isClean_of_validRoot {path : Text} (hwork : Path.isAbsolute d.workdir = true)
    (h : validRoot d root = .ok path) : Path.IsClean path := by
  unfold validRoot at h
  split at h
  · contradiction
  · dsimp only at h
    split at h
    · contradiction
    · split at h
      · obtain rfl := Except.ok.inj h
        exact Path.isClean_absolute hwork root
      · contradiction

end TreeScan

namespace Catalog

/-- The catalog comes from a scan by a process whose working directory has an absolute path. -/
def Grounded (c : Catalog) : Prop :=
  ∃ d options budget root cache, Path.isAbsolute d.workdir = true ∧
    scan d options budget root = .ok (c, cache)

namespace Grounded

variable {c : Catalog} {name : Text} {u : SourceUnit}

/-- A catalog from such a scan was scanned. -/
theorem scanned (h : c.Grounded) : c.Scanned := by
  obtain ⟨d, options, budget, root, cache, -, hscan⟩ := h
  exact ⟨d, options, budget, root, cache, hscan⟩

/-- Its root is in its shortest form, and all its classes are located on one disk. -/
theorem located (h : c.Grounded) : Path.IsClean c.root ∧
    ∃ d, ∀ name u, c.unit? name = some u → TreeScan.Located d c.root c.extension u := by
  obtain ⟨d, options, budget, root, cache, hwork, hscan⟩ := h
  obtain ⟨p, hvalid, hcollect, hextension, hunits, -⟩ := scan_eq_ok hscan
  have hroot := TreeScan.isClean_of_validRoot hwork hvalid
  refine ⟨hroot, d, ?_⟩
  simp only [unit?, hunits, hextension]
  refine TreeScan.collect_induction
    (P := fun p => ∀ name u, p.units.find? name = some u →
      TreeScan.Located d c.root options.extension u) ?_ ?_ hcollect
  · intro v hv p hp
    exact TreeScan.located_index (TreeScan.isClean_of_mem_visits _ hroot v hv) hp
  · intro name u hu
    simp [UnitMap.find?, UnitMap.empty] at hu

/-- Every class has a path from the root, and it leads back to the file of the class. -/
theorem exists_relative (h : c.Grounded) (hu : c.unit? name = some u) :
    ∃ rel, Path.relative? c.root u.path = some rel ∧ rel ≠ [] ∧
      Path.join [c.root, rel] = u.path := by
  obtain ⟨hroot, d, hlocated⟩ := h.located
  have hclean := (hlocated name u hu).clean
  obtain ⟨-, hrel⟩ | ⟨common, above, below, -, -, hrel⟩ :=
    Path.relative?_of_isAbsolute hroot.1 hclean.1
  all_goals
    refine ⟨_, hrel, Path.relative_ne_nil hroot.1 hclean.1 hrel, ?_⟩
    rw [Path.join_relative hroot.1 hclean.1 hrel, hclean.2]

/-- The module of a class can be found again from its relative path. -/
theorem ofPath_join (h : c.Grounded) (hu : c.unit? name = some u) {rel : Text}
    (hrel : Path.relative? c.root u.path = some rel) :
    Module.ofPath c.root (Path.join [c.root, rel]) = u.module := by
  obtain ⟨rel', hrel', -, hjoin⟩ := h.exists_relative hu
  obtain rfl := Option.some.inj (hrel'.symm.trans hrel)
  obtain ⟨-, d, hlocated⟩ := h.located
  rw [hjoin, (hlocated name u hu).module_eq]

/-- A path from the root leads to one class at most. -/
theorem eq_of_relative_eq (h : c.Grounded) {other : Text} {v : SourceUnit}
    (hu : c.unit? name = some u) (hv : c.unit? other = some v)
    (hsame : Path.relative? c.root u.path = Path.relative? c.root v.path) : u = v := by
  obtain ⟨rel, hrel, -, hjoin⟩ := h.exists_relative hu
  obtain ⟨rel', hrel', -, hjoin'⟩ := h.exists_relative hv
  obtain rfl := Option.some.inj (hrel.symm.trans (hsame.trans hrel'))
  obtain ⟨-, d, hlocated⟩ := h.located
  exact (hlocated name u hu).eq_of_path_eq (hlocated other v hv) (hjoin.symm.trans hjoin')

end Grounded

end Catalog

end ClassAtlas
