import ClassAtlas.Proofs.Catalog.Places
import ClassAtlas.Proofs.Graph.Completed
import ClassAtlas.Impact.Analysis

namespace ClassAtlas

/-- The graph shows classes of a catalog that was scanned. -/
structure ClassGraph.Draws (g : ClassGraph) (c : Catalog) : Prop where
  grounded : c.Grounded
  root : g.root = c.root
  unit? : ∀ name u, g.units.find? name = some u → c.unit? name = some u

/-- The class of a listed node is found under its name. -/
theorem ClassGraph.Draws.units_of_mem_nodeList {g : ClassGraph} {c : Catalog} (h : g.Draws c)
    {n : ClassNode} (hn : n ∈ g.nodeList) : g.units.find? n.unit.name = some n.unit := by
  obtain ⟨key, hkey⟩ := SortedMap.mem_values_iff.mp hn
  have hfind := units_of_node? hkey
  rwa [UnitMap.name_of_find? (h.unit? key _ hfind)]

/-- The graph of a build shows classes of its catalog, also if the build failed. -/
theorem Build.run_draws {x : Extractor} (hc : x.Grounded) (d : Disk) (options : BuildOptions)
    (budget : Budget) (now : Int) (cache : TextCache) :
    (run x d options budget now cache).graph.Draws x :=
  ⟨hc, run_root .., fun _ _ => unit?_of_units_run⟩

namespace Impact

variable {g : ClassGraph} {c : Catalog} {options : ImpactOptions} {files : List ChangedFile}
  {budget : Budget} {r : ImpactReport} {p name : Text} {u : SourceUnit}

/-- Enters a class into the index of classes by path. -/
def enterClass (root : Text) (found : SortedMap Text Text) (n : ClassNode) : SortedMap Text Text :=
  ((Path.relative? root n.unit.path).map (found.insert · n.unit.name)).getD found

/-- The index is filled class by class in the order of their names. -/
theorem classesByPath_eq (g : ClassGraph) :
    classesByPath g = g.nodeList.foldl (enterClass g.root) SortedMap.empty := by
  unfold classesByPath
  congr 1
  funext found n
  unfold enterClass
  cases Path.relative? g.root n.unit.path <;> rfl

/-- A class is entered under its relative path, in place of one that was there. -/
theorem find?_enterClass (root : Text) (found : SortedMap Text Text) (n : ClassNode) (p : Text) :
    (enterClass root found n).find? p =
      if Path.relative? root n.unit.path = some p then some n.unit.name else found.find? p := by
  unfold enterClass
  cases hrel : Path.relative? root n.unit.path with
  | none => simp
  | some rel =>
    simp only [Option.map_some, Option.getD_some, SortedMap.find?_insert, Option.some.injEq]
    by_cases hp : p = rel
    · simp [hp]
    · simp [hp, Ne.symm hp]

/-- Of the classes at a path the last one is found. -/
theorem find?_foldl_enterClass (root : Text) (nodes : List ClassNode) (found : SortedMap Text Text)
    (p : Text) :
    (nodes.foldl (enterClass root) found).find? p =
      ((nodes.filter fun n => Path.relative? root n.unit.path = some p).getLast?.map
        (·.unit.name)).or (found.find? p) := by
  induction nodes generalizing found with
  | nil => simp
  | cons n rest ih =>
    rw [List.foldl_cons, ih, find?_enterClass]
    by_cases hn : Path.relative? root n.unit.path = some p
    · rw [if_pos hn, List.filter_cons_of_pos (by simpa using hn), List.getLast?_cons]
      cases (rest.filter fun n => Path.relative? root n.unit.path = some p).getLast? <;> simp
    · rw [if_neg hn, List.filter_cons_of_neg (by simpa using hn)]

/-- A path from the root leads to the class that was scanned there. -/
theorem find?_classesByPath_iff (h : g.Draws c) :
    (classesByPath g).find? p = some name ↔
      ∃ u, g.units.find? name = some u ∧ Path.relative? c.root u.path = some p := by
  rw [classesByPath_eq, find?_foldl_enterClass, SortedMap.find?_empty, Option.or_none,
    Option.map_eq_some_iff]
  constructor
  · rintro ⟨n, hlast, rfl⟩
    obtain ⟨hn, hrel⟩ := List.mem_filter.mp (List.mem_of_getLast? hlast)
    rw [h.root] at hrel
    exact ⟨n.unit, h.units_of_mem_nodeList hn, by simpa using hrel⟩
  · rintro ⟨u, hu, hrel⟩
    rw [ClassGraph.units_find?] at hu
    obtain ⟨n, hn, rfl⟩ := Option.map_eq_some_iff.mp hu
    have hmem : n ∈ g.nodeList.filter fun n => Path.relative? g.root n.unit.path = some p :=
      List.mem_filter.mpr ⟨SortedMap.mem_values_iff.mpr ⟨name, hn⟩, by simpa [h.root] using hrel⟩
    obtain ⟨m, hm⟩ := Option.isSome_iff_exists.mp
      (List.getLast?_isSome.mpr (List.ne_nil_of_mem hmem))
    obtain ⟨hm_list, hm_rel⟩ := List.mem_filter.mp (List.mem_of_getLast? hm)
    -- two classes at one path are one class
    have hn_unit := h.unit? name n.unit (ClassGraph.units_of_node? hn)
    have hsame : m.unit = n.unit := by
      apply h.grounded.eq_of_relative_eq (h.unit? _ _ (h.units_of_mem_nodeList hm_list)) hn_unit
      rw [hrel, ← h.root]
      simpa using hm_rel
    exact ⟨m, hm, by rw [hsame, UnitMap.name_of_find? hn_unit]⟩

/-- The module of a path is that of the class in the file. -/
theorem moduleOf_eq_of_relative (h : g.Draws c) (hu : c.unit? name = some u)
    (hrel : Path.relative? c.root u.path = some p) : moduleOf g p = u.module := by
  obtain ⟨rel, hrel', hne, -⟩ := h.grounded.exists_relative hu
  obtain rfl := Option.some.inj (hrel'.symm.trans hrel)
  have hempty : rel.isEmpty = false := by simpa using hne
  rw [moduleOf, hempty, h.root]
  exact h.grounded.ofPath_join hu hrel

/-- The impact of the files starts at the path: it is one of the two paths of a file whose new path
is that of a source file. -/
def IsSeed (extension : Text) (files : List ChangedFile) (p : Text) : Prop :=
  p ≠ [] ∧ ∃ f ∈ files, f.path.endsWith extension = true ∧ (p = f.path ∨ p = f.oldPath)

/-- Annotating the files does not change where the impact starts. -/
theorem mem_seedPaths_iff (g : ClassGraph) (byPath : SortedMap Text Text) (extension : Text) :
    p ∈ (files.map (annotate g byPath extension)).flatMap seedPaths ↔ IsSeed extension files p := by
  simp only [List.mem_flatMap, List.mem_map, exists_exists_and_eq_and, IsSeed]
  constructor
  · rintro ⟨f, hf, hp⟩
    unfold seedPaths at hp
    split at hp
    · next hsource =>
      simp only [List.mem_filter, List.mem_cons, List.not_mem_nil, or_false, Bool.not_eq_true',
        List.isEmpty_eq_false_iff] at hp
      exact ⟨hp.2, f, hf, hsource, hp.1⟩
    · contradiction
  · rintro ⟨hne, f, hf, hsource, hp⟩
    refine ⟨f, hf, ?_⟩
    have hannotated : (annotate g byPath extension f).isSource = true := hsource
    rw [seedPaths, if_pos hannotated]
    simpa [annotate, hne] using hp

/-- If no check fails each file is annotated by itself. -/
theorem annotateAll_eq_ok {byPath : SortedMap Text Text} {extension : Text}
    {annotated : List ChangedFile} (h : annotateAll g byPath extension files budget = .ok annotated) :
    annotated = files.map (annotate g byPath extension) := by
  induction files generalizing budget annotated with
  | nil => exact (Except.ok.inj h).symm
  | cons f rest ih =>
    rw [annotateAll] at h
    split at h
    · contradiction
    · split at h
      · contradiction
      · next more hmore =>
        obtain rfl := Except.ok.inj h
        rw [ih hmore, List.map_cons]

/-- With no limit on the checks all files are annotated. -/
theorem annotateAll_of_left_eq_none (g : ClassGraph) (byPath : SortedMap Text Text) (extension : Text)
    (hbudget : budget.left = none) : annotateAll g byPath extension files budget =
      .ok (files.map (annotate g byPath extension)) := by
  induction files with
  | nil => rfl
  | cons f rest ih => simp only [annotateAll, Budget.check_of_left_eq_none hbudget, ih, List.map_cons]

/-- With no limit on the checks the impact of files is always found. -/
theorem exists_analyzeFiles (g : ClassGraph) (options : ImpactOptions) (files : List ChangedFile)
    (hbudget : budget.left = none) : ∃ r, analyzeFiles g options files budget = .ok r := by
  unfold analyzeFiles
  dsimp only
  rw [annotateAll_of_left_eq_none _ _ _ hbudget]
  exact ⟨_, rfl⟩

/-- What a report says on classes and modules, in terms of the paths where the impact starts. -/
theorem analyzeFiles_eq_ok (h : analyzeFiles g options files budget = .ok r) :
    (∀ name, name ∈ r.changedClasses ↔
      ∃ p, IsSeed options.extension files p ∧ (classesByPath g).find? p = some name) ∧
    (∀ m, m ∈ r.changedModules ↔
      m ≠ Module.unknown ∧ ∃ p, IsSeed options.extension files p ∧ moduleOf g p = m) ∧
    r.affectedClasses = affectedClasses g r.changedClasses ∧
    r.impactedModules =
      impactedModules (ModuleGraph.project g) options.maxDepth r.changedModules := by
  unfold analyzeFiles at h
  dsimp only at h
  split at h
  · contradiction
  · next annotated hannotated =>
    obtain rfl := Except.ok.inj h
    obtain rfl := annotateAll_eq_ok hannotated
    refine ⟨?_, ?_, rfl, rfl⟩
    · intro name
      simp only [mem_sortDistinct, List.mem_filterMap, mem_seedPaths_iff]
    · intro m
      simp only [mem_sortDistinct, List.mem_filter, List.mem_map, mem_seedPaths_iff, bne_iff_ne]
      rw [and_comm]

/-- The changed classes are those whose files are seeds. The budget may be any with which the impact is
found. -/
theorem mem_changedClasses_iff (hg : g.Draws c) (h : analyzeFiles g options files budget = .ok r) :
    name ∈ r.changedClasses ↔ ∃ u, g.units.find? name = some u ∧
      ∃ p, Path.relative? c.root u.path = some p ∧ IsSeed options.extension files p := by
  rw [(analyzeFiles_eq_ok h).1]
  simp only [find?_classesByPath_iff hg]
  constructor
  · rintro ⟨p, hp, u, hu, hrel⟩
    exact ⟨u, hu, p, hrel, hp⟩
  · rintro ⟨u, hu, p, hrel, hp⟩
    exact ⟨p, hp, u, hu, hrel⟩

/-- The module of a changed class is changed, unless it has the name that stands for none. -/
theorem module_mem_changedModules_iff (hg : g.Draws c)
    (h : analyzeFiles g options files budget = .ok r) (hu : g.units.find? name = some u)
    (hname : name ∈ r.changedClasses) :
    u.module ∈ r.changedModules ↔ u.module ≠ Module.unknown := by
  rw [(analyzeFiles_eq_ok h).2.1]
  constructor
  · exact And.left
  · intro hknown
    obtain ⟨v, hv, p, hrel, hp⟩ := (mem_changedClasses_iff hg h).mp hname
    obtain rfl := Option.some.inj (hu.symm.trans hv)
    exact ⟨hknown, p, hp, moduleOf_eq_of_relative hg (hg.unit? name u hu) hrel⟩

/-- In the graph of a catalog, the impact starts at a class exactly if its path is one of the two
paths of a file whose new path is that of a source file. The module of the class then counts as
changed, except for one that is really called like the unknown module. A graph that is complete has
all classes. -/
theorem changed_iff_isSeed {x : Extractor} (hc : x.Grounded) (d : Disk) (building : BuildOptions) (allowed : Budget)
    (now : Int) (cache : TextCache) {b : Build} (hb : b = Build.run x d building allowed now cache)
    (options : ImpactOptions) (files : List ChangedFile) (budget : Budget) :
    (budget.left = none → ∃ r, analyzeFiles b.graph options files budget = .ok r) ∧
    (b.failure = none → ∀ u ∈ x.list, b.graph.nodes.contains u.name = true) ∧
    ∀ r, analyzeFiles b.graph options files budget = .ok r →
      ∀ u ∈ x.list, b.graph.nodes.contains u.name = true →
        ∀ p, Path.relative? x.root u.path = some p →
          (u.name ∈ r.changedClasses ↔ IsSeed options.extension files p) ∧
          (u.name ∈ r.changedClasses →
            (u.module ∈ r.changedModules ↔ u.module ≠ Module.unknown)) := by
  subst hb
  refine ⟨exists_analyzeFiles _ _ _, ?_, ?_⟩
  · intro hfailure u hu
    have hunit := (Build.run_reflects hc.scanned hfailure).unit u.name
    rw [Catalog.unit?_of_mem_list hu] at hunit
    obtain ⟨n, hn, -⟩ := Option.map_eq_some_iff.mp hunit
    exact SortedMap.contains_iff.mpr ⟨n, hn⟩
  · intro r hr u hu hcontains p hrel
    have hdraws := Build.run_draws hc d building allowed now cache
    obtain ⟨n, hn⟩ := SortedMap.contains_iff.mp hcontains
    have hunits := ClassGraph.units_of_node? hn
    obtain rfl : u = n.unit := Option.some.inj
      ((Catalog.unit?_of_mem_list hu).symm.trans (hdraws.unit? _ _ hunits))
    refine ⟨?_, module_mem_changedModules_iff hdraws hr hunits⟩
    rw [mem_changedClasses_iff hdraws hr]
    constructor
    · rintro ⟨v, hv, q, hq, hseed⟩
      obtain rfl := Option.some.inj (hunits.symm.trans hv)
      obtain rfl := Option.some.inj (hq.symm.trans hrel)
      exact hseed
    · intro hseed
      exact ⟨n.unit, hunits, p, hrel, hseed⟩

/-- The catalog of two classes could have been scanned. -/
theorem grounded_pairCatalog : Build.pairCatalog.Grounded :=
  ⟨_, _, _, _, _, by decide, Build.scan_pairDisk⟩

/-- A source file with a new name is seeded from both names; the class beside it is not. -/
theorem changed_iff_isSeed_renamed : Build.pairCatalog.Grounded ∧
    ∃ r, analyzeFiles Build.pairBuild.graph {} [.plain "m/C.java" "m/A.java" .renamed]
        Budget.unlimited = .ok r ∧
      Text.ofString "p.A" ∈ r.changedClasses ∧ Text.ofString "m" ∈ r.changedModules ∧
      Text.ofString "p.B" ∉ r.changedClasses := by
  obtain ⟨hexists, hcontains, hiff⟩ := changed_iff_isSeed (x := Build.pairExtractor) grounded_pairCatalog
    Build.pairDisk { limits := ⟨2, 1⟩ } Budget.unlimited 7 Build.pairCache (b := Build.pairBuild) rfl {}
    [.plain "m/C.java" "m/A.java" .renamed] Budget.unlimited
  obtain ⟨r, hr⟩ := hexists rfl
  have hfailure : Build.pairBuild.failure = none := by decide
  have hlist : Build.pairExtractor.list =
      [⟨"p.A", "p", "/m/A.java", "m"⟩, ⟨"p.B", "p", "/m/B.java", "m"⟩] := by decide
  have hclass := hiff r hr ⟨"p.A", "p", "/m/A.java", "m"⟩ (by simp [hlist])
    (hcontains hfailure _ (by simp [hlist])) "m/A.java" (by decide)
  have hbeside := hiff r hr ⟨"p.B", "p", "/m/B.java", "m"⟩ (by simp [hlist])
    (hcontains hfailure _ (by simp [hlist])) "m/B.java" (by decide)
  have hchanged : Text.ofString "p.A" ∈ r.changedClasses := by
    apply hclass.1.mpr
    refine ⟨by decide, _, List.mem_singleton_self _, by decide, Or.inr rfl⟩
  refine ⟨grounded_pairCatalog, r, hr, hchanged, (hclass.2 hchanged).mpr (by decide), ?_⟩
  intro hmem
  obtain ⟨-, f, hf, -, hpath⟩ := hbeside.1.mp hmem
  obtain rfl := List.mem_singleton.mp hf
  revert hpath
  decide

/-- A class whose file is renamed so that it is no source file any more is not among the changed ones,
though its old path is that of a source file. -/
theorem changedClasses_of_renamed_away :
    Build.pairCatalog.unit? "p.A" = some ⟨"p.A", "p", "/m/A.java", "m"⟩ ∧
    Path.relative? Build.pairCatalog.root "/m/A.java" = some "m/A.java" ∧
    (Text.ofString "m/A.java").endsWith ({} : ImpactOptions).extension = true ∧
    ∃ r, analyzeFiles Build.pairBuild.graph {} [.plain "m/A.txt" "m/A.java" .renamed]
        Budget.unlimited = .ok r ∧ r.changedClasses = [] ∧ r.changedModules = [] := by
  have hunlimited : Budget.unlimited.left = none := rfl
  obtain ⟨r, hr⟩ := exists_analyzeFiles Build.pairBuild.graph {}
    [.plain "m/A.txt" "m/A.java" .renamed] hunlimited
  have hnone : ∀ p, ¬IsSeed ({} : ImpactOptions).extension [.plain "m/A.txt" "m/A.java" .renamed] p := by
    rintro p ⟨-, f, hf, hsource, -⟩
    obtain rfl := List.mem_singleton.mp hf
    revert hsource
    decide
  obtain ⟨hclasses, hmodules, -⟩ := analyzeFiles_eq_ok hr
  refine ⟨by decide, by decide, by decide, r, hr, ?_, ?_⟩
  · apply List.eq_nil_iff_forall_not_mem.mpr
    intro name hname
    obtain ⟨p, hp, -⟩ := (hclasses name).mp hname
    exact hnone p hp
  · apply List.eq_nil_iff_forall_not_mem.mpr
    intro m hm
    obtain ⟨-, p, hp, -⟩ := (hmodules m).mp hm
    exact hnone p hp

end Impact

end ClassAtlas
