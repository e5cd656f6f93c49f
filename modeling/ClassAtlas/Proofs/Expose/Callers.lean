import ClassAtlas.Expose.Callers
import ClassAtlas.Proofs.Dependency.References
import ClassAtlas.Proofs.Graph.Completed
import ClassAtlas.Proofs.Graph.Projection

namespace ClassAtlas

variable {c : Catalog} {x : Extractor} {d : Disk} {cache later : TextCache}

namespace Catalog

/-- Reading can be continued. -/
theorem ReadsTo.trans {last : TextCache} (h : c.ReadsTo d cache later) (h' : c.ReadsTo d later last) :
    c.ReadsTo d cache last := by
  induction h' with
  | none => exact h
  | read name _ ih => exact .read name ih

/-- Texts stay stable when some of them are read. -/
theorem StableTexts.of_readsTo (h : c.StableTexts d cache) (hreads : c.ReadsTo d cache later) :
    c.StableTexts d later := by
  intro last hlast name
  rw [h last (hreads.trans hlast), h later hreads]

end Catalog

namespace Exposed

/-- The class is listed under the module. -/
def Lists (e : Exposed) (module api : Text) : Prop := ∃ names, e.find? module = some names ∧ api ∈ names

/-- A class is listed under a module if it is among those exposed there. -/
theorem lists_iff_mem {e : Exposed} {module api : Text} :
    e.Lists module api ↔ api ∈ (e.find? module).getD [] := by
  unfold Lists
  cases e.find? module <;> simp

/-- The classes that a module exposes stand in the order of the catalog. -/
theorem getD_find?_scan (c : Catalog) (options : ExposeOptions) (module : Text) :
    ((scan c options).find? module).getD [] =
      ((c.list.filter (isExposed c options)).filter (·.module = module)).map (·.name) := by
  have hfold : ∀ (units : List SourceUnit) (e : Exposed),
      ((units.foldl (fun (found : Exposed) u =>
        found.insert u.module ((found.find? u.module).getD [] ++ [u.name])) e).find? module).getD [] =
        (e.find? module).getD [] ++ (units.filter (·.module = module)).map (·.name) := by
    intro units
    induction units with
    | nil => simp
    | cons u rest ih =>
      intro e
      rw [List.foldl_cons, ih]
      by_cases hmodule : u.module = module
      · subst hmodule
        simp
      · simp [hmodule, SortedMap.find?_insert_of_ne _ (Ne.symm hmodule)]
  exact hfold _ SortedMap.empty

/-- A class is listed under its module if it is exposed. -/
theorem lists_scan_iff {options : ExposeOptions} {module api : Text} :
    (scan c options).Lists module api ↔
      ∃ u ∈ c.list, isExposed c options u = true ∧ u.module = module ∧ u.name = api := by
  rw [lists_iff_mem, getD_find?_scan]
  simp [and_assoc, and_left_comm]

end Exposed

/-- The names under two keys. -/
def NameIndex.names (index : NameIndex) (a b : Text) : SortedSet Text :=
  (((index.find? a).getD SortedMap.empty).find? b).getD SortedMap.empty

/-- A name that is added stands under its two keys, and nothing changes under others. -/
theorem NameIndex.names_add (index : NameIndex) (a b name a' b' : Text) :
    (index.add a b name).names a' b' =
      if a' = a ∧ b' = b then SortedSet.add (index.names a b) name else index.names a' b' := by
  unfold NameIndex.names NameIndex.add
  by_cases ha : a' = a
  · subst ha
    by_cases hb : b' = b
    · subst hb
      simp
    · simp [SortedMap.find?_insert_of_ne _ hb, hb]
  · simp [SortedMap.find?_insert_of_ne _ ha, ha]

/-- A name is listed under two keys once it is added under them. -/
theorem NameIndex.contains_names_foldl_add {α : Type} (a b name : α → Text) {xs : List α}
    {index : NameIndex} {a' b' name' : Text} :
    ((xs.foldl (fun index x => index.add (a x) (b x) (name x)) index).names a' b').contains name' = true ↔
      (index.names a' b').contains name' = true ∨ ∃ x ∈ xs, a x = a' ∧ b x = b' ∧ name x = name' := by
  induction xs generalizing index with
  | nil => simp
  | cons x rest ih =>
    have hstep : ((index.add (a x) (b x) (name x)).names a' b').contains name' = true ↔
        (index.names a' b').contains name' = true ∨ (a x = a' ∧ b x = b' ∧ name x = name') := by
      rw [NameIndex.names_add]
      by_cases hkeys : a' = a x ∧ b' = b x
      · obtain ⟨rfl, rfl⟩ := hkeys
        simp [SortedSet.add, or_comm, eq_comm (a := name')]
      · rw [if_neg hkeys]
        refine (or_iff_left ?_).symm
        rintro ⟨ha, hb, -⟩
        exact hkeys ⟨ha.symm, hb.symm⟩
    rw [List.foldl_cons, ih, hstep, List.exists_mem_cons_iff, or_assoc]

namespace CallerIndex

/-- The three parts of an index are filled side by side. -/
theorem foldl_addLink (links : List CallerLink) (start : CallerIndex) :
    links.foldl addLink start =
      ⟨links.foldl (fun index l => index.add l.caller l.apiModule l.api) start.targets,
        links.foldl (fun index l => index.add l.api l.callerModule l.caller) start.sources,
        links.foldl (fun callers l => callers.insert l.callerModule
          (SortedSet.add ((callers.find? l.callerModule).getD SortedMap.empty) l.caller)) start.callers⟩ := by
  induction links generalizing start with
  | nil => rfl
  | cons l rest ih =>
    rw [List.foldl_cons, ih]
    rfl

/-- A class is listed as what another one refers to if one of the references says so. -/
theorem contains_targets_foldl {links : List CallerLink} {start : CallerIndex}
    {caller module api : Text} :
    ((links.foldl addLink start).targets.names caller module).contains api = true ↔
      (start.targets.names caller module).contains api = true ∨
        ∃ l ∈ links, l.caller = caller ∧ l.apiModule = module ∧ l.api = api := by
  rw [foldl_addLink]
  exact NameIndex.contains_names_foldl_add _ _ _

/-- The candidates of a class are the references to what other modules expose. -/
theorem mem_candidates_iff {exposed : Exposed} {u : SourceUnit} {l : CallerLink} :
    l ∈ candidates exposed u ↔ l.caller = u.name ∧ l.callerModule = u.module ∧
      l.apiModule ≠ u.module ∧ exposed.Lists l.apiModule l.api := by
  simp only [candidates, List.mem_flatMap, List.mem_filter, List.mem_map, Prod.exists, bne_iff_ne]
  constructor
  · rintro ⟨module, names, ⟨hentry, hmodule⟩, api, hapi, rfl⟩
    exact ⟨rfl, rfl, hmodule, names, SortedMap.mem_toList_iff.mp hentry, hapi⟩
  · obtain ⟨caller, callerModule, api, module⟩ := l
    rintro ⟨rfl, rfl, hmodule, names, hentry, hapi⟩
    exact ⟨module, names, ⟨SortedMap.mem_toList_iff.mpr hentry, hmodule⟩, api, hapi, rfl⟩

/-- Of references those that a text has. -/
def referring (t : Text) (ls : List CallerLink) : List CallerLink :=
  ls.filter fun l => Dependency.refersTo t l.api == some true

/-- A text has a reference if it refers to the exposed class. -/
theorem mem_referring_iff {t : Text} {ls : List CallerLink} {l : CallerLink} :
    l ∈ referring t ls ↔ l ∈ ls ∧ Dependency.refersTo t l.api = some true := by
  simp [referring]

/-- What a text has of references is found whenever the search ends. -/
theorem eq_referring_of_linksIn {t : Text} {ls found : List CallerLink} (h : linksIn t ls = .ok found) :
    found = referring t ls := by
  induction ls generalizing found with
  | nil => exact (Except.ok.inj h).symm
  | cons l rest ih =>
    rw [linksIn] at h
    split at h
    · contradiction
    · next refers hrefers =>
      cases hrest : linksIn t rest with
      | error api => simp [hrest, Except.map] at h
      | ok more =>
        rw [hrest, Except.map, Except.ok.injEq] at h
        rw [← h, ih hrest]
        cases refers <;> simp [referring, hrefers]

/-- The search ends where the simple names of all exposed classes are valid. -/
theorem linksIn_eq_referring {t : Text} {ls : List CallerLink}
    (h : ∀ l ∈ ls, Utf8.isValid (ClassName.simple l.api) = true) : linksIn t ls = .ok (referring t ls) := by
  have hends : ∃ found, linksIn t ls = .ok found := by
    induction ls with
    | nil => exact ⟨[], rfl⟩
    | cons l rest ih =>
      obtain ⟨refers, hrefers⟩ := Dependency.exists_refersTo (t := t) (h l (List.mem_cons_self ..))
      obtain ⟨found, hfound⟩ := ih fun l hl => h l (List.mem_cons_of_mem _ hl)
      rw [linksIn, hrefers, hfound]
      exact ⟨_, rfl⟩
  obtain ⟨found, hfound⟩ := hends
  rw [hfound, eq_referring_of_linksIn hfound]

/-- Where texts are stable, the references collected are those of the classes that are no exception
and can be read. -/
theorem mem_collect_iff (hstable : c.StableTexts d cache) {options : ExposeOptions} {exposed : Exposed}
    {units : List SourceUnit} {budget : Budget} {found links : List CallerLink}
    (hreads : c.ReadsTo d cache later)
    (hcollect : (collect c d options exposed units budget found later).1 = .ok links)
    {l : CallerLink} :
    l ∈ links ↔ l ∈ found ∨ ∃ u ∈ units, isSkipped c options u = false ∧
      ∃ t, (c.text d u.name cache).1 = .ok t ∧ l ∈ referring t (candidates exposed u) := by
  induction units generalizing budget found later with
  | nil =>
    obtain rfl := Except.ok.inj hcollect
    simp
  | cons u rest ih =>
    rw [List.exists_mem_cons_iff]
    rw [collect] at hcollect
    split at hcollect
    · contradiction
    · split at hcollect
      · next hskipped => rw [ih hreads hcollect]; simp [hskipped]
      · next hkept =>
        have htext := hstable later hreads u.name
        have hnext : c.ReadsTo d cache (c.text d u.name later).2 := .read u.name hreads
        split at hcollect
        · next e cache' hread =>
          rw [hread] at htext hnext
          rw [ih hnext hcollect]
          simp [← htext]
        · next t cache' hread =>
          rw [hread] at htext hnext
          split at hcollect
          · contradiction
          · next links' hlinks =>
            rw [ih hnext hcollect, List.mem_append, or_assoc, eq_referring_of_linksIn hlinks]
            simp [← htext, hkept]

end CallerIndex

/-- An edge between classes of two modules is evidence of an edge between the modules. -/
theorem ModuleGraph.exists_edge?_project {g : ClassGraph} {e : ClassEdge} (he : e ∈ g.edges)
    (hne : g.moduleOf e.source ≠ g.moduleOf e.target) :
    ∃ m, (project g).edge? (g.moduleOf e.source) (g.moduleOf e.target) = some m ∧
      ⟨e.source, e.target⟩ ∈ m.evidence := by
  have hevidence : ⟨e.source, e.target⟩ ∈
      evidenceBetween g g.edgeList (g.moduleOf e.source) (g.moduleOf e.target) :=
    mem_evidenceBetween_iff.mpr ⟨e, ClassGraph.mem_edgeList.mpr he, rfl, rfl, rfl⟩
  refine ⟨⟨g.moduleOf e.source, g.moduleOf e.target, _⟩,
    edge?_project_eq_some_iff.mpr ⟨mem_edges_project_iff.mpr ⟨hne, ?_, rfl⟩, rfl⟩, hevidence⟩
  exact List.ne_nil_of_mem hevidence

/-- The graph shows each class of the catalog in its module. -/
theorem Build.Reflects.moduleOf_eq {b : Build}
    {found : Text → Except SourceError (List Dependency)} (h : b.Reflects c found) {u : SourceUnit}
    (hu : u ∈ c.list) : b.graph.moduleOf u.name = u.module := by
  have hunit := h.unit u.name
  rw [Catalog.unit?_of_mem_list hu, ← ClassGraph.units_find?] at hunit
  rw [ClassGraph.moduleOf_eq, hunit]
  rfl

/-- What a class refers to is found in it, if texts are stable. -/
theorem Dependency.exists_mem_extraction (hstable : x.StableTexts d cache) {u v : SourceUnit}
    (hv : v ∈ x.list) (hne : v.name ≠ u.name) (hname : Source.IsImportName v.name) {t : Text}
    (htext : (x.text d u.name cache).1 = .ok t) (hrefers : refersTo t v.name = some true) :
    ∃ deps, extraction x d cache u.name = .ok deps ∧ ∃ rules, ⟨v.name, rules⟩ ∈ deps := by
  have hmem : v.name ∈ x.names :=
    SortedMap.mem_keys_iff.mpr (SortedMap.contains_iff.mpr ⟨v, Catalog.unit?_of_mem_list hv⟩)
  obtain ⟨dep, hdep, htarget⟩ := exists_mem_extract_of_refersTo hmem hname hrefers
  rw [extraction_eq_of_stable hstable, extractFor_eq, htext]
  refine ⟨_, rfl, dep.rules, List.mem_filter.mpr ⟨?_, by simpa using hne⟩⟩
  rw [← htarget]
  exact hdep

namespace CallerIndex

/-- Every reference that the index of callers shows is an edge of the graph that is built from the same
catalog while texts are stable, and evidence of an edge from the module of the caller to that of the
exposed class. Readings before the index and before the graph make no difference. -/
theorem targets_evident (hscanned : x.Scanned) (hstable : x.StableTexts d cache)
    {cache₁ cache₂ : TextCache} (hreads₁ : x.ReadsTo d cache cache₁) (hreads₂ : x.ReadsTo d cache cache₂)
    {scanned called : ExposeOptions} {budget₁ budget₂ : Budget} {index : CallerIndex}
    (hindex : (build x d called (Exposed.scan x scanned) budget₁ cache₁).1 = .ok index)
    {options : BuildOptions} {now : Int} {b : Build}
    (hb : b = Build.run x d options budget₂ now cache₂) (hfailure : b.failure = none)
    {caller module api : Text} (hbytes : ∀ byte ∈ api, Source.isNameByte byte = true)
    (hsimple : ClassName.simple api ≠ []) (hlisted : (index.targets.names caller module).contains api = true) :
    b.graph.hasEdge caller api = true ∧ ∃ u modules e, x.unit? caller = some u ∧
      b.modules = some modules ∧ modules.edge? u.module module = some e ∧
        ⟨caller, api⟩ ∈ e.evidence := by
  subst hb
  have hreflects := Build.run_reflects hscanned hfailure
  -- the reference comes from the text of the caller
  obtain ⟨u, hu, v, hv, hne, t, htext, hrefers, rfl, rfl, rfl⟩ : ∃ u ∈ x.list, ∃ v ∈ x.list,
      u.module ≠ v.module ∧ ∃ t, (x.text d u.name cache₂).1 = .ok t ∧
        Dependency.refersTo t v.name = some true ∧ u.name = caller ∧ v.module = module ∧ v.name = api := by
    unfold build at hindex
    split at hindex
    · contradiction
    · next links cache' hcollect =>
      obtain rfl := Except.ok.inj hindex
      have hblank : ¬((blank x.modules).targets.names caller module).contains api = true :=
        Bool.false_ne_true
      obtain ⟨l, hl, rfl, rfl, rfl⟩ := (contains_targets_foldl.mp hlisted).resolve_left hblank
      have hmem := (mem_collect_iff hstable hreads₁ (by rw [hcollect])).mp hl
      obtain ⟨u, hu, -, t, htext, hlink⟩ := hmem.resolve_left (List.not_mem_nil)
      obtain ⟨hcandidate, hrefers⟩ := mem_referring_iff.mp hlink
      obtain ⟨hcaller, -, hmodule, hlists⟩ := mem_candidates_iff.mp hcandidate
      obtain ⟨v, hv, -, hvmodule, hvname⟩ := Exposed.lists_scan_iff.mp hlists
      refine ⟨u, hu, v, hv, ?_, t, ?_, ?_, hcaller.symm, hvmodule, hvname⟩
      · rw [hvmodule]
        exact hmodule.symm
      · rw [hstable cache₂ hreads₂, htext]
      · rw [hvname]
        exact hrefers
  have hnames : v.name ≠ u.name := by
    intro heq
    have hunit := Catalog.unit?_of_mem_list hv
    rw [heq, Catalog.unit?_of_mem_list hu] at hunit
    exact hne (congrArg SourceUnit.module (Option.some.inj hunit))
  have himport : Source.IsImportName v.name :=
    ⟨fun hnil => hsimple (by rw [hnil]; rfl), hbytes⟩
  obtain ⟨deps, hdeps, rules, hdep⟩ := Dependency.exists_mem_extraction (hstable.of_readsTo hreads₂) hv hnames
    himport htext hrefers
  have hcontains : x.contains u.name = true :=
    SortedMap.contains_iff.mpr ⟨u, Catalog.unit?_of_mem_list hu⟩
  have hedge := (hreflects.edge_iff ⟨u.name, v.name, rules⟩).mpr ⟨hcontains, deps, hdeps, hdep⟩
  have hmodules := ModuleGraph.exists_edge?_project hedge
  simp only [hreflects.moduleOf_eq hu, hreflects.moduleOf_eq hv] at hmodules
  obtain ⟨e, he, hevidence⟩ := hmodules hne
  exact ⟨hreflects.reachable.wellFormed.hasEdge_iff.mpr ⟨_, hedge, rfl⟩,
    u, _, e, Catalog.unit?_of_mem_list hu, hreflects.modules, he, hevidence⟩

/-- Two modules that share a package. A class of the first uses one of the second without an import. -/
def sharedDisk : Disk :=
  ((Disk.blank "/").put ["a", "A.java"] (.file "package p;\nB b;")).put ["b", "B.java"]
    (.file "package p;")

/-- The catalog of the two classes. -/
def sharedCatalog : Catalog where
  root := "/"
  extension := ".java"
  units := (UnitMap.empty.add ⟨"p.A", "p", "/a/A.java", "a"⟩).add ⟨"p.B", "p", "/b/B.java", "b"⟩
  modules := ["a", "b"]
  readErrors := []
  stats := ⟨2, 2, 0, 0, 0⟩

/-- The search for the two classes, whose simple names are words. -/
def sharedExtractor : Extractor := (Extractor.of? sharedCatalog).get rfl

/-- The cache after the scan, with the text read last at the front. -/
def sharedCache : TextCache := ⟨4096, [("/b/B.java", "package p;"), ("/a/A.java", "package p;\nB b;")]⟩

/-- The two classes are found by a scan. -/
theorem scan_sharedDisk :
    Catalog.scan sharedDisk {} Budget.unlimited "/" = .ok (sharedCatalog, sharedCache) := rfl

/-- The second module exposes its class, and a build that starts after a reading shows the reference. -/
theorem targets_evident_shared : sharedCatalog.Scanned ∧
    sharedCatalog.StableTexts sharedDisk sharedCache ∧
    ∃ index, (build sharedExtractor sharedDisk ⟨"b", []⟩ (Exposed.scan sharedCatalog ⟨"b", []⟩)
        .unlimited sharedCache).1 = .ok index ∧
      (index.targets.names "p.A" "b").contains "p.B" = true ∧
      let b := Build.run sharedExtractor sharedDisk {} .unlimited 7
        (sharedCatalog.text sharedDisk "p.B" sharedCache).2
      b.failure = none ∧ b.graph.hasEdge "p.A" "p.B" = true ∧
        ∃ u modules e, sharedCatalog.unit? "p.A" = some u ∧ b.modules = some modules ∧
          modules.edge? u.module "b" = some e ∧ ⟨"p.A", "p.B"⟩ ∈ e.evidence := by
  have hscanned : sharedCatalog.Scanned := ⟨_, _, _, _, _, scan_sharedDisk⟩
  have hstable : sharedCatalog.StableTexts sharedDisk sharedCache :=
    Catalog.stableTexts_of_agrees (Catalog.sound_of_scan scan_sharedDisk).2
  have hfailure : (Build.run sharedExtractor sharedDisk {} .unlimited 7
      (sharedCatalog.text sharedDisk "p.B" sharedCache).2).failure = none := rfl
  let index := [⟨"p.A", "a", "p.B", "b"⟩].foldl addLink (blank ["a", "b"])
  have hindex : (build sharedExtractor sharedDisk ⟨"b", []⟩ (Exposed.scan sharedCatalog ⟨"b", []⟩)
      .unlimited sharedCache).1 = .ok index := rfl
  have hlisted : (index.targets.names "p.A" "b").contains "p.B" = true := rfl
  have hbytes : ("p.B" : Text).all Source.isNameByte = true := rfl
  exact ⟨hscanned, hstable, index, hindex, hlisted, hfailure,
    targets_evident hscanned hstable .none (.read "p.B" .none) hindex rfl hfailure
      (List.all_eq_true.mp hbytes) (by decide) hlisted⟩

end CallerIndex

end ClassAtlas
