import ClassAtlas.Proofs.Graph.Build

namespace ClassAtlas.Build

open ClassGraph GraphDocument Dependency

variable {c : Catalog} {x : Extractor} {d : Disk} {b : Build} {found : Text → Except SourceError (List Dependency)}

/-- A finished build shows a catalog with the dependencies that were found. -/
structure Reflects (b : Build) (c : Catalog)
    (found : Text → Except SourceError (List Dependency)) : Prop where
  reachable : b.graph.Reachable
  frozen : b.graph.frozen = true
  root : b.graph.root = c.root
  /-- The nodes are the classes of the catalog. -/
  unit : ∀ name, (b.graph.node? name).map (·.unit) = c.unit? name
  proper : ∀ name n, b.graph.node? name = some n → n.unit.name ≠ [] ∧ n.unit.module ≠ []
  /-- The edges are the dependencies found, with their rules. -/
  edge_iff : ∀ e, e ∈ b.graph.edges ↔ c.contains e.source = true ∧
    ∃ deps, found e.source = .ok deps ∧ ⟨e.target, e.rules⟩ ∈ deps
  /-- A class that cannot be read has a node without edges that leave it. -/
  unreadable : ∀ name e, c.contains name = true → found name = .error e →
    ∃ n, b.graph.node? name = some n ∧ b.graph.edgesOut n = []
  fileError_iff : ∀ name e, ⟨name, e⟩ ∈ b.fileErrors ↔
    c.contains name = true ∧ found name = .error e
  fileErrors_sorted : IncreasingBy (·.name) b.fileErrors
  nodes : b.stats.nodes = b.graph.nodeCount
  processed : b.stats.processed + b.stats.failed = b.graph.nodeCount
  failed : b.stats.failed = b.fileErrors.length
  edges : b.stats.edges = b.graph.edgeCount
  counted : b.stats.edges = b.stats.imported + b.stats.usedOnly
  imported : b.stats.imported = b.graph.edges.toList.countP (·.rules.has Rules.imported)
  modules : b.modules = some (ModuleGraph.project b.graph)
  moduleEdges : b.stats.moduleEdges = (ModuleGraph.project b.graph).edgeCount

/-- The graph with the modules and classes of a catalog and without edges. -/
def peopled (c : Catalog) (limits : GraphLimits) : ClassGraph :=
  { ClassGraph.new c.root limits with
    named := (c.modules.filter (!·.isEmpty)).foldl SortedSet.add SortedMap.empty
    nodes := placeAll c.list SortedMap.empty }

/-- The build of which the classes are collected. -/
def collected (c : Catalog) (limits : GraphLimits) (cache : TextCache) : Build :=
  ⟨peopled c limits, none, [], { nodes := c.size }, [⟨.collecting, c.size, 0, 0⟩], none, cache⟩

/-- Classes are found under their own names. -/
theorem name_of_unit? {name : Text} {u : SourceUnit} (hu : c.units.entries.find? name = some u) :
    u.name = name := UnitMap.name_of_find? hu

/-- The names of a catalog are those that it contains. -/
theorem mem_names_iff {name : Text} : name ∈ c.names ↔ c.contains name = true :=
  SortedMap.mem_keys_iff

/-- There are as many names as classes. -/
theorem length_names (c : Catalog) : c.names.length = c.size := List.length_map ..

/-- The classes of a catalog are listed by their names, each once. -/
theorem increasingBy_list (c : Catalog) : IncreasingBy (·.name) c.list :=
  SortedMap.increasingBy_values name_of_unit?

/-- The graph without edges has the classes of the catalog. -/
theorem peopled_units (c : Catalog) (limits : GraphLimits) :
    (peopled c limits).units = c.units.entries := by
  apply SortedMap.ext
  intro name
  rw [units_find?]
  change ((placeAll c.list SortedMap.empty).find? name).map (·.unit) = _
  rw [find?_placeAll (increasingBy_list c).nodup_map, SortedMap.find?_empty, Option.or_none,
    Option.map_map, ← SortedMap.find?_values name_of_unit? name]
  exact Option.map_id'

/-- When the classes are collected, all of them can be dealt with. -/
theorem collected_ready (x : Extractor) (limits : GraphLimits) (cache : TextCache) :
    Ready x x.names (collected x limits cache) where
  frozen := rfl
  failure := rfl
  known := by
    intro name hname
    have hunits : (peopled x limits).units.contains name = true := by
      rw [peopled_units]
      exact mem_names_iff.mp hname
    rwa [units, SortedMap.contains_map] at hunits
  fresh := fun _ _ _ => SortedMap.find?_empty _

/-- After how many classes the progress is reported. -/
def interval (options : BuildOptions) : Nat :=
  if options.progressEvery ≤ 0 then 500 else options.progressEvery.toNat

/-- Either there are too many classes, or the build comes to look at them one by one. -/
theorem run_collects (options : BuildOptions) (budget : Budget) (now : Int) (cache : TextCache)
    (hnames : ∀ name u, x.unit? name = some u → u.name ≠ []) :
    (¬Fits 0 x.size options.limits.nodes ∧ ∃ name,
      (run x d options budget now cache).failure = some (.addingClass name .tooManyNodes)) ∨
    (Fits 0 x.size options.limits.nodes ∧
      run x d options budget now cache =
        (extractEdges x d (interval options) x.size 0 x.names budget
          (collected x options.limits cache)).andThen (finish now x.size)) := by
  let start : Build := ⟨ClassGraph.new x.root options.limits, none, [], {}, [], none, cache⟩
  let named : Build := { start with graph := { start.graph with
    named := (x.modules.filter (!·.isEmpty)).foldl SortedSet.add SortedMap.empty } }
  have hmodules : (addModules x.modules start).andThen (addClasses x.list) =
      addClasses x.list named := by
    rw [addModules_eq rfl]
    exact andThen_of_none rfl
  have hrun : run x d options budget now cache =
      ((addClasses x.list named).andThen fun b => extractEdges x d (interval options) x.size 0 x.names
        budget (b.report .collecting x.size 0)).andThen (finish now x.size) := by
    rw [← hmodules]
    rfl
  have hnew : ∀ u ∈ x.list, u.name ≠ [] ∧ named.graph.nodes.find? u.name = none := by
    intro u hu
    obtain ⟨name, hname⟩ := SortedMap.mem_values_iff.mp hu
    exact ⟨hnames name u hname, SortedMap.find?_empty _⟩
  have hlength : x.list.length = x.size := List.length_map ..
  have hclasses := addClasses_cases (b := named) rfl hnew (increasingBy_list x).nodup_map
  rw [hlength] at hclasses
  obtain ⟨hfits, hadd⟩ | ⟨hover, name, hfailure⟩ := hclasses
  · refine Or.inr ⟨hfits, ?_⟩
    have hcount : named.stats.nodes + x.size = x.size := Nat.zero_add _
    rw [hcount] at hadd
    have hcollected : (addClasses x.list named).report .collecting x.size 0 =
        collected x options.limits cache := by
      rw [hadd]
      rfl
    have hgoes : (addClasses x.list named).failure = none := by rw [hadd]
    rw [hrun, andThen_of_none hgoes, hcollected]
  · refine Or.inl ⟨hover, name, ?_⟩
    rw [hrun, andThen_of_some hfailure, andThen_of_some hfailure]
    exact hfailure

/-- If nothing interrupts it, the build deals with the classes as long as their edges fit. -/
theorem run_cases (options : BuildOptions) {budget : Budget} (now : Int) (cache : TextCache)
    (hnames : ∀ name u, x.unit? name = some u → u.name ≠ []) (hbudget : budget.left = none) :
    (¬Fits 0 x.size options.limits.nodes ∧ ∃ name,
      (run x d options budget now cache).failure = some (.addingClass name .tooManyNodes)) ∨
    (Fits 0 x.size options.limits.nodes ∧ ∃ b,
      run x d options budget now cache = b.andThen (finish now x.size) ∧
        Grows x d (extraction x d cache) x.names (collected x options.limits cache) b) := by
  obtain hover | ⟨hfits, hrun⟩ := run_collects (d := d) options budget now cache hnames
  · exact Or.inl hover
  · refine Or.inr ⟨hfits, _, hrun, ?_⟩
    exact extractEdges_grows (collected_ready x _ cache) (fun _ hname => hname)
      (SortedMap.increasingBy_keys _).nodup (extraction_foretells cache) hbudget

/-- Every edge is counted once, by the rules that found it. -/
theorem foldl_countEdge (edges : List ClassEdge) (s : BuildStats) :
    edges.foldl countEdge s =
      { s with
        imported := s.imported + edges.countP (·.rules.has Rules.imported)
        usedOnly := s.usedOnly + edges.countP (!·.rules.has Rules.imported) } := by
  induction edges generalizing s with
  | nil => rfl
  | cons e rest ih =>
    rw [List.foldl_cons, ih]
    cases hrules : e.rules.has Rules.imported with
    | true => simp [countEdge, hrules, Nat.add_assoc, Nat.add_comm 1]
    | false => simp [countEdge, hrules, Nat.add_assoc, Nat.add_comm 1]

/-- The edges found are the dependencies of the classes that can be read. -/
theorem mem_map_edgesFound_iff {names : List Text} {e : ClassEdge} :
    e ∈ (names.flatMap (edgesFound found)).map (fun r => ⟨r.source, r.target, r.rules⟩) ↔
      e.source ∈ names ∧ ∃ deps, found e.source = .ok deps ∧ ⟨e.target, e.rules⟩ ∈ deps := by
  rw [List.mem_map]
  constructor
  · rintro ⟨r, hr, rfl⟩
    obtain ⟨name, hname, hmem⟩ := List.mem_flatMap.mp hr
    obtain ⟨deps, hfound, dep, hdep, rfl⟩ := mem_edgesFound_iff.mp hmem
    exact ⟨hname, deps, hfound, hdep⟩
  · rintro ⟨hname, deps, hfound, hdep⟩
    refine ⟨record e.source ⟨e.target, e.rules⟩, List.mem_flatMap.mpr ⟨e.source, hname, ?_⟩, rfl⟩
    exact mem_edgesFound_iff.mpr ⟨deps, hfound, _, hdep, rfl⟩

/-- When a build is finished, its edges are counted once more; the numbers of classes stay. -/
theorem finish_stats (now : Int) (total : Nat) (b : Build) :
    (finish now total b).stats =
      { b.stats with
        edges := b.graph.edgeCount
        imported := b.stats.imported + b.graph.edges.toList.countP (·.rules.has Rules.imported)
        usedOnly := b.stats.usedOnly + b.graph.edges.toList.countP (!·.rules.has Rules.imported)
        moduleEdges := (ModuleGraph.project (b.graph.freeze now)).edgeCount } := by
  have hfold : (finish now total b).stats = b.graph.edges.foldl countEdge
      { b.stats with
        edges := b.graph.edgeCount
        moduleEdges := (ModuleGraph.project (b.graph.freeze now)).edgeCount } := rfl
  rw [hfold, ← Array.foldl_toList, foldl_countEdge]

section Finished

variable {limits : GraphLimits} {cache : TextCache} {names : List Text}

/-- Dealing with classes adds none to those of the catalog and loses none. -/
theorem Advances.units (h : Advances x d found names (collected x limits cache) b) :
    b.graph.units = x.units.entries := by
  rw [h.graph]
  exact (linkAll_keeps _ _).2.2.1.trans (peopled_units x limits)

/-- The graph has as many nodes as the catalog has classes, however many of them were dealt with. -/
theorem Advances.nodeCount (h : Advances x d found names (collected x limits cache) b) :
    b.graph.nodeCount = x.size := by
  have hcount := congrArg SortedMap.size h.units
  rwa [ClassGraph.units, SortedMap.size_map] at hcount

/-- The edges are those found for the classes that were dealt with, class after class. -/
theorem Advances.edges_eq (h : Advances x d found names (collected x limits cache) b) :
    b.graph.edges.toList =
      (names.flatMap (edgesFound found)).map fun r => ⟨r.source, r.target, r.rules⟩ := by
  rw [h.graph]
  exact (linkAll_keeps (names.flatMap (edgesFound found)) (peopled x limits)).2.2.2

/-- An edge is in the graph if it is a dependency found for a class that was dealt with. -/
theorem Advances.mem_edges_iff (h : Advances x d found names (collected x limits cache) b)
    {e : ClassEdge} : e ∈ b.graph.edges ↔ e.source ∈ names ∧
      ∃ deps, found e.source = .ok deps ∧ ⟨e.target, e.rules⟩ ∈ deps := by
  rw [← Array.mem_toList_iff, h.edges_eq]
  exact mem_map_edgesFound_iff

/-- The notes are those on the classes that were dealt with, in their order. -/
theorem Advances.fileErrors_eq (h : Advances x d found names (collected x limits cache) b) :
    b.fileErrors = names.filterMap (fileError? found) := h.fileErrors.trans (List.nil_append _)

/-- A class is noted if it was dealt with and its text could not be read. -/
theorem Advances.mem_fileErrors_iff (h : Advances x d found names (collected x limits cache) b)
    {name : Text} {e : SourceError} :
    ⟨name, e⟩ ∈ b.fileErrors ↔ name ∈ names ∧ found name = .error e := by
  rw [h.fileErrors_eq, List.mem_filterMap]
  constructor
  · rintro ⟨name', hname, hnote⟩
    obtain ⟨rfl, hfound⟩ := fileError?_eq_some_iff.mp hnote
    exact ⟨hname, hfound⟩
  · rintro ⟨hname, hfound⟩
    exact ⟨name, hname, fileError?_eq_some_iff.mpr ⟨rfl, hfound⟩⟩

/-- The classes that could not be read are noted by name. -/
theorem increasingBy_fileErrors (c : Catalog)
    (found : Text → Except SourceError (List Dependency)) :
    IncreasingBy (·.name) (c.names.filterMap (fileError? found)) := by
  refine List.Pairwise.filterMap _ ?_ (SortedMap.increasingBy_keys c.units.entries)
  intro name other hbefore e he e' he'
  simpa [(fileError?_eq_some_iff.mp he).1, (fileError?_eq_some_iff.mp he').1] using hbefore

/-- A build that has dealt with all classes is complete once it is finished. -/
theorem Advances.reflects (h : Advances x d found x.names (collected x limits cache) b)
    (hproper : ∀ name u, x.unit? name = some u → u.name ≠ [] ∧ u.module ≠ []) {now : Int}
    (hreach : (finish now x.size b).graph.Reachable) : (finish now x.size b).Reflects x found := by
  have hunit : ∀ name, ((finish now x.size b).graph.node? name).map (·.unit) = x.unit? name := by
    intro name
    have hsame : (finish now x.size b).graph.units = x.units.entries :=
      (freeze_units b.graph now).trans h.units
    rw [← units_find?, hsame]
    rfl
  have hedge : ∀ e, e ∈ (finish now x.size b).graph.edges ↔ x.contains e.source = true ∧
      ∃ deps, found e.source = .ok deps ∧ ⟨e.target, e.rules⟩ ∈ deps := by
    intro e
    rw [← mem_names_iff]
    exact h.mem_edges_iff
  have hnodes : (finish now x.size b).graph.nodeCount = x.size := by
    rw [← h.nodeCount]
    exact SortedMap.size_map ..
  have hstats := finish_stats now x.size b
  have himported : b.stats.imported = 0 := h.imported
  have husedOnly : b.stats.usedOnly = 0 := h.usedOnly
  constructor
  case reachable => exact hreach
  case frozen => rfl
  case root =>
    change b.graph.root = x.root
    rw [h.graph]
    exact (linkAll_keeps _ _).1
  case unit => exact hunit
  case proper =>
    intro name n hn
    apply hproper name
    rw [← hunit, hn, Option.map_some]
  case edge_iff => exact hedge
  case unreadable =>
    intro name e hname hfound
    obtain ⟨u, hu⟩ := SortedMap.contains_iff.mp hname
    have hsome : ((finish now x.size b).graph.node? name).map (·.unit) = some u :=
      (hunit name).trans hu
    obtain ⟨n, hn, -⟩ := Option.map_eq_some_iff.mp hsome
    refine ⟨n, hn, List.eq_nil_iff_forall_not_mem.mpr ?_⟩
    intro out hout
    obtain ⟨hmem, hsource⟩ := (hreach.wellFormed.mem_edgesOut_iff hn).mp hout
    obtain ⟨-, deps, hdeps, -⟩ := (hedge out).mp hmem
    rw [hsource, hfound] at hdeps
    contradiction
  case fileError_iff =>
    intro name e
    rw [← mem_names_iff]
    exact h.mem_fileErrors_iff
  case fileErrors_sorted =>
    change IncreasingBy (·.name) b.fileErrors
    rw [h.fileErrors_eq]
    exact increasingBy_fileErrors x found
  case nodes =>
    rw [hstats, hnodes]
    exact h.nodes
  case processed =>
    rw [hstats, hnodes, ← length_names]
    exact h.counted.trans (Nat.zero_add _)
  case failed =>
    have hfailed := h.failed
    rw [← h.fileErrors_eq] at hfailed
    rw [hstats]
    exact hfailed.trans (Nat.zero_add _)
  case edges =>
    rw [hstats]
    rfl
  case counted =>
    have hsplit := List.length_eq_countP_add_countP
      (fun e : ClassEdge => e.rules.has Rules.imported) (l := b.graph.edges.toList)
    rw [hstats, himported, husedOnly]
    simp only [edgeCount, Nat.zero_add]
    simpa using hsplit
  case imported =>
    rw [hstats, himported, Nat.zero_add]
    rfl
  case modules => rfl
  case moduleEdges =>
    rw [hstats]
    rfl

end Finished

section Endings

variable {limits : GraphLimits}

end Endings

/-- The text of a class that imports another one and uses it. -/
def userText : Text := "package p;\nimport p.B;\nB b;"

/-- The text of a class that uses none. -/
def usedText : Text := "package p;"

/-- A disk with two source files in one module. -/
def pairDisk : Disk :=
  ((Disk.blank "/").put ["m", "A.java"] (.file userText)).put ["m", "B.java"] (.file usedText)

/-- The catalog of the two classes. -/
def pairCatalog : Catalog where
  root := "/"
  extension := ".java"
  units := (UnitMap.empty.add ⟨"p.A", "p", "/m/A.java", "m"⟩).add ⟨"p.B", "p", "/m/B.java", "m"⟩
  modules := ["m"]
  readErrors := []
  stats := ⟨2, 2, 0, 0, 0⟩

/-- The cache after the scan, with the text read last at the front. -/
def pairCache : TextCache := ⟨4096, [("/m/B.java", usedText), ("/m/A.java", userText)]⟩

/-- The path of the whole disk leads to its top, followed or not. -/
theorem resolve_top (d : Disk) (follow : Bool) : d.resolve follow "/" = .ok [] := by
  have hpath : Text.ofString "/" ≠ [] ∧ Path.isAbsolute "/" = true ∧ Path.segments "/" = [] := by
    decide
  simp [Disk.resolve, Disk.locate, hpath, Disk.maxLinks, Disk.walkTo, Disk.walk]

/-- A file in a directory at the top of a disk. -/
theorem readFile_below {d : Disk} {path a b t : Text} (hpath : path ≠ [])
    (hplace : d.locate path = [a, b])
    (hplain : ∀ s ∈ [a, b], (s == Path.here) = false ∧ (s == Path.up) = false)
    (ha : d.nodes.find? [a] = some .directory) (hb : d.nodes.find? [a, b] = some (.file t))
    (hreadable : d.isReadable [a, b] = true) : d.readFile path = .ok t := by
  have hresolve : d.resolve true path = .ok [a, b] := by
    simp [Disk.resolve, hpath, hplace, Disk.maxLinks, Disk.walkTo, Disk.walk, Disk.node?, hplain, ha, hb]
  simp [Disk.readFile, Disk.openAt, hresolve, Disk.node?, hb, hreadable, bind, Except.bind]

/-- The scan of the disk finds both classes and keeps both texts. -/
theorem scan_pairDisk :
    Catalog.scan pairDisk {} Budget.unlimited "/" = .ok (pairCatalog, pairCache) := by
  have hroot : TreeScan.validRoot pairDisk "/" = .ok "/" := by
    have hpath : (Blank.trim (Text.ofString "/")).isEmpty = false ∧
        Path.absolute pairDisk.workdir "/" = "/" := by
      decide
    simp [TreeScan.validRoot, hpath, Disk.nodeAt, resolve_top, Disk.node?, bind, Except.bind,
      Node.isDirectory]
  have hvisits : TreeScan.visits pairDisk ({} : ScanOptions).ignored "/" =
      [⟨"/", .directory⟩, ⟨"/m", .directory⟩, ⟨"/m/A.java", .file userText⟩,
        ⟨"/m/B.java", .file usedText⟩] := by
    unfold TreeScan.visits
    rw [resolve_top]
    rfl
  have hmodules : TreeScan.modules pairDisk ({} : ScanOptions).ignored "/" = pairCatalog.modules := by
    unfold TreeScan.modules
    rw [resolve_top]
    rfl
  have huser : pairDisk.readFile "/m/A.java" = .ok userText := by
    apply readFile_below (a := "m") (b := "A.java") <;> decide
  have hused : pairDisk.readFile "/m/B.java" = .ok usedText := by
    apply readFile_below (a := "m") (b := "B.java") <;> decide
  let start : TreeScan.Progress := ⟨UnitMap.empty, [], {}, TextCache.ofSize 4096⟩
  have hcollect : TreeScan.collect pairDisk "/" ".java"
      [⟨"/", .directory⟩, ⟨"/m", .directory⟩, ⟨"/m/A.java", .file userText⟩,
        ⟨"/m/B.java", .file usedText⟩] Budget.unlimited start =
      .ok (TreeScan.index pairDisk "/" ".java" "/m/B.java"
        (TreeScan.index pairDisk "/" ".java" "/m/A.java" start)) := rfl
  unfold Catalog.scan
  rw [hroot]
  dsimp only
  rw [hvisits, hmodules, hcollect]
  simp only [TreeScan.index, huser, hused]
  rfl

/-- The search for the two classes, whose simple names are words. -/
def pairExtractor : Extractor := (Extractor.of? pairCatalog).get rfl

/-- The build of the two classes within limits that leave no room to spare. -/
def pairBuild : Build := run pairExtractor pairDisk { limits := ⟨2, 1⟩ } Budget.unlimited 7 pairCache

end ClassAtlas.Build
