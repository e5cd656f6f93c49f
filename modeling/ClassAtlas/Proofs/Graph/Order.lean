import ClassAtlas.Proofs.Graph.Runs

namespace ClassAtlas.ClassGraph

variable {g g' : ClassGraph}

/-- From one class, the edges of the list stand by their targets. -/
theorem WellFormed.increasingBy_target_filter (h : g.WellFormed) (name : Text) :
    IncreasingBy (·.target) (g.edgeList.filter (·.source == name)) := by
  apply IncreasingBy.of_same_fst (h.increasingBy_edgeList.filter _)
  intro e he
  exact eq_of_beq (List.mem_filter.mp he).2

/-- To one class, the edges of the list stand by their sources. -/
theorem WellFormed.increasingBy_source_filter (h : g.WellFormed) (name : Text) :
    IncreasingBy (·.source) (g.edgeList.filter (·.target == name)) := by
  apply IncreasingBy.of_same_snd (h.increasingBy_edgeList.filter _)
  intro e he
  exact eq_of_beq (List.mem_filter.mp he).2

/-- The edges that leave a node are those of the list that start there, in some order. -/
theorem WellFormed.edgesOut_perm_filter (h : g.WellFormed) {name : Text} {n : ClassNode}
    (hn : g.node? name = some n) :
    (g.edgesOut n).Perm (g.edgeList.filter (·.source == name)) :=
  (h.edgesOut_perm hn).trans ((sortBy_perm _ _).filter _).symm

/-- The edges that enter a node are those of the list that end there, in some order. -/
theorem WellFormed.edgesIn_perm_filter (h : g.WellFormed) {name : Text} {n : ClassNode}
    (hn : g.node? name = some n) :
    (g.edgesIn n).Perm (g.edgeList.filter (·.target == name)) :=
  (h.edgesIn_perm hn).trans ((sortBy_perm _ _).filter _).symm

/-- The dependencies of a class can be read off the list of edges. The graph need not be frozen. -/
theorem WellFormed.dependencies?_eq (h : g.WellFormed) (name : Text) :
    g.dependencies? name = (g.units.find? name).map fun _ =>
      (g.edgeList.filter (·.source == name)).map (·.target) := by
  rw [units_find?, dependencies?]
  cases hn : g.node? name with
  | none => rfl
  | some n =>
    simp only [Option.map_some, Option.some.injEq]
    apply sortBy_eq_of_perm ((h.edgesOut_perm_filter hn).map _)
    exact IncreasingBy.map (h.increasingBy_target_filter name)

/-- The dependents of a class can be read off the list of edges. The graph need not be frozen. -/
theorem WellFormed.dependents?_eq (h : g.WellFormed) (name : Text) :
    g.dependents? name = (g.units.find? name).map fun _ =>
      (g.edgeList.filter (·.target == name)).map (·.source) := by
  rw [units_find?, dependents?]
  cases hn : g.node? name with
  | none => rfl
  | some n =>
    simp only [Option.map_some, Option.some.injEq]
    apply sortBy_eq_of_perm ((h.edgesIn_perm_filter hn).map _)
    exact IncreasingBy.map (h.increasingBy_source_filter name)

/-- The classes of a module are listed in the order of their names. -/
theorem classesIn_eq (g : ClassGraph) (module : Text) :
    g.classesIn module = (g.units.values.filter (·.module == module)).map (·.name) := by
  rw [← map_unit_nodeList, List.filter_map, List.map_map]
  rfl

/-- A class as a node shows it: with the edges that leave it and those that reach it. -/
def shown? (g : ClassGraph) (name : Text) : Option (SourceUnit × List ClassEdge × List ClassEdge) :=
  (g.node? name).map fun n => (n.unit, g.edgesOut n, g.edgesIn n)

/-- The nodes of a frozen graph show the edges in the order of the list of all edges. -/
theorem WellFormed.shown?_eq (h : g.WellFormed) (hfrozen : g.frozen = true) (name : Text) :
    g.shown? name = (g.units.find? name).map fun u =>
      (u, g.edgeList.filter (·.source == name), g.edgeList.filter (·.target == name)) := by
  rw [units_find?, shown?]
  cases hn : g.node? name with
  | none => rfl
  | some n =>
    have hout : g.edgesOut n = g.edgeList.filter (·.source == name) :=
      (h.increasingBy_edgesOut hfrozen hn).eq_of_mem_iff (h.increasingBy_target_filter name)
        fun e => (h.edgesOut_perm_filter hn).mem_iff
    have hin : g.edgesIn n = g.edgeList.filter (·.target == name) :=
      (h.increasingBy_edgesIn hfrozen hn).eq_of_mem_iff (h.increasingBy_source_filter name)
        fun e => (h.edgesIn_perm_filter hn).mem_iff
    simp [hout, hin]

/-- Nothing that two graphs show tells them apart, but for the order in which the nodes of a graph
that is not frozen hold their edges. -/
structure Alike (g g' : ClassGraph) : Prop where
  nodes : g.nodeList.map (·.unit) = g'.nodeList.map (·.unit)
  unit : ∀ name, (g.node? name).map (·.unit) = (g'.node? name).map (·.unit)
  edgeList : g.edgeList = g'.edgeList
  modules : g.modules = g'.modules
  classesIn : ∀ module, g.classesIn module = g'.classesIn module
  dependencies : ∀ name, g.dependencies? name = g'.dependencies? name
  dependents : ∀ name, g.dependents? name = g'.dependents? name
  hasEdge : ∀ source target, g.hasEdge source target = g'.hasEdge source target
  hash : g.hash = g'.hash
  project : ModuleGraph.project g = ModuleGraph.project g'
  document : g.builtAt = g'.builtAt → GraphDocument.ofGraph g = GraphDocument.ofGraph g'
  frozen : g.frozen = true → g'.frozen = true → ∀ name, g.shown? name = g'.shown? name
  /-- The graphs may be frozen at different times. -/
  freeze : ∀ now now' name, (g.freeze now).shown? name = (g'.freeze now').shown? name

/-- Graphs with the same root, classes, edges and modules are alike. Their limits and times may differ. -/
theorem WellFormed.alike (h : g.WellFormed) (h' : g'.WellFormed) (hroot : g.root = g'.root)
    (hunits : g.units = g'.units) (hedges : g.edgeList = g'.edgeList)
    (hmodules : g.modules = g'.modules) : g.Alike g' := by
  constructor
  case nodes => rw [map_unit_nodeList, map_unit_nodeList, hunits]
  case unit =>
    intro name
    rw [← units_find?, ← units_find?, hunits]
  case edgeList => exact hedges
  case modules => exact hmodules
  case classesIn =>
    intro module
    rw [classesIn_eq, classesIn_eq, hunits]
  case dependencies =>
    intro name
    rw [h.dependencies?_eq, h'.dependencies?_eq, hunits, hedges]
  case dependents =>
    intro name
    rw [h.dependents?_eq, h'.dependents?_eq, hunits, hedges]
  case hasEdge =>
    intro source target
    rw [Bool.eq_iff_iff, h.hasEdge_iff, h'.hasEdge_iff]
    simp only [← mem_edgeList, hedges]
  case hash => exact hash_congr hunits hedges hmodules
  case project => exact project_congr hunits hedges hmodules
  case document =>
    intro hbuilt
    exact GraphDocument.ofGraph_congr hroot hbuilt hunits hedges hmodules
  case frozen =>
    intro hfrozen hfrozen' name
    rw [h.shown?_eq hfrozen, h'.shown?_eq hfrozen', hunits, hedges]
  case freeze =>
    intro now now' name
    have hlist : (g.freeze now).edgeList = (g'.freeze now').edgeList := hedges
    rw [(h.freeze now).shown?_eq rfl, (h'.freeze now').shown?_eq rfl, freeze_units, freeze_units,
      hunits, hlist]

/-- An edge is found by its ends, with its rules. -/
theorem WellFormed.mem_edges_iff (h : g.WellFormed) {e : ClassEdge} :
    e ∈ g.edges ↔ (g.edge? e.source e.target).map (·.rules) = some e.rules := by
  rw [Option.map_eq_some_iff]
  constructor
  · intro he
    exact ⟨e, h.edge?_eq_some_iff.mpr ⟨he, rfl⟩, rfl⟩
  · rintro ⟨d, hd, hsame⟩
    obtain ⟨hmem, hends⟩ := h.edge?_eq_some_iff.mp hd
    obtain ⟨hsource, htarget⟩ := Prod.mk.inj hends
    have heq : d = e := by
      cases d
      cases e
      simp_all
    exact heq ▸ hmem

/-- Edges are found where calls gave them, with the rules of all of these calls. -/
theorem Given.mem_edges_iff {calls : List GraphCall} (hgiven : g.Given calls) (h : g.WellFormed)
    {e : ClassEdge} : e ∈ g.edges ↔ rulesGiven calls e.source e.target = some e.rules := by
  have hrules : (g.edge? e.source e.target).map (·.rules) = rulesGiven calls e.source e.target :=
    hgiven.recorded e.source e.target
  rw [h.mem_edges_iff, hrules]

/-- Two runs without failures that give the same classes, the same modules and the same rules to
every edge end in graphs that show the same, whatever the order of the calls, however often an edge
or a module is given and whatever the limits. -/
theorem perform_order_irrelevant {root : Text} {limits limits' : GraphLimits}
    {calls calls' : List GraphCall}
    (hrun : (new root limits).perform calls = .ok g)
    (hrun' : (new root limits').perform calls' = .ok g')
    (hunits : ∀ u, .addNode u ∈ calls ↔ .addNode u ∈ calls')
    (hmodules : ∀ m, m ≠ [] → (.addModule m ∈ calls ↔ .addModule m ∈ calls'))
    (hrules : ∀ source target, rulesGiven calls source target = rulesGiven calls' source target) :
    g.Alike g' := by
  obtain ⟨h, hgiven, hroot⟩ := given_of_perform hrun
  obtain ⟨h', hgiven', hroot'⟩ := given_of_perform hrun'
  have hsameUnits : g.units = g'.units := by
    apply SortedMap.ext
    intro name
    apply Option.ext
    intro u
    rw [hgiven.unit_iff, hgiven'.unit_iff, hunits]
  have hsameEdges : g.edgeList = g'.edgeList := by
    apply h.increasingBy_edgeList.eq_of_mem_iff h'.increasingBy_edgeList
    intro e
    rw [mem_edgeList, mem_edgeList, hgiven.mem_edges_iff h, hgiven'.mem_edges_iff h', hrules]
  have hsameModules : g.modules = g'.modules := by
    apply (SortedMap.increasingBy_keys _).eq_of_mem_iff (SortedMap.increasingBy_keys _)
    intro m
    refine mem_modules_iff.trans (Iff.trans ?_ mem_modules_iff.symm)
    rw [hgiven.named_iff, hgiven'.named_iff, hsameUnits, and_congr_left (hmodules m)]
  exact h.alike h' (hroot.trans hroot'.symm) hsameUnits hsameEdges hsameModules

/-- No rules are given between two classes exactly if no call adds an edge there. -/
theorem rulesGiven_eq_none_iff {calls : List GraphCall} {source target : Text} :
    rulesGiven calls source target = none ↔ ∀ rules, .addEdge source target rules ∉ calls := by
  have hempty : rulesGiven calls source target = none ↔
      rulesBetween (calls.filterMap GraphCall.edge?) source target = [] := by
    simp [rulesGiven]
  rw [hempty, rulesBetween, List.map_eq_nil_iff, List.filter_eq_nil_iff]
  constructor
  · intro hnone rules hcall
    have hedge := hnone ⟨source, target, rules⟩ (List.mem_filterMap.mpr ⟨_, hcall, rfl⟩)
    simp at hedge
  · intro hnone e he hends
    simp only [Bool.and_eq_true, beq_iff_eq] at hends
    obtain ⟨call, hcall, hedge⟩ := List.mem_filterMap.mp he
    cases call with
    | addEdge source' target' rules =>
      obtain rfl := Option.some.inj hedge
      obtain ⟨rfl, rfl⟩ := hends
      exact hnone rules hcall
    | addNode u => contradiction
    | addModule name => contradiction
    | freeze now => contradiction

/-- Two classes that depend on each other, within limits that leave no room to spare. -/
def orderlyCalls : List GraphCall := [
  .addModule "z", .addNode ⟨"a.A", "a", "/p/A", "m"⟩, .addNode ⟨"b.B", "b", "/p/B", "k"⟩,
  .addEdge "a.A" "b.B" ⟨5⟩, .addEdge "b.B" "a.A" ⟨2⟩, .freeze 7]

/-- The same in another order, with one edge given in two parts and a module given three times. -/
def shuffledCalls : List GraphCall := [
  .addNode ⟨"b.B", "b", "/p/B", "k"⟩, .addModule "z", .addModule [],
  .addNode ⟨"a.A", "a", "/p/A", "m"⟩, .addEdge "b.B" "a.A" ⟨2⟩, .addModule "z",
  .addEdge "a.A" "b.B" ⟨4⟩, .addModule "z", .addEdge "a.A" "b.B" ⟨1⟩]

/-- Calls that succeed give a graph. -/
theorem exists_perform_eq_ok {calls : List GraphCall} (h : (g.perform calls).isOk = true) :
    ∃ g', g.perform calls = .ok g' := by
  cases hrun : g.perform calls with
  | error e => simp [hrun, Except.isOk, Except.toBool] at h
  | ok g' => exact ⟨g', rfl⟩

/-- The two orders give graphs that are alike, with limits of their own. -/
theorem perform_order_irrelevant_shuffled :
    ∃ g g', (new "/p" ⟨2, 2⟩).perform orderlyCalls = .ok g ∧
      (new "/p" ⟨9, 9⟩).perform shuffledCalls = .ok g' ∧
      (∀ u, .addNode u ∈ orderlyCalls ↔ .addNode u ∈ shuffledCalls) ∧
      (∀ m, m ≠ [] → (.addModule m ∈ orderlyCalls ↔ .addModule m ∈ shuffledCalls)) ∧
      (∀ source target,
        rulesGiven orderlyCalls source target = rulesGiven shuffledCalls source target) ∧
      g.Alike g' := by
  obtain ⟨g, hrun⟩ := exists_perform_eq_ok
    (by decide : ((new "/p" ⟨2, 2⟩).perform orderlyCalls).isOk = true)
  obtain ⟨g', hrun'⟩ := exists_perform_eq_ok
    (by decide : ((new "/p" ⟨9, 9⟩).perform shuffledCalls).isOk = true)
  have hunits : ∀ u, .addNode u ∈ orderlyCalls ↔ .addNode u ∈ shuffledCalls := by
    intro u
    simp only [orderlyCalls, shuffledCalls, List.mem_cons, List.not_mem_nil, reduceCtorEq,
      false_or, or_false]
    exact or_comm
  have hmodules : ∀ m, m ≠ [] → (.addModule m ∈ orderlyCalls ↔ .addModule m ∈ shuffledCalls) := by
    intro m hm
    simp [orderlyCalls, shuffledCalls, hm]
  have hrules : ∀ source target,
      rulesGiven orderlyCalls source target = rulesGiven shuffledCalls source target := by
    intro source target
    by_cases hforth : source = Text.ofString "a.A" ∧ target = Text.ofString "b.B"
    · obtain ⟨rfl, rfl⟩ := hforth
      decide
    by_cases hback : source = Text.ofString "b.B" ∧ target = Text.ofString "a.A"
    · obtain ⟨rfl, rfl⟩ := hback
      decide
    have horderly : rulesGiven orderlyCalls source target = none := by
      rw [rulesGiven_eq_none_iff]
      intro rules
      simp only [orderlyCalls, List.mem_cons, List.not_mem_nil, reduceCtorEq,
        GraphCall.addEdge.injEq]
      tauto
    have hshuffled : rulesGiven shuffledCalls source target = none := by
      rw [rulesGiven_eq_none_iff]
      intro rules
      simp only [shuffledCalls, List.mem_cons, List.not_mem_nil, reduceCtorEq,
        GraphCall.addEdge.injEq]
      tauto
    rw [horderly, hshuffled]
  exact ⟨g, g', hrun, hrun', hunits, hmodules, hrules,
    perform_order_irrelevant hrun hrun' hunits hmodules hrules⟩

end ClassAtlas.ClassGraph
