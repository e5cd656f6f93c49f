import ClassAtlas.Graph.Document
import ClassAtlas.Proofs.Graph.Views

namespace ClassAtlas

namespace ClassGraph

variable {g g' : ClassGraph}

/-- The classes of a graph, without their edges. -/
def units (g : ClassGraph) : SortedMap Text SourceUnit := g.nodes.map fun _ n => n.unit

/-- A class is found among the classes if it is found among the nodes. -/
theorem units_find? (g : ClassGraph) (name : Text) :
    g.units.find? name = (g.node? name).map (·.unit) :=
  SortedMap.find?_map ..

/-- The class of a node is found under the name of the node. -/
theorem units_of_node? {name : Text} {n : ClassNode} (h : g.node? name = some n) :
    g.units.find? name = some n.unit := by
  rw [units_find?, h, Option.map_some]

/-- The classes of the nodes are listed in the order of the classes. -/
theorem map_unit_nodeList (g : ClassGraph) : g.nodeList.map (·.unit) = g.units.values := by
  simp [nodeList, units, SortedMap.values, SortedMap.map]

/-- The module of a class depends on the classes only, not on their edges. -/
theorem moduleOf_eq (g : ClassGraph) (name : Text) :
    g.moduleOf name = ((g.units.find? name).map (·.module)).getD [] := by
  rw [units_find?, moduleOf]
  cases g.node? name <;> rfl

/-- The modules of a graph are those that were named and those of its classes. -/
theorem mem_modules_iff {m : Text} :
    m ∈ g.modules ↔ g.named.contains m = true ∨
      (m ≠ [] ∧ ∃ name u, g.units.find? name = some u ∧ u.module = m) := by
  have hmodule : ∀ m, m ∈ g.nodeList.map (·.unit.module) ↔
      ∃ name u, g.units.find? name = some u ∧ u.module = m := by
    intro m
    have hmap : g.nodeList.map (·.unit.module) = (g.nodeList.map (·.unit)).map (·.module) := by simp
    rw [hmap, map_unit_nodeList, List.mem_map]
    simp only [SortedMap.mem_values_iff]
    exact ⟨fun ⟨u, ⟨name, hu⟩, hm⟩ => ⟨name, u, hu, hm⟩,
      fun ⟨name, u, hu, hm⟩ => ⟨u, ⟨name, hu⟩, hm⟩⟩
  unfold modules
  rw [SortedMap.mem_keys_iff, SortedSet.contains_foldl_add, Bool.or_eq_true]
  simp only [decide_eq_true_eq, List.mem_filter, hmodule, Bool.not_eq_true',
    List.isEmpty_eq_false_iff]
  rw [and_comm]

/-- A well-formed graph has no module without a name. -/
theorem WellFormed.ne_nil_of_mem_modules (h : g.WellFormed) {m : Text} (hm : m ∈ g.modules) :
    m ≠ [] := by
  rcases mem_modules_iff.mp hm with hnamed | ⟨hne, -⟩
  · rintro rfl
    rw [h.named_nonempty] at hnamed
    contradiction
  · exact hne

/-- The modules depend only on those named and on the classes. -/
theorem modules_congr (hnamed : g.named = g'.named) (hunits : g.units = g'.units) :
    g.modules = g'.modules := by
  apply (SortedMap.increasingBy_keys _).eq_of_mem_iff (SortedMap.increasingBy_keys _)
  intro m
  exact mem_modules_iff.trans (by rw [hnamed, hunits]; exact mem_modules_iff.symm)

/-- Freezing changes no class. -/
@[simp] theorem freeze_units (g : ClassGraph) (now : Int) : (g.freeze now).units = g.units := by
  apply SortedMap.ext
  intro name
  simp only [units_find?, node?, freeze, SortedMap.find?_map, Option.map_map]
  rfl

/-- A link changes no class. -/
@[simp] theorem link_units (g : ClassGraph) (source target : Text) (rules : Rules) :
    (g.link source target rules).units = g.units := by
  apply SortedMap.ext
  intro name
  simp only [units_find?, node?, link_find?, Option.map_map]
  rfl

/-- The digest depends only on classes, edges and modules, not on the time or on the lists at the nodes. -/
theorem hash_congr (hunits : g.units = g'.units) (hedges : g.edgeList = g'.edgeList)
    (hmodules : g.modules = g'.modules) : g.hash = g'.hash := by
  have hlines : ∀ g : ClassGraph, g.nodeList.flatMap nodeLine = g.units.values.flatMap fun u =>
      nodeLine ⟨u, [], []⟩ := by
    intro g
    rw [← map_unit_nodeList, List.flatMap_map]
    rfl
  simp only [ClassGraph.hash, structureText, hlines, hunits, hedges, hmodules]

/-- The module graph depends only on classes, edges and modules. -/
theorem project_congr (hunits : g.units = g'.units) (hedges : g.edgeList = g'.edgeList)
    (hmodules : g.modules = g'.modules) : ModuleGraph.project g = ModuleGraph.project g' := by
  have hevidence : ModuleGraph.addEvidence g = ModuleGraph.addEvidence g' := by
    funext m e
    simp only [ModuleGraph.addEvidence, moduleOf_eq, hunits]
  simp only [ModuleGraph.project, hedges, hmodules, hevidence]

end ClassGraph

namespace GraphDocument

open ClassGraph

/-- What a document says about a graph. -/
theorem ofGraph_congr {g g' : ClassGraph} (hroot : g.root = g'.root)
    (hbuilt : g.builtAt = g'.builtAt) (hunits : g.units = g'.units)
    (hedges : g.edgeList = g'.edgeList) (hmodules : g.modules = g'.modules) :
    ofGraph g = ofGraph g' := by
  simp only [ofGraph, map_unit_nodeList, hroot, hbuilt, hunits, hedges, hmodules,
    hash_congr hunits hedges hmodules, project_congr hunits hedges hmodules]

/-- Modules can always be added to a graph that is not frozen. -/
theorem addModules_eq_ok (modules : List Text) {g : ClassGraph} (hfrozen : g.frozen = false) :
    addModules modules g =
      .ok { g with named := (modules.filter (!·.isEmpty)).foldl SortedSet.add g.named } := by
  induction modules generalizing g with
  | nil => rfl
  | cons m rest ih =>
    have hstep : ∀ g', g.addModule m = .ok g' → addModules (m :: rest) g = addModules rest g' := by
      intro g' hadd
      simp only [addModules, List.foldlM_cons, hadd]
      rfl
    by_cases hm : m = []
    · rw [hstep g (addModule_eq_ok_iff.mpr ⟨hfrozen, by simp [hm]⟩), ih hfrozen]
      simp [hm]
    · rw [hstep _ (addModule_eq_ok_iff.mpr ⟨hfrozen, if_neg hm⟩),
        ih (g := { g with named := SortedSet.add g.named m }) hfrozen]
      simp [hm]

/-- The nodes of a graph with more classes, which have no edges yet. -/
def placeAll (units : List SourceUnit) (nodes : SortedMap Text ClassNode) :
    SortedMap Text ClassNode :=
  units.foldl (fun nodes u => nodes.insert u.name ⟨u, [], []⟩) nodes

/-- Classes with new names of their own can be added as long as there is room. -/
theorem addNodes_eq_ok {units : List SourceUnit} {g : ClassGraph} (hfrozen : g.frozen = false)
    (hnew : ∀ u ∈ units, u.name ≠ [] ∧ g.nodes.find? u.name = none)
    (hnodup : (units.map (·.name)).Nodup)
    (hroom : (g.nodeCount + units.length : Int) ≤ g.limits.nodes) :
    addNodes units g = .ok { g with nodes := placeAll units g.nodes } := by
  induction units generalizing g with
  | nil => rfl
  | cons u rest ih =>
    rw [List.map_cons, List.nodup_cons] at hnodup
    rw [List.length_cons] at hroom
    obtain ⟨hname, hfresh⟩ := hnew u (List.mem_cons_self ..)
    have hadd : g.addNode u = .ok { g with nodes := g.nodes.insert u.name ⟨u, [], []⟩ } :=
      addNode_eq_ok_iff.mpr ⟨hfrozen, hname, hfresh, by omega, rfl⟩
    unfold addNodes
    rw [List.foldlM_cons, hadd]
    refine ih (g := { g with nodes := g.nodes.insert u.name ⟨u, [], []⟩ }) hfrozen ?_ hnodup.2 ?_
    · intro v hv
      obtain ⟨hv_name, hv_fresh⟩ := hnew v (List.mem_cons_of_mem _ hv)
      have hne : v.name ≠ u.name := fun heq => hnodup.1 (heq ▸ List.mem_map_of_mem hv)
      exact ⟨hv_name, by rw [SortedMap.find?_insert_of_ne _ hne, hv_fresh]⟩
    · simp only [nodeCount, SortedMap.size_insert_of_find?_eq_none hfresh] at hroom ⊢
      omega

/-- Of classes with different names each is found under its name, and every other name leads where it led
before. -/
theorem find?_placeAll {units : List SourceUnit} (hnodup : (units.map (·.name)).Nodup)
    (nodes : SortedMap Text ClassNode) (name : Text) :
    (placeAll units nodes).find? name =
      ((units.find? (·.name == name)).map (⟨·, [], []⟩)).or (nodes.find? name) := by
  induction units generalizing nodes with
  | nil => rfl
  | cons u rest ih =>
    rw [List.map_cons, List.nodup_cons] at hnodup
    unfold placeAll
    rw [List.foldl_cons]
    refine (ih hnodup.2 _).trans ?_
    by_cases hname : u.name = name
    · have hrest : rest.find? (·.name == name) = none := by
        rw [List.find?_eq_none]
        intro v hv heq
        exact hnodup.1 (hname.trans (eq_of_beq heq).symm ▸ List.mem_map_of_mem hv)
      subst hname
      simp [hrest]
    · rw [SortedMap.find?_insert_of_ne _ (Ne.symm hname)]
      simp [hname]

/-- The classes that were placed are there, and so are those from before. Here names may repeat. -/
theorem contains_placeAll (units : List SourceUnit) (nodes : SortedMap Text ClassNode)
    (name : Text) :
    (placeAll units nodes).contains name = true ↔
      name ∈ units.map (·.name) ∨ nodes.contains name = true := by
  induction units generalizing nodes with
  | nil => simp [placeAll]
  | cons u rest ih =>
    have hstep : placeAll (u :: rest) nodes = placeAll rest (nodes.insert u.name ⟨u, [], []⟩) := rfl
    rw [hstep, ih]
    simp only [SortedMap.contains_insert, List.map_cons, List.mem_cons, Bool.or_eq_true,
      decide_eq_true_eq]
    grind

/-- The graph with more edges, one after the other. -/
def linkAll (edges : List EdgeRecord) (g : ClassGraph) : ClassGraph :=
  edges.foldl (fun g e => g.link e.source e.target e.rules) g

/-- A link adds no class. -/
theorem link_contains (g : ClassGraph) (source target : Text) (rules : Rules) (name : Text) :
    (g.link source target rules).nodes.contains name = g.nodes.contains name := by
  unfold SortedMap.contains
  rw [link_find?, Option.isSome_map]

/-- New edges between different classes of a graph can be added as long as there is room. -/
theorem addEdges_eq_ok {edges : List EdgeRecord} {g : ClassGraph} (index : Nat)
    (hfrozen : g.frozen = false)
    (hends : ∀ e ∈ edges, e.source ≠ e.target ∧ g.nodes.contains e.source = true ∧
      g.nodes.contains e.target = true)
    (hnew : ∀ e ∈ edges, g.places.find? (e.source, e.target) = none)
    (hnodup : (edges.map fun e => (e.source, e.target)).Nodup)
    (hroom : (g.edgeCount + edges.length : Int) ≤ g.limits.edges) :
    addEdges index edges g = .ok (linkAll edges g) := by
  induction edges generalizing g index with
  | nil => rfl
  | cons e rest ih =>
    rw [List.map_cons, List.nodup_cons] at hnodup
    rw [List.length_cons] at hroom
    obtain ⟨hne, hsource, htarget⟩ := hends e (List.mem_cons_self ..)
    have hadd : g.addEdge e.source e.target e.rules = .ok (g.link e.source e.target e.rules) :=
      addEdge_eq_ok_iff.mpr ⟨hfrozen, hne, hsource, htarget,
        Or.inr ⟨hnew e (List.mem_cons_self ..), by omega, rfl⟩⟩
    rw [addEdges, hadd]
    refine ih (g := g.link e.source e.target e.rules) (index + 1) hfrozen ?_ ?_ hnodup.2 ?_
    · intro e' he'
      rw [link_contains, link_contains]
      exact hends e' (List.mem_cons_of_mem _ he')
    · intro e' he'
      have hkey : (e'.source, e'.target) ≠ (e.source, e.target) := by
        intro heq
        exact hnodup.1 (heq ▸ List.mem_map_of_mem (f := fun e => (e.source, e.target)) he')
      exact (SortedMap.find?_insert_of_ne _ hkey _).trans (hnew e' (List.mem_cons_of_mem _ he'))
    · simp only [edgeCount, link, Array.size_push] at hroom ⊢
      omega

/-- Edges that are added change nothing but the edges. -/
theorem linkAll_keeps (edges : List EdgeRecord) (g : ClassGraph) :
    (linkAll edges g).root = g.root ∧ (linkAll edges g).named = g.named ∧
      (linkAll edges g).units = g.units ∧
      (linkAll edges g).edges.toList =
        g.edges.toList ++ edges.map fun e => ⟨e.source, e.target, e.rules⟩ := by
  induction edges generalizing g with
  | nil => exact ⟨rfl, rfl, rfl, by simp [linkAll]⟩
  | cons e rest ih =>
    obtain ⟨hroot, hnamed, hunits, hedges⟩ := ih (g.link e.source e.target e.rules)
    refine ⟨hroot, hnamed, hunits.trans (link_units ..), hedges.trans ?_⟩
    simp [link]

/-- The graph that a document describes, before it is frozen. -/
def assembled (doc : GraphDocument) (limits : GraphLimits) : ClassGraph :=
  linkAll doc.edges
    { ClassGraph.new doc.root limits with
      named := (doc.modules.filter (!·.isEmpty)).foldl SortedSet.add SortedMap.empty
      nodes := placeAll doc.nodes SortedMap.empty }

/-- Classes and edges stand once in a document, and edges between two of its classes. -/
structure Consistent (doc : GraphDocument) : Prop where
  schema : doc.schema = currentSchema
  names : ∀ u ∈ doc.nodes, u.name ≠ []
  nodes : (doc.nodes.map (·.name)).Nodup
  ends : ∀ e ∈ doc.edges, e.source ≠ e.target ∧ e.source ∈ doc.nodes.map (·.name) ∧
    e.target ∈ doc.nodes.map (·.name)
  edges : (doc.edges.map fun e => (e.source, e.target)).Nodup

/-- A consistent document gives a graph if there is room for it. -/
theorem Consistent.toGraph_eq_ok {doc : GraphDocument} (h : doc.Consistent) {limits : GraphLimits}
    (hroom : (doc.nodes.length : Int) ≤ limits.nodes ∧ (doc.edges.length : Int) ≤ limits.edges) :
    doc.toGraph limits = .ok ((doc.assembled limits).freeze doc.builtAt) := by
  have hcontains : ∀ name ∈ doc.nodes.map (·.name),
      (placeAll doc.nodes SortedMap.empty).contains name = true :=
    fun name hname => (contains_placeAll doc.nodes SortedMap.empty name).mpr (Or.inl hname)
  let named : ClassGraph := { ClassGraph.new doc.root limits with
    named := (doc.modules.filter (!·.isEmpty)).foldl SortedSet.add SortedMap.empty }
  let peopled : ClassGraph := { named with nodes := placeAll doc.nodes SortedMap.empty }
  have hmodules : addModules doc.modules (ClassGraph.new doc.root limits) = .ok named :=
    addModules_eq_ok _ rfl
  have hpeople : addNodes doc.nodes named = .ok peopled := by
    refine addNodes_eq_ok rfl (fun u hu => ⟨h.names u hu, SortedMap.find?_empty _⟩) h.nodes ?_
    change (0 + doc.nodes.length : Int) ≤ limits.nodes
    omega
  have hlink : addEdges 0 doc.edges peopled = .ok (doc.assembled limits) := by
    refine addEdges_eq_ok 0 rfl ?_ (fun e _ => SortedMap.find?_empty _) h.edges ?_
    · intro e he
      obtain ⟨hne, hsource, htarget⟩ := h.ends e he
      exact ⟨hne, hcontains _ hsource, hcontains _ htarget⟩
    · change (0 + doc.edges.length : Int) ≤ limits.edges
      omega
  unfold toGraph
  simp only [h.schema, bne_self_eq_false, Bool.false_eq_true, if_false, bind, Except.bind, pure,
    Except.pure, hmodules, hpeople, hlink]

/-- Adding one thing after the other by calls that may fail leads from one reachable graph to
another. -/
theorem foldlM_reachable {α : Type} (call : α → GraphCall) (fault : α → GraphError → DocumentError)
    {xs : List α} {g g' : ClassGraph} (h : g.Reachable)
    (hfold : xs.foldlM (fun g x => ((call x).answer g).mapError (fault x)) g = .ok g') :
    g'.Reachable := by
  induction xs generalizing g with
  | nil => exact Except.ok.inj hfold ▸ h
  | cons x rest ih =>
    rw [List.foldlM_cons] at hfold
    cases hx : (call x).answer g with
    | error e => simp [hx, Except.mapError, bind, Except.bind] at hfold
    | ok g₁ =>
      rw [hx] at hfold
      exact ih (h.of_answer (call x) hx) hfold

/-- Adding the edges of a document leads to a reachable graph, if none is refused. -/
theorem addEdges_reachable {edges : List EdgeRecord} {index : Nat} {g g' : ClassGraph}
    (h : g.Reachable) (hadd : addEdges index edges g = .ok g') : g'.Reachable := by
  induction edges generalizing g index with
  | nil => exact Except.ok.inj hadd ▸ h
  | cons e rest ih =>
    rw [addEdges] at hadd
    split at hadd
    · contradiction
    · next g₁ he => exact ih (h.of_answer (.addEdge e.source e.target e.rules) he) hadd

/-- Reading a document takes nothing but calls that build up a graph. -/
theorem toGraph_reachable {doc : GraphDocument} {limits : GraphLimits} {g : ClassGraph}
    (h : doc.toGraph limits = .ok g) : g.Reachable := by
  unfold toGraph at h
  by_cases hschema : doc.schema = currentSchema
  · simp only [hschema, bne_self_eq_false, Bool.false_eq_true, if_false, bind, Except.bind, pure,
      Except.pure] at h
    cases hmodules : addModules doc.modules (ClassGraph.new doc.root limits) with
    | error e => simp [hmodules] at h
    | ok named =>
      simp only [hmodules] at h
      cases hnodes : addNodes doc.nodes named with
      | error e => simp [hnodes] at h
      | ok peopled =>
        simp only [hnodes] at h
        cases hedges : addEdges 0 doc.edges peopled with
        | error e => simp [hedges] at h
        | ok linked =>
          simp only [hedges, Except.ok.injEq] at h
          subst h
          have hnew : (ClassGraph.new doc.root limits).Reachable := ⟨doc.root, limits, [], rfl⟩
          have hnamed : named.Reachable := foldlM_reachable .addModule .addingModule hnew hmodules
          have hpeopled : peopled.Reachable :=
            foldlM_reachable .addNode (.addingNode ·.name) hnamed hnodes
          exact (addEdges_reachable hpeopled hedges).of_answer (.freeze doc.builtAt) rfl
  · have hne : (doc.schema != currentSchema) = true := by simpa using hschema
    simp [hne, throw, throwThe, MonadExceptOf.throw, bind, Except.bind] at h

/-- A frozen graph shows all that a graph shows. -/
structure Restores (g g' : ClassGraph) : Prop where
  frozen : g'.frozen = true
  root : g'.root = g.root
  builtAt : g'.builtAt = g.builtAt
  unit : ∀ name, (g'.node? name).map (·.unit) = (g.node? name).map (·.unit)
  edgeList : g'.edgeList = g.edgeList
  modules : g'.modules = g.modules
  document : ofGraph g' = ofGraph g

/-- The document of a graph lists the classes of all nodes. -/
theorem mem_ofGraph_nodes {g : ClassGraph} {u : SourceUnit} :
    u ∈ (ofGraph g).nodes ↔ ∃ name n, g.node? name = some n ∧ n.unit = u := by
  simp only [ofGraph, nodeList, List.mem_map, SortedMap.mem_values_iff]
  exact ⟨fun ⟨n, ⟨name, hn⟩, hu⟩ => ⟨name, n, hn, hu⟩, fun ⟨name, n, hn, hu⟩ => ⟨n, ⟨name, hn⟩, hu⟩⟩

/-- In the document of a graph the classes stand in order. -/
theorem increasingBy_ofGraph_nodes {g : ClassGraph} (h : g.WellFormed) :
    IncreasingBy (·.name) (ofGraph g).nodes := by
  change IncreasingBy (·.name) (g.nodeList.map (·.unit))
  rw [map_unit_nodeList]
  refine SortedMap.increasingBy_values ?_
  intro name u hu
  rw [units_find?, Option.map_eq_some_iff] at hu
  obtain ⟨n, hn, rfl⟩ := hu
  exact (h.node_name hn).1

/-- The document of a well-formed graph gives back its classes, whatever the limits. -/
theorem assembled_units {g : ClassGraph} (h : g.WellFormed) (limits : GraphLimits) :
    ((ofGraph g).assembled limits).units = g.units := by
  have hnodup := (increasingBy_ofGraph_nodes h).nodup_map
  rw [assembled, (linkAll_keeps _ _).2.2.1]
  apply SortedMap.ext
  intro name
  rw [units_find?, units_find?]
  change ((placeAll (ofGraph g).nodes SortedMap.empty).find? name).map (·.unit) = _
  rw [find?_placeAll hnodup, SortedMap.find?_empty, Option.or_none, Option.map_map]
  cases hn : g.node? name with
  | none =>
    have hnone : (ofGraph g).nodes.find? (·.name == name) = none := by
      rw [List.find?_eq_none]
      intro u hu heq
      obtain ⟨name', n, hn', rfl⟩ := mem_ofGraph_nodes.mp hu
      rw [← (h.node_name hn').1, eq_of_beq heq, hn] at hn'
      contradiction
    simp [hnone]
  | some n =>
    have hname : n.unit.name = name := (h.node_name hn).1
    have hfound : ((ofGraph g).nodes.find? (·.name == name)).isSome = true :=
      List.find?_isSome.mpr ⟨n.unit, mem_ofGraph_nodes.mpr ⟨name, n, hn, rfl⟩, by simp [hname]⟩
    obtain ⟨u, hu⟩ := Option.isSome_iff_exists.mp hfound
    have hsame : u = n.unit := by
      apply (increasingBy_ofGraph_nodes h).eq_of_key_eq (List.mem_of_find?_eq_some hu)
        (mem_ofGraph_nodes.mpr ⟨name, n, hn, rfl⟩)
      rw [hname]
      simpa using List.find?_some hu
    simp [hu, hsame]

/-- The document of a well-formed graph gives back its edges in their order. -/
theorem assembled_edgeList {g : ClassGraph} (h : g.WellFormed) (limits : GraphLimits) :
    ((ofGraph g).assembled limits).edgeList = g.edgeList := by
  have hedges : ((ofGraph g).assembled limits).edges.toList = g.edgeList := by
    rw [assembled, (linkAll_keeps _ _).2.2.2]
    simp [ofGraph, ClassGraph.new, Function.comp_def]
  change sortBy ClassEdge.ends ((ofGraph g).assembled limits).edges.toList = _
  rw [hedges, sortBy_eq_self h.increasingBy_edgeList]

/-- The modules of the document are named, and the others are those of classes in both graphs. -/
theorem assembled_modules {g : ClassGraph} (h : g.WellFormed) (limits : GraphLimits) :
    ((ofGraph g).assembled limits).modules = g.modules := by
  apply (SortedMap.increasingBy_keys _).eq_of_mem_iff (SortedMap.increasingBy_keys _)
  intro m
  change m ∈ ((ofGraph g).assembled limits).modules ↔ m ∈ g.modules
  have hnamed : ((ofGraph g).assembled limits).named.contains m = true ↔ m ∈ g.modules := by
    rw [assembled, (linkAll_keeps _ _).2.1, SortedSet.contains_foldl_add]
    simp only [Bool.or_eq_true, decide_eq_true_eq, List.mem_filter, ofGraph]
    constructor
    · rintro (hempty | ⟨hm, -⟩)
      · simp [SortedMap.contains] at hempty
      · exact hm
    · intro hm
      exact Or.inr ⟨hm, by simpa using h.ne_nil_of_mem_modules hm⟩
  rw [mem_modules_iff, hnamed, assembled_units h]
  constructor
  · rintro (hm | hm)
    · exact hm
    · exact mem_modules_iff.mpr (Or.inr hm)
  · exact Or.inl

/-- The document of a well-formed graph is consistent. -/
theorem consistent_ofGraph {g : ClassGraph} (h : g.WellFormed) : (ofGraph g).Consistent := by
  have hname : ∀ {name}, (∃ n, g.node? name = some n) → name ∈ (ofGraph g).nodes.map (·.name) := by
    rintro name ⟨n, hn⟩
    exact List.mem_map.mpr ⟨n.unit, mem_ofGraph_nodes.mpr ⟨name, n, hn, rfl⟩, (h.node_name hn).1⟩
  constructor
  case schema => rfl
  case names =>
    intro u hu
    obtain ⟨name, n, hn, rfl⟩ := mem_ofGraph_nodes.mp hu
    obtain ⟨hunit, hne⟩ := h.node_name hn
    rwa [hunit]
  case nodes => exact (increasingBy_ofGraph_nodes h).nodup_map
  case ends =>
    intro r hr
    obtain ⟨e, he, rfl⟩ := List.mem_map.mp hr
    have hmem := mem_edgeList.mp he
    obtain ⟨place, hplace⟩ := Array.mem_iff_getElem?.mp hmem
    exact ⟨(h.ends hplace).1, hname (h.node_of_mem hmem).1, hname (h.node_of_mem hmem).2⟩
  case edges =>
    have hnodup : (g.edgeList.map fun e => (e.source, e.target)).Nodup :=
      h.increasingBy_edgeList.nodup_map
    simpa [ofGraph, Function.comp_def] using hnodup

/-- The document of a graph has as many classes and edges as the graph. The graph need not be well-formed. -/
theorem length_ofGraph (g : ClassGraph) :
    (ofGraph g).nodes.length = g.nodeCount ∧ (ofGraph g).edges.length = g.edgeCount := by
  simp [ofGraph, length_edgeList, nodeCount, nodeList, SortedMap.values, SortedMap.size]

/-- The document of a graph is accepted where there is room for it. -/
theorem toGraph_ofGraph_eq_ok {g : ClassGraph} (h : g.WellFormed) {limits : GraphLimits}
    (hnodes : (g.nodeCount : Int) ≤ limits.nodes) (hedges : (g.edgeCount : Int) ≤ limits.edges) :
    (ofGraph g).toGraph limits = .ok (((ofGraph g).assembled limits).freeze g.builtAt) := by
  apply (consistent_ofGraph h).toGraph_eq_ok
  rw [(length_ofGraph g).1, (length_ofGraph g).2]
  exact ⟨hnodes, hedges⟩

/-- The document of a well-formed graph restores it, frozen with its time. -/
theorem restores_assembled {g : ClassGraph} (h : g.WellFormed) (limits : GraphLimits) :
    Restores g (((ofGraph g).assembled limits).freeze g.builtAt) := by
  have hunits : (((ofGraph g).assembled limits).freeze g.builtAt).units = g.units := by
    rw [freeze_units, assembled_units h]
  have hmodules : (((ofGraph g).assembled limits).freeze g.builtAt).modules = g.modules := by
    rw [← assembled_modules h limits]
    exact modules_congr rfl (freeze_units _ _)
  have hroot : ((ofGraph g).assembled limits).root = g.root := (linkAll_keeps _ _).1
  refine ⟨rfl, hroot, rfl, ?_, assembled_edgeList h limits, hmodules, ?_⟩
  · intro name
    have hfind := congrArg (·.find? name) hunits
    simpa only [units_find?] using hfind
  · exact ofGraph_congr hroot rfl hunits (assembled_edgeList h limits) hmodules

/-- Writing a graph and reading it back succeeds within limits that leave room for it, and gives a
frozen graph that shows the same and has the same document. -/
theorem toGraph_ofGraph {g : ClassGraph} (hg : g.Reachable) {limits : GraphLimits}
    (hnodes : (g.nodeCount : Int) ≤ limits.nodes) (hedges : (g.edgeCount : Int) ≤ limits.edges) :
    ∃ g', (ofGraph g).toGraph limits = .ok g' ∧ g'.Reachable ∧ Restores g g' := by
  have hread := toGraph_ofGraph_eq_ok hg.wellFormed hnodes hedges
  exact ⟨_, hread, toGraph_reachable hread, restores_assembled hg.wellFormed limits⟩

/-- A graph under construction, with a module that has no classes and rules beyond the known
ones. -/
def unfinishedGraph : ClassGraph :=
  (ClassGraph.new "/p" ⟨9, 9⟩).runCalls [
    .addModule "z", .addModule [],
    .addNode ⟨"b.B", "b", "/p/B", "m"⟩, .addNode ⟨"a.A", "a", "/p/A", "k"⟩,
    .addEdge "b.B" "a.A" ⟨1⟩, .addEdge "b.B" "a.A" ⟨128⟩, .addEdge "a.A" "b.B" ⟨2⟩,
    .addEdge "a.A" "a.A" ⟨1⟩]

/-- Limits without any room to spare are wide enough. -/
theorem toGraph_ofGraph_unfinishedGraph :
    unfinishedGraph.Reachable ∧ (unfinishedGraph.nodeCount : Int) ≤ 2 ∧
      (unfinishedGraph.edgeCount : Int) ≤ 2 ∧
      ∃ g', (ofGraph unfinishedGraph).toGraph ⟨2, 2⟩ = .ok g' ∧ g'.Reachable ∧
        Restores unfinishedGraph g' := by
  have hreach : unfinishedGraph.Reachable := ⟨_, _, _, rfl⟩
  have hcounts : (unfinishedGraph.nodeCount : Int) ≤ 2 ∧ (unfinishedGraph.edgeCount : Int) ≤ 2 := by
    decide
  exact ⟨hreach, hcounts.1, hcounts.2,
    @toGraph_ofGraph unfinishedGraph hreach ⟨2, 2⟩ hcounts.1 hcounts.2⟩

end GraphDocument

end ClassAtlas
