import ClassAtlas.Graph.Build
import ClassAtlas.Proofs.Catalog.Scan
import ClassAtlas.Proofs.Dependency.Extract
import ClassAtlas.Proofs.Graph.Runs
import Mathlib.Data.Set.Card

namespace ClassAtlas.Build

open ClassGraph GraphDocument

variable {x : Extractor} {d : Disk} {b b' : Build}

section

variable {P : ClassGraph → Prop}
  (hcall : ∀ call g g', (∀ u, call = .addNode u → u ∈ x.list) → P g →
    GraphCall.answer g call = .ok g' → P g')

include hcall

/-- What every graph operation preserves is preserved when modules are added, whether or not one of them
is refused. -/
theorem addModules_preserves {modules : List Text} (h : P b.graph) :
    P (addModules modules b).graph := by
  induction modules generalizing b with
  | nil => exact h
  | cons m rest ih =>
    rw [addModules]
    split
    · exact h
    · next g hadd => exact ih (hcall (.addModule m) _ _ nofun h hadd)

/-- What every graph operation preserves is preserved when classes of the catalog are added. -/
theorem addClasses_preserves {units : List SourceUnit} (hunits : ∀ u ∈ units, u ∈ x.list)
    (h : P b.graph) : P (addClasses units b).graph := by
  induction units generalizing b with
  | nil => exact h
  | cons u rest ih =>
    rw [List.forall_mem_cons] at hunits
    rw [addClasses]
    split
    · exact h
    · next g hadd =>
      apply ih hunits.2
      apply hcall (.addNode u) _ _ _ h hadd
      intro v hv
      exact GraphCall.addNode.inj hv ▸ hunits.1

/-- What every graph operation preserves is preserved when the dependencies of a class are added. -/
theorem addDependencies_preserves {source : Text} {deps : List Dependency} (h : P b.graph) :
    P (addDependencies source deps b).graph := by
  induction deps generalizing b with
  | nil => exact h
  | cons dep rest ih =>
    rw [addDependencies]
    split
    · exact h
    · next g hadd => exact ih (hcall (.addEdge source dep.target dep.rules) _ _ nofun h hadd)

omit hcall in
/-- A next step that is not taken, since the build has failed, preserves everything. -/
theorem andThen_preserves {next : Build → Build} (h : P b.graph)
    (hnext : P b.graph → P (next b).graph) : P (b.andThen next).graph := by
  unfold andThen
  split
  · exact h
  · exact hnext h

/-- What every graph operation preserves is preserved when a class is dealt with, even if its text cannot
be read. -/
theorem extractClass_preserves {every total done : Nat} {name : Text} (h : P b.graph) :
    P (extractClass x d every total done name b).graph := by
  unfold extractClass
  split
  · exact h
  · refine andThen_preserves (addDependencies_preserves hcall h) ?_
    intro hadded
    unfold finishClass
    dsimp only
    split
    · exact hadded
    · exact hadded

/-- What every graph operation preserves is preserved when classes are dealt with one after the other,
wherever the checks stop this. -/
theorem extractEdges_preserves {every total done : Nat} {names : List Text} {budget : Budget}
    (h : P b.graph) : P (extractEdges x d every total done names budget b).graph := by
  induction names generalizing done budget b with
  | nil => exact h
  | cons name rest ih =>
    rw [extractEdges]
    split
    · exact h
    · exact andThen_preserves (extractClass_preserves hcall h) ih

/-- A build does nothing to its graph but calls that build it up, and the classes that it adds are
those of the catalog. -/
theorem run_induction {options : BuildOptions} {budget : Budget} {now : Int} {cache : TextCache}
    (hnew : P (ClassGraph.new x.root options.limits)) :
    P (run x d options budget now cache).graph := by
  refine andThen_preserves (andThen_preserves (andThen_preserves ?_ ?_) ?_) ?_
  · exact addModules_preserves hcall hnew
  · exact addClasses_preserves hcall fun _ hu => hu
  · intro h
    exact extractEdges_preserves hcall h
  · intro h
    exact hcall (.freeze now) _ _ nofun h rfl

end

/-- Every build, failed or not, leaves a graph that the operations on graphs lead to. -/
theorem run_reachable (x : Extractor) (d : Disk) (options : BuildOptions) (budget : Budget) (now : Int)
    (cache : TextCache) : (run x d options budget now cache).graph.Reachable := by
  have hnew : (ClassGraph.new x.root options.limits).Reachable := ⟨_, _, [], rfl⟩
  exact run_induction (fun call _ _ _ h hcall => h.of_answer call hcall) hnew

/-- A build never changes the root of the graph. -/
theorem run_root (x : Extractor) (d : Disk) (options : BuildOptions) (budget : Budget) (now : Int)
    (cache : TextCache) : (run x d options budget now cache).graph.root = x.root :=
  run_induction (P := fun g => g.root = x.root)
    (fun _ _ _ _ h hcall => (answer_root hcall).trans h) rfl

/-- The classes of a graph are classes of the catalog, also where the build stopped early. -/
theorem unit?_of_units_run {options : BuildOptions} {budget : Budget} {now : Int} {cache : TextCache}
    {name : Text} {u : SourceUnit}
    (hu : (run x d options budget now cache).graph.units.find? name = some u) :
    x.unit? name = some u := by
  refine run_induction (P := fun g => ∀ name u, g.units.find? name = some u → x.unit? name = some u)
    ?_ ?_ name u hu
  · intro call g g' hlisted h hcall name u hu
    cases call with
    | addNode v =>
      rw [addNode_units hcall, SortedMap.find?_insert] at hu
      split at hu
      · next hname =>
        obtain rfl := Option.some.inj hu
        rw [hname]
        exact Catalog.unit?_of_mem_list (hlisted v rfl)
      · exact h name u hu
    | addModule m =>
      obtain ⟨-, rfl⟩ := addModule_eq_ok_iff.mp hcall
      apply h name u
      split at hu
      · exact hu
      · exact hu
    | addEdge source target rules =>
      rw [addEdge_units hcall] at hu
      exact h name u hu
    | freeze now =>
      obtain rfl := Except.ok.inj hcall
      rw [freeze_units] at hu
      exact h name u hu
  · intro name u hu
    simp [units_find?, node?, new] at hu

/-- The next step is taken if nothing has failed. -/
theorem andThen_of_none {next : Build → Build} (h : b.failure = none) : b.andThen next = next b := by
  simp [andThen, h]

/-- After a failure no step is taken. -/
theorem andThen_of_some {next : Build → Build} {e : BuildError} (h : b.failure = some e) :
    b.andThen next = b := by
  simp [andThen, h]

/-- All modules with a name are added to a graph that is not frozen; this does not fail. -/
theorem addModules_eq {modules : List Text} (hfrozen : b.graph.frozen = false) :
    addModules modules b = { b with graph := { b.graph with
      named := (modules.filter (!·.isEmpty)).foldl SortedSet.add b.graph.named } } := by
  induction modules generalizing b with
  | nil => rfl
  | cons m rest ih =>
    by_cases hm : m = []
    · have hadd : b.graph.addModule m = .ok b.graph :=
        addModule_eq_ok_iff.mpr ⟨hfrozen, if_pos hm⟩
      rw [addModules, hadd]
      simpa [hm] using ih hfrozen
    · have hadd : b.graph.addModule m =
          .ok { b.graph with named := SortedSet.add b.graph.named m } :=
        addModule_eq_ok_iff.mpr ⟨hfrozen, if_neg hm⟩
      rw [addModules, hadd]
      simpa [hm] using
        ih (b := { b with graph := { b.graph with named := SortedSet.add b.graph.named m } }) hfrozen

/-- A class with a new name can only fail to be added for want of room. -/
theorem addNode_of_fresh {g : ClassGraph} {u : SourceUnit} (hfrozen : g.frozen = false)
    (hname : u.name ≠ []) (hfresh : g.nodes.find? u.name = none) :
    g.addNode u = if g.limits.nodes ≤ g.nodeCount then .error .tooManyNodes
      else .ok { g with nodes := g.nodes.insert u.name ⟨u, [], []⟩ } := by
  have hcontains := SortedMap.contains_eq_false_iff.mpr hfresh
  simp [addNode, hfrozen, hname, hcontains]

/-- A new edge between two classes can only fail to be added for want of room. -/
theorem addEdge_of_fresh {g : ClassGraph} {source target : Text} (rules : Rules)
    (hfrozen : g.frozen = false) (hne : target ≠ source)
    (hsource : g.nodes.contains source = true) (htarget : g.nodes.contains target = true)
    (hfresh : g.places.find? (source, target) = none) :
    g.addEdge source target rules = if g.limits.edges ≤ g.edgeCount then .error .tooManyEdges
      else .ok (g.link source target rules) := by
  simp [addEdge, hfrozen, Ne.symm hne, hsource, htarget, hfresh]

/-- So many things fit behind those that are there. Nothing more always fits. -/
def Fits (count more : Nat) (limit : Int) : Prop := (count + more : Int) ≤ max (count : Int) limit

/-- Nothing more always fits, even where there is too much already. -/
theorem fits_zero (count : Nat) (limit : Int) : Fits count 0 limit := by
  unfold Fits
  omega

/-- Things fit together if the first fit and the others fit behind them. -/
theorem fits_add {count more others : Nat} {limit : Int} :
    Fits count (more + others) limit ↔ Fits count more limit ∧ Fits (count + more) others limit := by
  unfold Fits
  omega

/-- One more fits if the limit is not reached. -/
theorem fits_one {count : Nat} {limit : Int} : Fits count 1 limit ↔ ¬limit ≤ count := by
  unfold Fits
  omega

/-- New classes with names are all added if they fit, and otherwise one of them is too many. -/
theorem addClasses_cases {units : List SourceUnit} (hfrozen : b.graph.frozen = false)
    (hnew : ∀ u ∈ units, u.name ≠ [] ∧ b.graph.nodes.find? u.name = none)
    (hnodup : (units.map (·.name)).Nodup) :
    (Fits b.graph.nodeCount units.length b.graph.limits.nodes ∧
      addClasses units b = { b with
        graph := { b.graph with nodes := placeAll units b.graph.nodes }
        stats := { b.stats with nodes := b.stats.nodes + units.length } }) ∨
    (¬Fits b.graph.nodeCount units.length b.graph.limits.nodes ∧
      ∃ name, (addClasses units b).failure = some (.addingClass name .tooManyNodes)) := by
  induction units generalizing b with
  | nil => exact Or.inl ⟨fits_zero .., rfl⟩
  | cons u rest ih =>
    rw [List.map_cons, List.nodup_cons] at hnodup
    obtain ⟨hname, hfresh⟩ := hnew u (List.mem_cons_self ..)
    rw [addClasses, addNode_of_fresh hfrozen hname hfresh, List.length_cons, Nat.add_comm, fits_add,
      fits_one]
    by_cases hfull : b.graph.limits.nodes ≤ b.graph.nodeCount
    · rw [if_pos hfull]
      exact Or.inr ⟨fun hfits => hfits.1 hfull, u.name, rfl⟩
    · rw [if_neg hfull]
      let g : ClassGraph := { b.graph with nodes := b.graph.nodes.insert u.name ⟨u, [], []⟩ }
      have hcount : g.nodeCount = b.graph.nodeCount + 1 :=
        SortedMap.size_insert_of_find?_eq_none hfresh _
      have hlater : ∀ v ∈ rest, v.name ≠ [] ∧ g.nodes.find? v.name = none := by
        intro v hv
        obtain ⟨hv_name, hv_fresh⟩ := hnew v (List.mem_cons_of_mem _ hv)
        have hne : v.name ≠ u.name := fun heq => hnodup.1 (heq ▸ List.mem_map_of_mem hv)
        exact ⟨hv_name, (SortedMap.find?_insert_of_ne _ hne _).trans hv_fresh⟩
      -- what is left must fit behind the class just added
      have hrest := ih (b := { b with
        graph := g, stats := { b.stats with nodes := b.stats.nodes + 1 } }) hfrozen hlater hnodup.2
      dsimp only at hrest
      rw [hcount] at hrest
      obtain ⟨hfits, heq⟩ | ⟨hover, name, hfailure⟩ := hrest
      · refine Or.inl ⟨⟨hfull, hfits⟩, heq.trans ?_⟩
        rw [Nat.add_assoc]
        rfl
      · exact Or.inr ⟨fun hfits => hover hfits.2, name, hfailure⟩

/-- The edge that a dependency of a class becomes. -/
def record (source : Text) (dep : Dependency) : EdgeRecord :=
  ⟨source, dep.target, dep.rules.label, dep.rules⟩

/-- New edges from a class are all added if they fit, and otherwise one of them is too many. -/
theorem addDependencies_cases {source : Text} {deps : List Dependency}
    (hfrozen : b.graph.frozen = false) (hsource : b.graph.nodes.contains source = true)
    (hdeps : ∀ dep ∈ deps, dep.target ≠ source ∧ b.graph.nodes.contains dep.target = true ∧
      b.graph.places.find? (source, dep.target) = none)
    (hnodup : (deps.map (·.target)).Nodup) :
    (Fits b.graph.edgeCount deps.length b.graph.limits.edges ∧
      addDependencies source deps b =
        { b with graph := linkAll (deps.map (record source)) b.graph }) ∨
    (¬Fits b.graph.edgeCount deps.length b.graph.limits.edges ∧
      ∃ target, (addDependencies source deps b).failure =
        some (.addingEdge source target .tooManyEdges)) := by
  induction deps generalizing b with
  | nil => exact Or.inl ⟨fits_zero .., rfl⟩
  | cons dep rest ih =>
    rw [List.map_cons, List.nodup_cons] at hnodup
    obtain ⟨hne, htarget, hfresh⟩ := hdeps dep (List.mem_cons_self ..)
    rw [addDependencies, addEdge_of_fresh _ hfrozen hne hsource htarget hfresh, List.length_cons,
      Nat.add_comm, fits_add, fits_one]
    by_cases hfull : b.graph.limits.edges ≤ b.graph.edgeCount
    · rw [if_pos hfull]
      exact Or.inr ⟨fun hfits => hfits.1 hfull, dep.target, rfl⟩
    · rw [if_neg hfull]
      let g := b.graph.link source dep.target dep.rules
      have hcount : g.edgeCount = b.graph.edgeCount + 1 := by
        simp [g, edgeCount, link]
      have hlater : ∀ other ∈ rest, other.target ≠ source ∧ g.nodes.contains other.target = true ∧
          g.places.find? (source, other.target) = none := by
        intro other hother
        obtain ⟨hne', htarget', hfresh'⟩ := hdeps other (List.mem_cons_of_mem _ hother)
        refine ⟨hne', (link_contains ..).trans htarget', ?_⟩
        have hkey : (source, other.target) ≠ (source, dep.target) := by
          intro heq
          have hsame : other.target = dep.target := (Prod.mk.inj heq).2
          exact hnodup.1 (hsame ▸ List.mem_map_of_mem (f := (·.target)) hother)
        exact (SortedMap.find?_insert_of_ne _ hkey _).trans hfresh'
      have hrest := ih (b := { b with graph := g }) hfrozen
        ((link_contains ..).trans hsource) hlater hnodup.2
      dsimp only at hrest
      rw [hcount] at hrest
      obtain ⟨hfits, heq⟩ | ⟨hover, target, hfailure⟩ := hrest
      · exact Or.inl ⟨⟨hfull, hfits⟩, heq⟩
      · exact Or.inr ⟨fun hfits => hover hfits.2, target, hfailure⟩

variable {found : Text → Except SourceError (List Dependency)}

/-- The edges found for a class; none if its text cannot be read. -/
def edgesFound (found : Text → Except SourceError (List Dependency)) (name : Text) :
    List EdgeRecord :=
  match found name with
  | .error _ => []
  | .ok deps => deps.map (record name)

/-- The note on a class whose text cannot be read. -/
def fileError? (found : Text → Except SourceError (List Dependency)) (name : Text) :
    Option FileError :=
  match found name with
  | .error e => some ⟨name, e⟩
  | .ok _ => none

/-- The note on a class says why its text cannot be read. -/
theorem fileError?_eq_some_iff {name : Text} {e : FileError} :
    fileError? found name = some e ↔ e.name = name ∧ found name = .error e.cause := by
  cases hfound : found name with
  | error cause =>
    cases e
    simp [fileError?, hfound, eq_comm]
  | ok deps => simp [fileError?, hfound]

/-- The edges found for a class are the records of its dependencies. -/
theorem mem_edgesFound_iff {name : Text} {r : EdgeRecord} :
    r ∈ edgesFound found name ↔ ∃ deps, found name = .ok deps ∧ ∃ dep ∈ deps, record name dep = r := by
  cases hfound : found name with
  | error e => simp [edgesFound, hfound]
  | ok deps => simp [edgesFound, hfound]

/-- All edges found for a class leave it. -/
theorem source_of_mem_edgesFound {name : Text} {r : EdgeRecord} (hr : r ∈ edgesFound found name) :
    r.source = name := by
  obtain ⟨_, _, _, _, rfl⟩ := mem_edgesFound_iff.mp hr
  rfl

/-- Classes have been dealt with: their edges are in the graph, or they are noted as unreadable. -/
structure Advances (x : Extractor) (d : Disk) (found : Text → Except SourceError (List Dependency))
    (names : List Text) (b b' : Build) : Prop where
  graph : b'.graph = linkAll (names.flatMap (edgesFound found)) b.graph
  fileErrors : b'.fileErrors = b.fileErrors ++ names.filterMap (fileError? found)
  cache : b'.cache = Dependency.cacheAfter x d b.cache names
  failure : b'.failure = none
  counted : b'.stats.processed + b'.stats.failed =
    b.stats.processed + b.stats.failed + names.length
  failed : b'.stats.failed = b.stats.failed + (names.filterMap (fileError? found)).length
  nodes : b'.stats.nodes = b.stats.nodes
  modules : b'.modules = b.modules
  imported : b'.stats.imported = b.stats.imported
  usedOnly : b'.stats.usedOnly = b.stats.usedOnly

/-- Classes that were dealt with in two parts were dealt with as a whole. -/
theorem Advances.trans {names more : List Text} {b'' : Build} (h : Advances x d found names b b')
    (h' : Advances x d found more b' b'') : Advances x d found (names ++ more) b b'' where
  graph := by
    rw [h'.graph, h.graph, List.flatMap_append]
    exact (List.foldl_append ..).symm
  fileErrors := by rw [h'.fileErrors, h.fileErrors, List.filterMap_append, List.append_assoc]
  cache := by
    rw [h'.cache, h.cache]
    exact (List.foldl_append ..).symm
  failure := h'.failure
  counted := by
    have hfirst := h.counted
    have hsecond := h'.counted
    rw [List.length_append]
    omega
  failed := by
    have hfirst := h.failed
    have hsecond := h'.failed
    rw [List.filterMap_append, List.length_append]
    omega
  nodes := h'.nodes.trans h.nodes
  modules := h'.modules.trans h.modules
  imported := h'.imported.trans h.imported
  usedOnly := h'.usedOnly.trans h.usedOnly

/-- Classes have been dealt with if their edges fit, and otherwise one edge was too many. -/
def Grows (x : Extractor) (d : Disk) (found : Text → Except SourceError (List Dependency))
    (names : List Text) (b b' : Build) : Prop :=
  (Fits b.graph.edgeCount (names.flatMap (edgesFound found)).length b.graph.limits.edges ∧
    Advances x d found names b b') ∨
  (¬Fits b.graph.edgeCount (names.flatMap (edgesFound found)).length b.graph.limits.edges ∧
    ∃ source target, b'.failure = some (.addingEdge source target .tooManyEdges))

/-- Edges that are put in change neither the limits nor whether the graph is frozen, and edges
between other classes are not found where there were none. -/
theorem linkAll_rest (edges : List EdgeRecord) (g : ClassGraph) :
    (linkAll edges g).frozen = g.frozen ∧ (linkAll edges g).limits = g.limits ∧
      ∀ ends, (∀ e ∈ edges, (e.source, e.target) ≠ ends) →
        (linkAll edges g).places.find? ends = g.places.find? ends := by
  induction edges generalizing g with
  | nil => exact ⟨rfl, rfl, fun _ _ => rfl⟩
  | cons e rest ih =>
    obtain ⟨hfrozen, hlimits, hplaces⟩ := ih (g.link e.source e.target e.rules)
    refine ⟨hfrozen, hlimits, ?_⟩
    intro ends hends
    have hrest := hplaces ends fun e' he' => hends e' (List.mem_cons_of_mem _ he')
    have hne : ends ≠ (e.source, e.target) := (hends e (List.mem_cons_self ..)).symm
    exact hrest.trans (SortedMap.find?_insert_of_ne _ hne _)

/-- Every edge that is linked is counted, new or not. -/
theorem linkAll_edgeCount (edges : List EdgeRecord) (g : ClassGraph) :
    (linkAll edges g).edgeCount = g.edgeCount + edges.length := by
  have hlength := congrArg List.length (linkAll_keeps edges g).2.2.2
  simpa [edgeCount] using hlength

/-- Linking edges adds no class. -/
theorem linkAll_contains (edges : List EdgeRecord) (g : ClassGraph) (name : Text) :
    (linkAll edges g).nodes.contains name = g.nodes.contains name := by
  have hunits := congrArg (·.contains name) (linkAll_keeps edges g).2.2.1
  simpa only [units, SortedMap.contains_map] using hunits

/-- If the edges of the first classes fit, the others are dealt with; if they do not, the failure stays. -/
theorem Grows.andThen {names more : List Text} {next : Build → Build}
    (h : Grows x d found names b b')
    (hnext : Advances x d found names b b' → Grows x d found more b' (next b')) :
    Grows x d found (names ++ more) b (b'.andThen next) := by
  unfold Grows
  rw [List.flatMap_append, List.length_append, fits_add]
  obtain ⟨hfits, hadvances⟩ | ⟨hover, source, target, hfailure⟩ := h
  · rw [andThen_of_none hadvances.failure]
    have hafter := hnext hadvances
    unfold Grows at hafter
    rw [hadvances.graph, linkAll_edgeCount, (linkAll_rest _ _).2.1] at hafter
    obtain ⟨hfits', hadvances'⟩ | ⟨hover', hfailure'⟩ := hafter
    · exact Or.inl ⟨⟨hfits, hfits'⟩, hadvances.trans hadvances'⟩
    · exact Or.inr ⟨fun hboth => hover' hboth.2, hfailure'⟩
  · rw [andThen_of_some hfailure]
    exact Or.inr ⟨fun hboth => hover hboth.1, source, target, hfailure⟩

/-- All classes are in the graph, and none of the remaining ones has edges yet. -/
structure Ready (x : Extractor) (remaining : List Text) (b : Build) : Prop where
  frozen : b.graph.frozen = false
  failure : b.failure = none
  known : ∀ name ∈ x.names, b.graph.nodes.contains name = true
  fresh : ∀ source ∈ remaining, ∀ target, b.graph.places.find? (source, target) = none

/-- After one class was dealt with, the build is ready for the others: the edges of a class do not leave
another one. -/
theorem Ready.advances {name : Text} {rest : List Text} (h : Ready x (name :: rest) b)
    (hnodup : (name :: rest).Nodup) (hadvances : Advances x d found [name] b b') :
    Ready x rest b' where
  frozen := by
    rw [hadvances.graph, (linkAll_rest _ _).1]
    exact h.frozen
  failure := hadvances.failure
  known := by
    intro other hother
    rw [hadvances.graph, linkAll_contains]
    exact h.known other hother
  fresh := by
    intro source hsource target
    have hne : source ≠ name := fun heq => (List.nodup_cons.mp hnodup).1 (heq ▸ hsource)
    rw [hadvances.graph, (linkAll_rest _ _).2.2]
    · exact h.fresh source (List.mem_cons_of_mem _ hsource) target
    · intro e he heq
      rw [List.flatMap_singleton] at he
      exact hne ((Prod.mk.inj heq).1.symm.trans (source_of_mem_edgesFound he))

/-- When a class is finished only the numbers and the reports change. -/
theorem finishClass_keeps (every total done : Nat) (b : Build) :
    (finishClass every total done b).graph = b.graph ∧
      (finishClass every total done b).fileErrors = b.fileErrors ∧
      (finishClass every total done b).cache = b.cache ∧
      (finishClass every total done b).failure = b.failure ∧
      (finishClass every total done b).modules = b.modules ∧
      (finishClass every total done b).stats =
        { b.stats with
          processed := b.stats.processed + 1
          edges := (finishClass every total done b).stats.edges } := by
  unfold finishClass
  dsimp only
  split
  · exact ⟨rfl, rfl, rfl, rfl, rfl, rfl⟩
  · exact ⟨rfl, rfl, rfl, rfl, rfl, rfl⟩

/-- A class that can be read has its edges put in, as long as they fit; one that cannot is noted. -/
theorem extractClass_grows (every total done : Nat) {name : Text} {rest : List Text}
    (h : Ready x (name :: rest) b) (hname : name ∈ x.names)
    (hfound : found name = (x.extractFor d name b.cache).1) :
    Grows x d found [name] b (extractClass x d every total done name b) := by
  have hcache : Dependency.cacheAfter x d b.cache [name] =
      (x.extractFor d name b.cache).2 := rfl
  unfold Grows extractClass
  cases hextract : x.extractFor d name b.cache with
  | mk result cache =>
    rw [hextract] at hfound hcache
    cases result with
    | error e =>
      have hedges : [name].flatMap (edgesFound found) = [] := by simp [edgesFound, hfound]
      have herrors : [name].filterMap (fileError? found) = [⟨name, e⟩] := by
        simp [fileError?, hfound]
      rw [hedges]
      refine Or.inl ⟨fits_zero .., ?_⟩
      constructor
      case graph =>
        rw [hedges]
        rfl
      case fileErrors => rw [herrors]
      case cache => exact hcache.symm
      case failure => exact h.failure
      case counted => exact (Nat.add_assoc ..).symm
      case failed => rw [herrors, List.length_singleton]
      all_goals rfl
    | ok deps =>
      have hedges : [name].flatMap (edgesFound found) = deps.map (record name) := by
        simp [edgesFound, hfound]
      have herrors : [name].filterMap (fileError? found) = [] := by simp [fileError?, hfound]
      have hread : (x.extractFor d name b.cache).1 = .ok deps := by rw [hextract]
      obtain ⟨hnodup, htargets⟩ := Dependency.extractFor_targets hread
      have hdeps : ∀ dep ∈ deps, dep.target ≠ name ∧
          b.graph.nodes.contains dep.target = true ∧
          b.graph.places.find? (name, dep.target) = none := by
        intro dep hdep
        obtain ⟨hmem, hne⟩ := htargets dep hdep
        exact ⟨hne, h.known _ hmem, h.fresh name (List.mem_cons_self ..) _⟩
      rw [hedges, List.length_map]
      obtain ⟨hfits, hadd⟩ | ⟨hover, target, hfailure⟩ := addDependencies_cases
        (b := { b with cache := cache }) h.frozen (h.known name hname) hdeps hnodup
      · let added : Build :=
          { b with graph := linkAll (deps.map (record name)) b.graph, cache := cache }
        have hthen : (addDependencies name deps { b with cache := cache }).andThen
            (finishClass every total done) = finishClass every total done added := by
          rw [hadd]
          exact andThen_of_none (b := added) h.failure
        refine Or.inl ⟨hfits, ?_⟩
        dsimp only
        rw [hthen]
        obtain ⟨hgraph, hfiles, htexts, hfailure, hmodules, hstats⟩ :=
          finishClass_keeps every total done added
        constructor
        case graph => rw [hgraph, hedges]
        case fileErrors => rw [hfiles, herrors, List.append_nil]
        case cache => exact htexts.trans hcache.symm
        case failure => exact hfailure.trans h.failure
        case modules => exact hmodules
        case counted =>
          rw [hstats, List.length_singleton]
          exact Nat.add_right_comm ..
        case failed =>
          rw [hstats, herrors]
          rfl
        all_goals rw [hstats]
      · refine Or.inr ⟨hover, name, target, ?_⟩
        dsimp only
        rwa [andThen_of_some hfailure]

/-- Without an interruption all classes are dealt with as long as their edges fit. What is found for each
of them may depend on those read before. -/
theorem extractEdges_grows {names : List Text} {every total done : Nat} {budget : Budget}
    (h : Ready x names b) (hnames : ∀ name ∈ names, name ∈ x.names) (hnodup : names.Nodup)
    (hfound : Dependency.Foretells x d found b.cache names) (hbudget : budget.left = none) :
    Grows x d found names b (extractEdges x d every total done names budget b) := by
  induction names generalizing b done with
  | nil =>
    refine Or.inl ⟨fits_zero .., ?_⟩
    constructor
    case fileErrors => exact (List.append_nil _).symm
    case failure => exact h.failure
    all_goals rfl
  | cons name rest ih =>
    rw [extractEdges, Budget.check_of_left_eq_none hbudget]
    have hfirst := extractClass_grows every total (done + 1) h (hnames name (List.mem_cons_self ..))
      hfound.1
    refine Grows.andThen hfirst ?_
    intro hadvances
    -- names are different, so the remaining classes are still without edges
    apply ih (h.advances hnodup hadvances) _ (List.nodup_cons.mp hnodup).2
    · rw [hadvances.cache]
      exact hfound.2
    · exact fun other hother => hnames other (List.mem_cons_of_mem _ hother)

end ClassAtlas.Build
