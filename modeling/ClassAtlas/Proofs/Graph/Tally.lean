import ClassAtlas.Proofs.Graph.Cancelled
import Mathlib.Data.Nat.Find

namespace ClassAtlas

namespace ClassGraph

variable {g g' : ClassGraph}

/-- The classes that edges leave, in the order of the edges. -/
def sources (g : ClassGraph) : List Text := g.edges.toList.map (·.source)

/-- There are as many sources as edges. -/
theorem length_sources (g : ClassGraph) : g.sources.length = g.edgeCount := by
  simp [sources, edgeCount]

/-- Rules that are added to an edge change no source. -/
theorem addRules_sources (g : ClassGraph) (place : Nat) (rules : Rules) :
    (g.addRules place rules).sources = g.sources := by
  apply List.ext_getElem?
  intro i
  simpa [sources] using addRules_tip (fun _ _ => rfl) g place rules i

/-- An edge that is added adds no node, and at most one edge that leaves its source. -/
theorem addEdge_sources {source target : Text} {rules : Rules}
    (hadd : g.addEdge source target rules = .ok g') :
    g'.nodeCount = g.nodeCount ∧ ∃ n, g'.sources = g.sources ++ List.replicate n source := by
  obtain ⟨-, -, -, -, ⟨place, -, rfl⟩ | ⟨-, -, rfl⟩⟩ := addEdge_eq_ok_iff.mp hadd
  · exact ⟨rfl, 0, by simp [addRules_sources]⟩
  · exact ⟨by simp [nodeCount, link], 1, by simp [sources, link]⟩

end ClassGraph

namespace Build

open ClassGraph

variable {c : Catalog} {x : Extractor} {d : Disk} {b b' : Build} {every done : Nat} {name : Text}

/-- Edges are counted behind class number `j`, if a report is due there and the class could be read. -/
def countsAt (b : Build) (c : Catalog) (every j : Nat) : Bool :=
  j % every == 0 && b.fileErrors.all fun e => c.names[j - 1]? != some e.name

/-- Behind how many of the classes that a build has dealt with the edges were counted last. -/
def lastCount (b : Build) (c : Catalog) (every : Nat) : Nat :=
  Nat.findGreatest (fun j => b.countsAt c every j = true) (b.stats.processed + b.stats.failed)

/-- If edges are counted behind a class, the last count is the one behind it. -/
theorem lastCount_of_countsAt (hdealt : b.stats.processed + b.stats.failed = done)
    (h : b.countsAt c every done = true) : b.lastCount c every = done := by
  rw [lastCount, hdealt, Nat.findGreatest_eq h]

/-- A class behind which edges are not counted changes nothing. -/
theorem lastCount_of_not_countsAt (hdealt : b.stats.processed + b.stats.failed = done)
    (hdealt' : b'.stats.processed + b'.stats.failed = done + 1)
    (hnot : b'.countsAt c every (done + 1) = false)
    (hsame : ∀ j, 0 < j → j ≤ done → b'.countsAt c every j = b.countsAt c every j) :
    b'.lastCount c every = b.lastCount c every := by
  have hnot' : ¬b'.countsAt c every (done + 1) = true := by simp [hnot]
  rw [lastCount, lastCount, hdealt, hdealt', Nat.findGreatest_of_not hnot']
  obtain ⟨hle, hcounted, hlatest⟩ := Nat.findGreatest_eq_iff.mp
    (rfl : Nat.findGreatest (fun j => b.countsAt c every j = true) done = _)
  refine Nat.findGreatest_eq_iff.mpr ⟨hle, ?_, ?_⟩
  · intro hne
    rw [hsame _ (Nat.pos_of_ne_zero hne) hle]
    exact hcounted hne
  · intro j hlt hj
    rw [hsame j (Nat.zero_lt_of_lt hlt) hj]
    exact hlatest hlt hj

/-- The nodes are counted, and the edges as far as the last count went. -/
structure Tallied (c : Catalog) (every : Nat) (b : Build) : Prop where
  nodes : b.stats.nodes = b.graph.nodeCount
  edges : b.stats.edges = b.graph.sources.countP (· ∈ c.names.take (b.lastCount c every))

/-- What holds between two classes, of which `done` have been dealt with. -/
structure OnTrack (c : Catalog) (every done : Nat) (b : Build) : Prop extends Tallied c every b where
  dealt : b.stats.processed + b.stats.failed = done
  noted : ∀ e ∈ b.fileErrors, e.name ∈ c.names.take done
  left : ∀ source ∈ b.graph.sources, source ∈ c.names.take done

/-- The last count was behind a class that has been dealt with. -/
theorem OnTrack.lastCount_le (h : OnTrack c every done b) : b.lastCount c every ≤ done :=
  h.dealt ▸ Nat.findGreatest_le _

/-- One more class has been dealt with. -/
theorem take_names_succ (hname : c.names[done]? = some name) :
    c.names.take (done + 1) = c.names.take done ++ [name] := by
  rw [List.take_add_one, hname]
  rfl

/-- The class whose turn it is stands behind those that have been dealt with. -/
theorem not_mem_take_names (hname : c.names[done]? = some name) {n : Nat} (hn : n ≤ done) :
    name ∉ c.names.take n := by
  have hnodup : c.names.Nodup := (SortedMap.increasingBy_keys _).nodup
  intro hmem
  obtain ⟨i, hi, hfound⟩ := List.mem_take_iff_getElem.mp hmem
  have hsome : c.names[i]? = c.names[done]? := by
    rw [hname, ← hfound, List.getElem?_eq_getElem]
  have hsame : i = done := (List.getElem?_inj (by omega) hnodup).mp hsome
  omega

/-- A class that cannot be read is noted and adds no edges. -/
theorem OnTrack.note (h : OnTrack c every done b) (hname : c.names[done]? = some name)
    (e : SourceError) (cache : TextCache) :
    OnTrack c every (done + 1) { b with
      cache := cache
      fileErrors := b.fileErrors ++ [⟨name, e⟩]
      stats := { b.stats with failed := b.stats.failed + 1 } } := by
  have htake := take_names_succ hname
  have hdealt : b.stats.processed + (b.stats.failed + 1) = done + 1 := by
    rw [← Nat.add_assoc, h.dealt]
  have hlast : Build.lastCount { b with
      cache := cache
      fileErrors := b.fileErrors ++ [⟨name, e⟩]
      stats := { b.stats with failed := b.stats.failed + 1 } } c every = b.lastCount c every := by
    refine lastCount_of_not_countsAt h.dealt hdealt (by simp [countsAt, hname]) ?_
    intro j hpos hj
    have hne : c.names[j - 1]? ≠ some name := by
      intro hfound
      refine not_mem_take_names hname hj ?_
      exact List.mem_of_getElem? (i := j - 1) (by rw [List.getElem?_take_of_lt (by omega), hfound])
    have hother : (c.names[j - 1]? != some name) = true := bne_iff_ne.mpr hne
    simp [countsAt, hother]
  refine ⟨⟨?nodes, ?edges⟩, ?dealt, ?noted, ?left⟩
  case nodes => exact h.nodes
  case edges =>
    rw [hlast]
    exact h.edges
  case dealt => exact hdealt
  case noted =>
    intro e' he'
    rw [htake, List.mem_append]
    obtain hold | hnew := List.mem_append.mp he'
    · exact Or.inl (h.noted e' hold)
    · rw [List.mem_singleton.mp hnew]
      exact Or.inr (List.mem_singleton_self name)
  case left =>
    intro source hsource
    rw [htake]
    exact List.mem_append_left _ (h.left source hsource)

/-- A build has gained edges that leave a class, and nothing else. -/
structure Gains (source : Text) (b b' : Build) : Prop where
  stats : b'.stats = b.stats
  fileErrors : b'.fileErrors = b.fileErrors
  nodeCount : b'.graph.nodeCount = b.graph.nodeCount
  sources : ∃ n, b'.graph.sources = b.graph.sources ++ List.replicate n source

/-- The dependencies of a class are gained as edges that leave it, also if the build breaks off there. -/
theorem addDependencies_gains (source : Text) (deps : List Dependency) (b : Build) :
    Gains source b (addDependencies source deps b) := by
  induction deps generalizing b with
  | nil => exact ⟨rfl, rfl, rfl, 0, (List.append_nil _).symm⟩
  | cons dep rest ih =>
    rw [addDependencies]
    split
    · exact ⟨rfl, rfl, rfl, 0, (List.append_nil _).symm⟩
    · next g hadd =>
      obtain ⟨hnodes, n, hsources⟩ := addEdge_sources hadd
      obtain ⟨hstats, hfiles, hnodes', n', hsources'⟩ := ih { b with graph := g }
      refine ⟨hstats, hfiles, hnodes'.trans hnodes, n + n', ?_⟩
      rw [hsources', hsources, List.append_assoc, List.replicate_append_replicate]

/-- Edges that are gained do not count as a count. -/
theorem Gains.lastCount_eq (hgains : Gains name b b') (c : Catalog) (every : Nat) :
    b'.lastCount c every = b.lastCount c every := by
  unfold lastCount countsAt
  rw [hgains.stats, hgains.fileErrors]

/-- Edges that leave the class whose turn it is are not among those counted. -/
theorem OnTrack.countP_gains (h : OnTrack c every done b) (hname : c.names[done]? = some name)
    (hgains : Gains name b b') :
    b.stats.edges = b'.graph.sources.countP (· ∈ c.names.take (b.lastCount c every)) := by
  obtain ⟨n, hsources⟩ := hgains.sources
  have hnone : (List.replicate n name).countP (· ∈ c.names.take (b.lastCount c every)) = 0 := by
    simp [List.countP_replicate, not_mem_take_names hname h.lastCount_le]
  rw [hsources, List.countP_append, hnone, h.edges, Nat.add_zero]

/-- Between two classes the tally is right even after edges of the next one were gained. -/
theorem OnTrack.gains (h : OnTrack c every done b) (hname : c.names[done]? = some name)
    (hgains : Gains name b b') : Tallied c every b' where
  nodes := by rw [hgains.stats, hgains.nodeCount, h.nodes]
  edges := by rw [hgains.stats, hgains.lastCount_eq, h.countP_gains hname hgains]

/-- A class that was read is done with its edges, and all edges are counted if a report is due. -/
theorem OnTrack.finishClass (h : OnTrack c every done b) (hname : c.names[done]? = some name)
    (hgains : Gains name b b') (total : Nat) :
    OnTrack c every (done + 1) (finishClass every total (done + 1) b') := by
  obtain ⟨hgraph, hfiles, -, -, -, hstats⟩ := finishClass_keeps every total (done + 1) b'
  have htake := take_names_succ hname
  have hdealt : (Build.finishClass every total (done + 1) b').stats.processed +
      (Build.finishClass every total (done + 1) b').stats.failed = done + 1 := by
    rw [hstats, hgains.stats, ← h.dealt]
    exact Nat.add_right_comm ..
  have hleft : ∀ source ∈ b'.graph.sources, source ∈ c.names.take (done + 1) := by
    intro source hsource
    obtain ⟨n, hsources⟩ := hgains.sources
    rw [hsources] at hsource
    rw [htake, List.mem_append]
    obtain hold | hnew := List.mem_append.mp hsource
    · exact Or.inl (h.left source hold)
    · exact Or.inr (List.mem_singleton.mpr (List.eq_of_mem_replicate hnew))
  refine ⟨⟨?nodes, ?edges⟩, ?dealt, ?noted, ?left⟩
  case nodes => rw [hstats, hgraph, hgains.stats, hgains.nodeCount, h.nodes]
  case edges =>
    by_cases hdue : (done + 1) % every = 0
    · have hcounts : (Build.finishClass every total (done + 1) b').countsAt c every (done + 1) = true := by
        have hread : ∀ e ∈ b.fileErrors, ¬name = e.name := by
          rintro e he rfl
          exact not_mem_take_names hname (Nat.le_refl _) (h.noted e he)
        simpa [countsAt, hdue, hfiles, hgains.fileErrors, hname] using hread
      have hall : b'.graph.sources.countP (· ∈ c.names.take (done + 1)) = b'.graph.edgeCount := by
        rw [← length_sources, List.countP_eq_length]
        simpa using hleft
      rw [lastCount_of_countsAt hdealt hcounts, hgraph, hall]
      simp [Build.finishClass, hdue, report]
    · have hlast : (Build.finishClass every total (done + 1) b').lastCount c every =
          b.lastCount c every := by
        refine lastCount_of_not_countsAt h.dealt hdealt (by simp [countsAt, hdue]) ?_
        intro j _ _
        simp only [countsAt, hfiles, hgains.fileErrors]
      rw [hlast, hgraph, ← h.countP_gains hname hgains, ← hgains.stats]
      simp [Build.finishClass, hdue]
  case dealt => exact hdealt
  case noted =>
    intro e he
    rw [hfiles, hgains.fileErrors] at he
    rw [htake]
    exact List.mem_append_left _ (h.noted e he)
  case left =>
    rw [hgraph]
    exact hleft

/-- A class is dealt with, or its edges did not all fit. -/
theorem OnTrack.extractClass (h : OnTrack x every done b) (hname : x.names[done]? = some name)
    (total : Nat) :
    Tallied x every (extractClass x d every total (done + 1) name b) ∧
      ((extractClass x d every total (done + 1) name b).failure = none →
        OnTrack x every (done + 1) (extractClass x d every total (done + 1) name b)) := by
  unfold Build.extractClass
  split
  · next e cache _ =>
    have hnoted := h.note hname e cache
    exact ⟨hnoted.toTallied, fun _ => hnoted⟩
  · next found cache _ =>
    have hcached : OnTrack x every done { b with cache := cache } := { h with }
    have hgains := addDependencies_gains name found { b with cache := cache }
    cases hfailure : (addDependencies name found { b with cache := cache }).failure with
    | some e =>
      rw [andThen_of_some hfailure]
      refine ⟨hcached.gains hname hgains, ?_⟩
      rw [hfailure]
      exact nofun
    | none =>
      rw [andThen_of_none hfailure]
      have hfinished := hcached.finishClass hname hgains total
      exact ⟨hfinished.toTallied, fun _ => hfinished⟩

/-- However the build stops, the edges are counted up to its last count. -/
theorem OnTrack.extractEdges {names : List Text} (h : OnTrack x every done b)
    (hnames : x.names.drop done = names) (total : Nat) (budget : Budget) :
    Tallied x every (extractEdges x d every total done names budget b) := by
  induction names generalizing done budget b with
  | nil => exact h.toTallied
  | cons name rest ih =>
    have hname : x.names[done]? = some name := by
      have hhead := congrArg (·[0]?) hnames
      simpa using hhead
    have hrest : x.names.drop (done + 1) = rest := by
      rw [← List.drop_drop, hnames, List.drop_one, List.tail_cons]
    obtain ⟨htallied, hontrack⟩ := h.extractClass (d := d) hname total
    rw [Build.extractEdges]
    split
    · exact { h.toTallied with }
    · next budget' _ =>
      cases hfailure : (Build.extractClass x d every total (done + 1) name b).failure with
      | some e =>
        rw [andThen_of_some hfailure]
        exact htallied
      | none =>
        rw [andThen_of_none hfailure]
        exact ih (hontrack hfailure) hrest budget'

/-- Modules that are added do not change the tally. -/
theorem OnTrack.addModules (h : OnTrack c every done b) (modules : List Text) :
    OnTrack c every done (addModules modules b) := by
  induction modules generalizing b with
  | nil => exact h
  | cons m rest ih =>
    rw [Build.addModules]
    split
    · exact { h with }
    · next g hadd =>
      apply ih
      obtain ⟨-, rfl⟩ := addModule_eq_ok_iff.mp hadd
      split
      · exact h
      · exact { h with }

/-- A class that is added is new, so the nodes become one more. -/
theorem OnTrack.addClasses (h : OnTrack c every done b) (units : List SourceUnit) :
    OnTrack c every done (addClasses units b) := by
  induction units generalizing b with
  | nil => exact h
  | cons u rest ih =>
    rw [Build.addClasses]
    split
    · exact { h with }
    · next g hadd =>
      apply ih
      obtain ⟨-, -, hfresh, -, rfl⟩ := addNode_eq_ok_iff.mp hadd
      have hnodes : b.stats.nodes + 1 = (b.graph.nodes.insert u.name ⟨u, [], []⟩).size := by
        rw [SortedMap.size_insert_of_find?_eq_none hfresh, h.nodes]
        rfl
      exact { h with nodes := hnodes }

/-- A property holds behind a step if it held before and the step keeps it. The step is left out after a
failure. -/
theorem andThen_induction {P : Build → Prop} {next : Build → Build} (h : P b) (hnext : P (next b)) :
    P (b.andThen next) := by
  unfold andThen
  split
  · exact h
  · exact hnext

/-- Up to its last step, a build has counted its nodes, and its edges as far as the last count went. -/
theorem unfinished_tallied (x : Extractor) (d : Disk) (options : BuildOptions) (budget : Budget)
    (cache : TextCache) : Tallied x (interval options) (unfinished x d options budget cache) := by
  let start : Build := ⟨ClassGraph.new x.root options.limits, none, [], {}, [], none, cache⟩
  have hstart : OnTrack x (interval options) 0 start := ⟨⟨rfl, rfl⟩, rfl, nofun, nofun⟩
  have hmodules := hstart.addModules x.modules
  have hclasses : OnTrack x (interval options) 0
      ((addModules x.modules start).andThen (addClasses x.list)) :=
    andThen_induction hmodules (hmodules.addClasses x.list)
  have hreported : OnTrack x (interval options) 0
      (((addModules x.modules start).andThen (addClasses x.list)).report .collecting x.size 0) :=
    { hclasses with }
  unfold unfinished
  exact andThen_induction hclasses.toTallied (hreported.extractEdges rfl x.size budget)

/-- Every build, however it ends, has counted its nodes. It has counted its edges if it came to its end;
if it stopped, it shows the number of those that leave the classes up to the last count. So the number is
wrong exactly if a build stopped and has found edges since. -/
theorem run_edges_counted_iff (x : Extractor) (d : Disk) (options : BuildOptions) (budget : Budget)
    (now : Int) (cache : TextCache) :
    let b := run x d options budget now cache
    let counted := x.names.take (b.lastCount x (interval options))
    b.stats.nodes = b.graph.nodeCount ∧
      (b.failure = none → b.stats.edges = b.graph.edgeCount) ∧
      (b.failure ≠ none → b.stats.edges = b.graph.edges.toList.countP (·.source ∈ counted)) ∧
      (b.stats.edges = b.graph.edgeCount ↔
        b.failure = none ∨ ∀ e ∈ b.graph.edges, e.source ∈ counted) := by
  intro b counted
  have htallied := unfinished_tallied x d options budget cache
  have hrun : b = (unfinished x d options budget cache).andThen (finish now x.size) := run_eq ..
  cases hfailure : (unfinished x d options budget cache).failure with
  | none =>
    rw [andThen_of_none hfailure] at hrun
    have hnone : b.failure = none := by
      rw [hrun]
      exact hfailure
    have hstats := finish_stats now x.size (unfinished x d options budget cache)
    have hnodes : b.stats.nodes = b.graph.nodeCount := by
      rw [hrun, hstats]
      exact htallied.nodes.trans (SortedMap.size_map ..).symm
    have hedges : b.stats.edges = b.graph.edgeCount := by
      rw [hrun, hstats]
      rfl
    exact ⟨hnodes, fun _ => hedges, fun h => absurd hnone h, iff_of_true hedges (Or.inl hnone)⟩
  | some e =>
    rw [andThen_of_some hfailure] at hrun
    have hsome : b.failure ≠ none := by simp [hrun, hfailure]
    have hedges : b.stats.edges = b.graph.edges.toList.countP (·.source ∈ counted) := by
      have hcounted := htallied.edges
      rw [← hrun, sources, List.countP_map] at hcounted
      exact hcounted
    refine ⟨hrun ▸ htallied.nodes, fun h => absurd h hsome, fun _ => hedges, ?_⟩
    have hall : b.stats.edges = b.graph.edgeCount ↔ ∀ e ∈ b.graph.edges, e.source ∈ counted := by
      rw [hedges, edgeCount, ← Array.length_toList, List.countP_eq_length]
      simp
    rw [hall, or_iff_right hsome]

/-- Of three classes two are dealt with before the build is cancelled, or before there is no room for
another edge. Both builds have an edge in their graphs and have counted none, since no report was due. -/
theorem run_edges_not_counted :
    let cancelled := run chainExtractor chainDisk {} (.cancelAfter 2) 7 chainCache
    let full := run chainExtractor chainDisk { limits := ⟨3, 1⟩ } .unlimited 7 chainCache
    (cancelled.failure = some (.cancelled .cancelled) ∧
      cancelled.stats.edges = 0 ∧ cancelled.graph.edgeCount = 1) ∧
    (full.failure = some (.addingEdge "p.C" "p.A" .tooManyEdges) ∧
      full.stats.edges = 0 ∧ full.graph.edgeCount = 1) := by
  decide

end Build

end ClassAtlas
