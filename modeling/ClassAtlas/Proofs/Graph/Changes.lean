import ClassAtlas.Proofs.Graph.Diff
import Mathlib.Data.Set.Basic

namespace ClassAtlas

/-- The names of the classes. -/
def ClassGraph.classSet (g : ClassGraph) : Set Text := {name | g.nodes.contains name = true}

/-- The pairs of classes with an edge between them. -/
def ClassGraph.edgeSet (g : ClassGraph) : Set ClassPair := {p | g.hasEdge p.source p.target = true}

/-- The pairs of modules with an edge between them. -/
def ModuleGraph.edgeSet (m : ModuleGraph) : Set ClassPair := {p | ∃ e ∈ m.edges, e.ends = p.ends}

/-- Two lists say in order what was added to a set and what was removed from it, and thereby what
became of it. -/
structure LeadsTo {α κ : Type} [KeyOrder κ] (key : α → κ) (old new : Set α) (added removed : List α) :
    Prop where
  mem_added : ∀ a, a ∈ added ↔ a ∈ new \ old
  mem_removed : ∀ a, a ∈ removed ↔ a ∈ old \ new
  increasing_added : IncreasingBy key added
  increasing_removed : IncreasingBy key removed
  applied : (old \ {a | a ∈ removed}) ∪ {a | a ∈ added} = new

/-- Lists that have exactly what is new and exactly what is gone, both in order, say what became of a
set. -/
theorem LeadsTo.of_mem_iff {α κ : Type} [KeyOrder κ] {key : α → κ} {old new : Set α}
    {added removed : List α} (hadded : ∀ a, a ∈ added ↔ a ∈ new \ old)
    (hremoved : ∀ a, a ∈ removed ↔ a ∈ old \ new) (hincreasing : IncreasingBy key added)
    (hincreasing' : IncreasingBy key removed) : LeadsTo key old new added removed where
  mem_added := hadded
  mem_removed := hremoved
  increasing_added := hincreasing
  increasing_removed := hincreasing'
  applied := by
    ext a
    simp only [Set.mem_union, Set.mem_sdiff, Set.mem_ofPred_eq, hadded, hremoved]
    by_cases hold : a ∈ old <;> by_cases hnew : a ∈ new <;> simp [hold, hnew]

/-- The move back. -/
def ClassMove.reversed (m : ClassMove) : ClassMove := ⟨m.name, m.target, m.source⟩

namespace GraphDiff

/-- The difference read backwards: what was added is removed, and classes move back. -/
def reversed (d : GraphDiff) : GraphDiff where
  baseId := d.targetId
  targetId := d.baseId
  classesAdded := d.classesRemoved
  classesRemoved := d.classesAdded
  classesMoved := d.classesMoved.map ClassMove.reversed
  edgesAdded := d.edgesRemoved
  edgesRemoved := d.edgesAdded
  moduleEdgesAdded := d.moduleEdgesRemoved
  moduleEdgesRemoved := d.moduleEdgesAdded
  summary := d.summary

variable {base target : ClassGraph}

/-- The new classes are those that only the one graph has. The graphs need not be well-formed. -/
theorem mem_newClasses_iff {g other : ClassGraph} (name : Text) :
    name ∈ newClasses g other ↔ name ∈ g.classSet \ other.classSet := by
  simp [newClasses, ClassGraph.classSet, SortedMap.mem_keys_iff]

/-- The new classes are listed by name, each once. -/
theorem increasingBy_newClasses (g other : ClassGraph) : IncreasingBy id (newClasses g other) :=
  g.nodes.increasingBy_keys.filter _

/-- The new edges are those that only the one graph has, whatever their rules. The other graph need not be
well-formed. -/
theorem mem_newEdges_iff {g other : ClassGraph} (hg : g.WellFormed) (p : ClassPair) :
    p ∈ newEdges g other ↔ p ∈ g.edgeSet \ other.edgeSet := by
  simp only [newEdges, List.mem_map, List.mem_filter, ClassGraph.mem_edgeList, Set.mem_sdiff,
    ClassGraph.edgeSet, Set.mem_ofPred_eq, hg.hasEdge_iff]
  constructor
  · rintro ⟨e, ⟨he, hnew⟩, rfl⟩
    exact ⟨⟨e, he, rfl⟩, by simpa using hnew⟩
  · rintro ⟨⟨e, he, hends⟩, hnew⟩
    obtain ⟨hsource, htarget⟩ := Prod.mk.inj hends
    refine ⟨e, ⟨he, ?_⟩, ?_⟩
    · rw [hsource, htarget]
      simpa using hnew
    · rw [hsource, htarget]

/-- The new edges are listed by their ends, each once. -/
theorem increasingBy_newEdges {g : ClassGraph} (hg : g.WellFormed) (other : ClassGraph) :
    IncreasingBy ClassPair.ends (newEdges g other) :=
  IncreasingBy.map (hg.increasingBy_edgeList.filter _)

/-- Nothing is found between two modules if no edge of the projection has these ends. -/
theorem isNone_edge?_project_iff {g : ClassGraph} {source target : Text} :
    ((ModuleGraph.project g).edge? source target).isNone = true ↔
      ¬ ∃ e ∈ (ModuleGraph.project g).edges, e.ends = (source, target) := by
  rw [Option.isNone_iff_eq_none, Option.eq_none_iff_forall_ne_some]
  simp [ModuleGraph.edge?_project_eq_some_iff]

/-- The new module edges are those that only the one projection has, whatever their evidence. -/
theorem mem_newModuleEdges_iff {g other : ClassGraph} (p : ClassPair) :
    p ∈ newModuleEdges (ModuleGraph.project g) (ModuleGraph.project other) ↔
      p ∈ (ModuleGraph.project g).edgeSet \ (ModuleGraph.project other).edgeSet := by
  simp only [newModuleEdges, List.mem_map, List.mem_filter, isNone_edge?_project_iff, Set.mem_sdiff,
    ModuleGraph.edgeSet, Set.mem_ofPred_eq]
  constructor
  · rintro ⟨e, ⟨he, hnew⟩, rfl⟩
    exact ⟨⟨e, he, rfl⟩, hnew⟩
  · rintro ⟨⟨e, he, hends⟩, hnew⟩
    obtain ⟨hsource, htarget⟩ := Prod.mk.inj hends
    refine ⟨e, ⟨he, ?_⟩, ?_⟩
    · rw [hsource, htarget]
      exact hnew
    · rw [hsource, htarget]

/-- The new module edges are listed by their ends, each once. -/
theorem increasingBy_newModuleEdges (g other : ClassGraph) : IncreasingBy ClassPair.ends
    (newModuleEdges (ModuleGraph.project g) (ModuleGraph.project other)) :=
  IncreasingBy.map ((ModuleGraph.increasingBy_edges_project g).filter _)

/-- The class is in both graphs, but not in the same module. -/
def Moved (base target : ClassGraph) (m : ClassMove) : Prop :=
  (base.node? m.name).map (·.unit.module) = some m.source ∧
    (target.node? m.name).map (·.unit.module) = some m.target ∧ m.source ≠ m.target

/-- The move of a class of the target, if it has one. -/
def moveOf? (base : ClassGraph) (t : ClassNode) : Option ClassMove :=
  (base.node? t.unit.name).bind fun b =>
    if b.unit.module = t.unit.module then none
    else some ⟨t.unit.name, b.unit.module, t.unit.module⟩

/-- The moves are looked for class by class in the target. -/
theorem moves_eq (base target : ClassGraph) :
    moves base target = target.nodeList.filterMap (moveOf? base) := by
  unfold moves
  congr 1
  funext t
  cases hbase : base.node? t.unit.name <;> simp [moveOf?, hbase]

/-- A class of the target has moved if the base has it in another module. -/
theorem moveOf?_eq_some_iff {t : ClassNode} {m : ClassMove} :
    moveOf? base t = some m ↔ (base.node? m.name).map (·.unit.module) = some m.source ∧
      m.name = t.unit.name ∧ m.target = t.unit.module ∧ m.source ≠ m.target := by
  unfold moveOf?
  constructor
  · intro h
    obtain ⟨b, hb, hmove⟩ := Option.bind_eq_some_iff.mp h
    split at hmove
    · contradiction
    · next hne =>
      rw [← Option.some.inj hmove]
      exact ⟨by simp [hb], rfl, rfl, hne⟩
  · obtain ⟨name, source, module⟩ := m
    rintro ⟨hsource, rfl, rfl, hne⟩
    obtain ⟨b, hb, rfl⟩ := Option.map_eq_some_iff.mp hsource
    dsimp only at hb hne
    rw [hb, Option.bind_some, if_neg hne]

/-- The moves are those of all classes that are in both graphs and not in the same module. The base need
not be well-formed. -/
theorem mem_moves_iff (ht : target.WellFormed) (m : ClassMove) :
    m ∈ moves base target ↔ Moved base target m := by
  simp only [moves_eq, List.mem_filterMap, moveOf?_eq_some_iff, ClassGraph.nodeList,
    SortedMap.mem_values_iff]
  constructor
  · rintro ⟨t, ⟨name, hnode⟩, hsource, hname, htarget, hne⟩
    have hfound : target.node? m.name = some t := by
      rw [hname, (ht.node_name hnode).1]
      exact hnode
    exact ⟨hsource, by rw [hfound, htarget]; rfl, hne⟩
  · rintro ⟨hsource, htarget, hne⟩
    obtain ⟨t, hnode, hmodule⟩ := Option.map_eq_some_iff.mp htarget
    exact ⟨t, ⟨m.name, hnode⟩, hsource, (ht.node_name hnode).1.symm, hmodule.symm, hne⟩

/-- The moves are listed by class, each once. -/
theorem increasingBy_moves (ht : target.WellFormed) : IncreasingBy (·.name) (moves base target) := by
  have hnodes : IncreasingBy (·.unit.name) target.nodeList :=
    SortedMap.increasingBy_values fun hnode => (ht.node_name hnode).1
  rw [moves_eq]
  refine List.Pairwise.filterMap _ ?_ hnodes
  intro t t' hbefore m hm m' hm'
  dsimp only
  rwa [(moveOf?_eq_some_iff.mp hm).2.1, (moveOf?_eq_some_iff.mp hm').2.1]

/-- A class that has moved moves back the other way round. -/
theorem Moved.reversed {m : ClassMove} (h : Moved base target m) : Moved target base m.reversed :=
  ⟨h.2.1, h.1, h.2.2.symm⟩

/-- Compared the other way round the graphs show the moves back, in the same order. -/
theorem moves_reversed (hb : base.WellFormed) (ht : target.WellFormed) :
    moves target base = (moves base target).map ClassMove.reversed := by
  have hreversed : IncreasingBy (·.name) ((moves base target).map ClassMove.reversed) :=
    IncreasingBy.map (increasingBy_moves ht)
  apply (increasingBy_moves hb).eq_of_mem_iff hreversed
  intro m
  rw [mem_moves_iff hb, List.mem_map]
  constructor
  · intro hm
    exact ⟨m.reversed, (mem_moves_iff ht _).mpr hm.reversed, rfl⟩
  · rintro ⟨m', hm', rfl⟩
    exact ((mem_moves_iff ht m').mp hm').reversed

/-- The modules that a change touches are the same in both directions: each is read off the graph in
which the change stands. -/
theorem compare_reversed (hb : base.WellFormed) (ht : target.WellFormed) (i j : Text) :
    compare target base j i = (compare base target i j).reversed := by
  have hmoves := moves_reversed hb ht
  have haffected : ∀ {xs ys : List Text}, (∀ x, x ∈ xs ↔ x ∈ ys) → sortDistinct xs = sortDistinct ys := by
    intro xs ys hsame
    apply (increasingBy_sortDistinct xs).eq_of_mem_iff (increasingBy_sortDistinct ys)
    intro x
    rw [mem_sortDistinct, mem_sortDistinct, hsame]
  simp only [compare, reversed, hmoves, List.length_map, List.map_map]
  congr 2
  · omega
  · congr 2
    apply haffected
    intro x
    simp only [List.mem_append, List.mem_map, Function.comp_apply, ClassMove.reversed]
    grind
  · congr 1
    · omega
    · exact Nat.max_comm ..

/-- What a difference says about two graphs. -/
structure Compares (d : GraphDiff) (base target : ClassGraph) : Prop where
  classes : LeadsTo id base.classSet target.classSet d.classesAdded d.classesRemoved
  edges : LeadsTo ClassPair.ends base.edgeSet target.edgeSet d.edgesAdded d.edgesRemoved
  moduleEdges : LeadsTo ClassPair.ends (ModuleGraph.project base).edgeSet
    (ModuleGraph.project target).edgeSet d.moduleEdgesAdded d.moduleEdgesRemoved
  mem_classesMoved : ∀ m, m ∈ d.classesMoved ↔ Moved base target m
  increasing_classesMoved : IncreasingBy (·.name) d.classesMoved
  totalChanges : d.summary.totalChanges = d.classesAdded.length + d.classesRemoved.length +
    d.classesMoved.length + d.edgesAdded.length + d.edgesRemoved.length +
    d.moduleEdgesAdded.length + d.moduleEdgesRemoved.length
  totalChanges_eq_zero_iff : d.summary.totalChanges = 0 ↔ base.SameShape target

/-- The difference between two graphs is found, says what changed between them, and is the same one
read backwards if they change places. -/
theorem compare?_exact (hbase : base.Reachable) (htarget : target.Reachable) (i j : Text) :
    ∃ d, compare? (some base) (some target) i j = .ok d ∧ d.Compares base target ∧
      compare? (some target) (some base) j i = .ok d.reversed := by
  have hb := hbase.wellFormed
  have ht := htarget.wellFormed
  refine ⟨compare base target i j, rfl, ?_, by rw [compare?, compare_reversed hb ht]⟩
  constructor
  case classes =>
    exact .of_mem_iff mem_newClasses_iff mem_newClasses_iff (increasingBy_newClasses ..)
      (increasingBy_newClasses ..)
  case edges =>
    exact .of_mem_iff (mem_newEdges_iff ht) (mem_newEdges_iff hb) (increasingBy_newEdges ht _)
      (increasingBy_newEdges hb _)
  case moduleEdges =>
    exact .of_mem_iff mem_newModuleEdges_iff mem_newModuleEdges_iff
      (increasingBy_newModuleEdges ..) (increasingBy_newModuleEdges ..)
  case mem_classesMoved => exact mem_moves_iff ht
  case increasing_classesMoved => exact increasingBy_moves ht
  case totalChanges =>
    simp only [compare]
    omega
  case totalChanges_eq_zero_iff =>
    rw [← isEmpty_compare_iff hb ht i j, isEmpty, beq_iff_eq]

/-- Two modules, one of which depends on the other. -/
def layered : ClassGraph :=
  (ClassGraph.new "/p" ⟨9, 9⟩).runCalls [
    .addNode ⟨"a.A", "a", "/p/m/A", "m"⟩, .addNode ⟨"a.B", "a", "/p/m/B", "m"⟩,
    .addNode ⟨"k.C", "k", "/p/k/C", "k"⟩, .addEdge "a.B" "k.C" ⟨1⟩, .addEdge "a.A" "a.B" ⟨2⟩,
    .freeze 5]

/-- The same project after one of its classes moved, another one went and a third one came. -/
def relayered : ClassGraph :=
  (ClassGraph.new "/p" ⟨9, 9⟩).runCalls [
    .addNode ⟨"k.D", "k", "/p/k/D", "k"⟩, .addNode ⟨"a.A", "a", "/p/m/A", "m"⟩,
    .addNode ⟨"a.B", "a", "/p/k/B", "k"⟩, .addEdge "k.D" "a.A" ⟨1⟩, .addEdge "a.A" "a.B" ⟨1⟩,
    .freeze 6]

/-- A class that moved between modules is shown as moved, and the difference read backwards is the
difference the other way round. -/
theorem compare?_exact_relayered : layered.Reachable ∧ relayered.Reachable ∧
    ∃ d, compare? (some layered) (some relayered) "old" "new" = .ok d ∧ d.Compares layered relayered ∧
      compare? (some relayered) (some layered) "new" "old" = .ok d.reversed ∧
      d.classesMoved = [⟨"a.B", "m", "k"⟩] ∧ 0 < d.summary.totalChanges := by
  have hbase : layered.Reachable := ⟨_, _, _, rfl⟩
  have htarget : relayered.Reachable := ⟨_, _, _, rfl⟩
  obtain ⟨d, hd, hcompares, hreversed⟩ := compare?_exact hbase htarget "old" "new"
  obtain rfl : compare layered relayered "old" "new" = d := Except.ok.inj hd
  have hmoved : (compare layered relayered "old" "new").classesMoved = [⟨"a.B", "m", "k"⟩] := by
    decide
  have htotal := hcompares.totalChanges
  rw [hmoved, List.length_singleton] at htotal
  exact ⟨hbase, htarget, _, hd, hcompares, hreversed, hmoved, by omega⟩

end GraphDiff

end ClassAtlas
