import ClassAtlas.Proofs.Graph.Diff
import ClassAtlas.Proofs.Graph.Document
import Mathlib.Data.Finset.Dedup

namespace ClassAtlas

/-- A text without the bar and the newline, the two bytes that divide the text of a structure. -/
def IsPlain (t : Text) : Prop := 124 ∉ t ∧ Text.newline ∉ t

instance : DecidablePred IsPlain := fun t => inferInstanceAs (Decidable (124 ∉ t ∧ Text.newline ∉ t))

/-- A line in the text of a structure. -/
inductive StructureLine where
  | module (name : Text)
  | node (name home : Text)
  | edge (source target : Text)

namespace StructureLine

/-- What stands in a line before its newline. -/
def body : StructureLine → Text
  | module name => 109 :: 124 :: name
  | node name home => 110 :: 124 :: (name ++ 124 :: home)
  | edge source target => 101 :: 124 :: (source ++ 124 :: target)

/-- All names in a line are plain. -/
def Plain : StructureLine → Prop
  | module name => IsPlain name
  | node name home => IsPlain name ∧ IsPlain home
  | edge source target => IsPlain source ∧ IsPlain target

/-- The module of a line that is for one. -/
def module? : StructureLine → Option Text
  | module name => some name
  | _ => none

/-- The class of a line that is for one, with its module. -/
def node? : StructureLine → Option (Text × Text)
  | node name home => some (name, home)
  | _ => none

/-- The ends of a line that is for an edge. -/
def edge? : StructureLine → Option (Text × Text)
  | edge source target => some (source, target)
  | _ => none

/-- A line with plain names has no newline inside. -/
theorem Plain.newline_not_mem {l : StructureLine} (h : l.Plain) : Text.newline ∉ l.body := by
  have hmarks : Text.newline ≠ 109 ∧ Text.newline ≠ 110 ∧ Text.newline ≠ 101 ∧ Text.newline ≠ 124 := by
    decide
  cases l with
  | module name => simpa [body, hmarks] using h.2
  | node name home => simpa [body, hmarks] using ⟨h.1.2, h.2.2⟩
  | edge source target => simpa [body, hmarks] using ⟨h.1.2, h.2.2⟩

/-- The first byte tells the kind of a line, and the first bar behind the mark ends its first name. -/
theorem Plain.body_inj {l l' : StructureLine} (h : l.Plain) (hbody : l.body = l'.body) : l = l' := by
  have hpair : ∀ {a b a' b' : Text}, IsPlain a → IsPlain b → a ++ 124 :: b = a' ++ 124 :: b' →
      a = a' ∧ b = b' := by
    intro a b a' b' ha hb heq
    obtain ⟨hfirst, -, hsecond⟩ := (List.append_cons_inj_of_notMem ha.1 hb.1).mp heq
    exact ⟨hfirst, hsecond⟩
  cases l <;> cases l' <;>
    simp only [body, List.cons.injEq, true_and] at hbody
  case module.module => rw [hbody]
  case node.node =>
    obtain ⟨rfl, rfl⟩ := hpair h.1 h.2 hbody
    rfl
  case edge.edge =>
    obtain ⟨rfl, rfl⟩ := hpair h.1 h.2 hbody
    rfl
  all_goals exact absurd hbody.1 (by decide)

/-- The lines can be read off a text one by one, since each ends at its first newline. -/
theorem flatMap_inj {lines lines' : List StructureLine} (h : ∀ l ∈ lines, l.Plain)
    (h' : ∀ l ∈ lines', l.Plain)
    (htext : lines.flatMap (fun l => l.body ++ [Text.newline]) =
      lines'.flatMap fun l => l.body ++ [Text.newline]) : lines = lines' := by
  have hcut : ∀ {a a' r r' : Text}, Text.newline ∉ a → Text.newline ∉ a' →
      a ++ Text.newline :: r = a' ++ Text.newline :: r' → a = a' ∧ r = r' := by
    intro a a' r r' ha ha' heq
    induction a generalizing a' with
    | nil =>
      cases a' with
      | nil => exact ⟨rfl, (List.cons.inj heq).2⟩
      | cons b a' => exact absurd ((List.cons.inj heq).1 ▸ List.mem_cons_self) ha'
    | cons b a ih =>
      cases a' with
      | nil => exact absurd ((List.cons.inj heq).1 ▸ List.mem_cons_self) ha
      | cons b' a' =>
        obtain ⟨rfl, hrest⟩ := List.cons.inj heq
        obtain ⟨rfl, hr⟩ := ih (List.not_mem_of_not_mem_cons ha) (List.not_mem_of_not_mem_cons ha') hrest
        exact ⟨rfl, hr⟩
  induction lines generalizing lines' with
  | nil =>
    cases lines' with
    | nil => rfl
    | cons l' rest' => simp at htext
  | cons l rest ih =>
    cases lines' with
    | nil => simp at htext
    | cons l' rest' =>
      rw [List.forall_mem_cons] at h h'
      simp only [List.flatMap_cons, List.append_assoc, List.singleton_append] at htext
      obtain ⟨hbody, hrest⟩ := hcut h.1.newline_not_mem h'.1.newline_not_mem htext
      rw [h.1.body_inj hbody, ih h.2 h'.2 hrest]

end StructureLine

/-- Ordered lists are the same if they have the same elements. -/
theorem IncreasingBy.toFinset_eq_iff {α κ : Type} [KeyOrder κ] [DecidableEq α] {key : α → κ}
    {xs ys : List α} (hx : IncreasingBy key xs) (hy : IncreasingBy key ys) :
    xs.toFinset = ys.toFinset ↔ xs = ys := by
  constructor
  · intro h
    apply hx.eq_of_mem_iff hy
    intro x
    rw [← List.mem_toFinset, h, List.mem_toFinset]
  · rintro rfl
    rfl

namespace ClassGraph

variable {g g' : ClassGraph}

/-- The names of all classes and modules are plain. -/
structure PlainNames (g : ClassGraph) : Prop where
  classes : ∀ name ∈ g.nodes.keys, IsPlain name
  modules : ∀ m ∈ g.modules, IsPlain m

/-- The classes with their modules, by name. -/
def homes (g : ClassGraph) : List (Text × Text) := g.nodeList.map fun n => (n.unit.name, n.unit.module)

/-- The pairs of classes with an edge between them, in the order of the list of edges. -/
def links (g : ClassGraph) : List (Text × Text) := g.edgeList.map ClassEdge.ends

/-- The lines of a structure: modules, classes and edges, each kind in its order. -/
def structureLines (g : ClassGraph) : List StructureLine :=
  g.modules.map .module ++ g.homes.map (fun p => .node p.1 p.2) ++ g.links.map fun p => .edge p.1 p.2

/-- The text of a structure is made of its lines, each with a newline behind it. -/
theorem structureText_eq (g : ClassGraph) :
    g.structureText = g.structureLines.flatMap fun l => l.body ++ [Text.newline] := by
  have hmodule : moduleLine = fun m => StructureLine.body (.module m) ++ [Text.newline] := rfl
  have hnode : nodeLine =
      fun n => StructureLine.body (.node n.unit.name n.unit.module) ++ [Text.newline] := by
    funext n
    have hbar : Text.ofString "|" = [124] := rfl
    have hmark : Text.ofString "n|" = [110, 124] := rfl
    simp only [nodeLine, StructureLine.body, hbar, hmark, List.append_assoc, List.cons_append,
      List.nil_append]
    rfl
  have hedge : edgeLine = fun e => StructureLine.body (.edge e.source e.target) ++ [Text.newline] := by
    funext e
    have hbar : Text.ofString "|" = [124] := rfl
    have hmark : Text.ofString "e|" = [101, 124] := rfl
    simp only [edgeLine, StructureLine.body, hbar, hmark, List.append_assoc, List.cons_append,
      List.nil_append]
    rfl
  simp only [structureText, structureLines, homes, links, List.flatMap_append, List.flatMap_map,
    List.map_map, Function.comp_def, ClassEdge.ends, hmodule, hnode, hedge]

/-- The kinds of lines can be told apart, so the list of lines is the three lists in it. -/
theorem structureLines_eq_iff : g.structureLines = g'.structureLines ↔
    g.modules = g'.modules ∧ g.homes = g'.homes ∧ g.links = g'.links := by
  have hmodules : ∀ g : ClassGraph, g.structureLines.filterMap StructureLine.module? = g.modules := by
    intro g
    simp [structureLines, List.filterMap_map, Function.comp_def, StructureLine.module?]
  have hhomes : ∀ g : ClassGraph, g.structureLines.filterMap StructureLine.node? = g.homes := by
    intro g
    simp [structureLines, List.filterMap_map, Function.comp_def, StructureLine.node?]
  have hlinks : ∀ g : ClassGraph, g.structureLines.filterMap StructureLine.edge? = g.links := by
    intro g
    simp [structureLines, List.filterMap_map, Function.comp_def, StructureLine.edge?]
  constructor
  · intro h
    rw [← hmodules g, ← hhomes g, ← hlinks g, h, hmodules, hhomes, hlinks]
    exact ⟨rfl, rfl, rfl⟩
  · rintro ⟨hmodules, hhomes, hlinks⟩
    rw [structureLines, structureLines, hmodules, hhomes, hlinks]

/-- A module of a class is plain: it is empty or one of the modules of the graph. -/
theorem PlainNames.structureLines (h : g.PlainNames) (hg : g.WellFormed) :
    ∀ l ∈ g.structureLines, l.Plain := by
  have hclass : ∀ {name n}, g.node? name = some n → IsPlain name :=
    fun hn => h.classes _ (SortedMap.mem_keys_of_find? hn)
  have hhome : ∀ {name n}, g.node? name = some n → IsPlain n.unit.module := by
    intro name n hn
    by_cases hempty : n.unit.module = []
    · rw [hempty]
      decide
    · apply h.modules
      exact mem_modules_iff.mpr (Or.inr ⟨hempty, name, n.unit, units_of_node? hn, rfl⟩)
  intro l hl
  simp only [ClassGraph.structureLines, homes, links, List.mem_append, List.mem_map] at hl
  obtain (⟨m, hm, rfl⟩ | ⟨_, ⟨n, hn, rfl⟩, rfl⟩) | ⟨_, ⟨e, he, rfl⟩, rfl⟩ := hl
  · exact h.modules m hm
  · obtain ⟨name, hname⟩ := SortedMap.mem_values_iff.mp hn
    rw [(hg.node_name hname).1]
    exact ⟨hclass hname, hhome hname⟩
  · obtain ⟨⟨n, hn⟩, k, hk⟩ := hg.node_of_mem (mem_edgeList.mp he)
    exact ⟨hclass hn, hclass hk⟩

/-- The classes stand in the order of their names. -/
theorem WellFormed.increasingBy_homes (hg : g.WellFormed) : IncreasingBy Prod.fst g.homes :=
  IncreasingBy.map (SortedMap.increasingBy_values fun hn => (hg.node_name hn).1)

/-- The pairs stand in order. -/
theorem WellFormed.increasingBy_links (hg : g.WellFormed) : IncreasingBy id g.links :=
  IncreasingBy.map hg.increasingBy_edgeList

/-- The pairs are those of all edges. -/
theorem toFinset_links (g : ClassGraph) :
    g.links.toFinset = (g.edges.toList.map ClassEdge.ends).toFinset :=
  List.toFinset_eq_of_perm _ _ ((sortBy_perm _ _).map _)

/-- Graphs list the same classes and modules exactly if each class has the same module in both. -/
theorem WellFormed.homes_eq_iff (hg : g.WellFormed) (hg' : g'.WellFormed) :
    g.homes = g'.homes ↔
      ∀ name, (g.node? name).map (·.unit.module) = (g'.node? name).map (·.unit.module) := by
  have hmem : ∀ {g : ClassGraph}, g.WellFormed → ∀ p, p ∈ g.homes ↔
      (g.node? p.1).map (·.unit.module) = some p.2 := by
    intro g hg p
    simp only [homes, List.mem_map, nodeList, SortedMap.mem_values_iff, Option.map_eq_some_iff]
    constructor
    · rintro ⟨n, ⟨name, hn⟩, rfl⟩
      exact ⟨n, (hg.node_name hn).1 ▸ hn, rfl⟩
    · rintro ⟨n, hn, hmodule⟩
      exact ⟨n, ⟨p.1, hn⟩, Prod.ext (hg.node_name hn).1 hmodule⟩
  constructor
  · intro h name
    apply Option.ext
    intro m
    rw [← hmem hg (name, m), ← hmem hg' (name, m), h]
  · intro h
    apply hg.increasingBy_homes.eq_of_mem_iff hg'.increasingBy_homes
    intro p
    rw [hmem hg, hmem hg', h]

/-- Graphs list the same pairs exactly if they have edges between the same classes, whatever their
rules. -/
theorem WellFormed.links_eq_iff (hg : g.WellFormed) (hg' : g'.WellFormed) :
    g.links = g'.links ↔ ∀ source target, g.hasEdge source target = g'.hasEdge source target := by
  have hmem : ∀ {g : ClassGraph}, g.WellFormed → ∀ p, p ∈ g.links ↔ g.hasEdge p.1 p.2 = true := by
    intro g hg p
    simp only [links, List.mem_map, mem_edgeList, hg.hasEdge_iff]
  constructor
  · intro h source target
    rw [Bool.eq_iff_iff, ← hmem hg (source, target), ← hmem hg' (source, target), h]
  · intro h
    apply hg.increasingBy_links.eq_of_mem_iff hg'.increasingBy_links
    intro p
    rw [hmem hg, hmem hg', h]

/-- If all names are plain, the three lists can be read off the text. -/
theorem WellFormed.structureText_eq_iff_lists (hg : g.WellFormed) (hg' : g'.WellFormed)
    (h : g.PlainNames) (h' : g'.PlainNames) :
    g.structureText = g'.structureText ↔
      g.modules = g'.modules ∧ g.homes = g'.homes ∧ g.links = g'.links := by
  rw [← structureLines_eq_iff, structureText_eq, structureText_eq]
  exact ⟨StructureLine.flatMap_inj (h.structureLines hg) (h'.structureLines hg'), fun heq => by rw [heq]⟩

/-- Two graphs with plain names have the same text exactly if they have the same modules and the same
shape. -/
theorem WellFormed.structureText_eq_iff (hg : g.WellFormed) (hg' : g'.WellFormed) (h : g.PlainNames)
    (h' : g'.PlainNames) :
    g.structureText = g'.structureText ↔ g.modules = g'.modules ∧ g.SameShape g' := by
  rw [hg.structureText_eq_iff_lists hg' h h', hg.homes_eq_iff hg', hg.links_eq_iff hg']
  exact and_congr_right fun _ => ⟨fun ⟨hmodule, hedge⟩ => ⟨hmodule, hedge⟩, fun h => ⟨h.module, h.hasEdge⟩⟩

/-- Two graphs with plain names have the same text exactly if they have the same modules, the same classes
in the same modules and the same edges between them. -/
theorem structureText_identifies (hg : g.Reachable) (hg' : g'.Reachable) (h : g.PlainNames)
    (h' : g'.PlainNames) :
    g.structureText = g'.structureText ↔ g.modules = g'.modules ∧
      g.homes.toFinset = g'.homes.toFinset ∧
      (g.edges.toList.map ClassEdge.ends).toFinset = (g'.edges.toList.map ClassEdge.ends).toFinset := by
  have hw := hg.wellFormed
  have hw' := hg'.wellFormed
  rw [hw.structureText_eq_iff_lists hw' h h', ← toFinset_links, ← toFinset_links,
    hw.increasingBy_homes.toFinset_eq_iff hw'.increasingBy_homes,
    hw.increasingBy_links.toFinset_eq_iff hw'.increasingBy_links]

/-- Classes and modules with the marks of lines for their names, of which one class is in no module and
one module has no classes. -/
def markedGraph : ClassGraph :=
  (ClassGraph.new "/p" ⟨9, 9⟩).runCalls [
    .addModule "m", .addNode ⟨"e", [], "/p/e", "n"⟩, .addNode ⟨"m", [], "/p/m", []⟩,
    .addNode ⟨"n", [], "/p/n", "e"⟩, .addEdge "m" "n" ⟨1⟩, .addEdge "e" "m" ⟨2⟩, .freeze 5]

/-- The same structure under another root, built in another order and by other rules. -/
def remarkedGraph : ClassGraph :=
  (ClassGraph.new "/q" ⟨3, 2⟩).runCalls [
    .addNode ⟨"n", "k", "/q/n", "e"⟩, .addNode ⟨"m", "k", "/q/m", []⟩, .addModule "n",
    .addNode ⟨"e", "k", "/q/e", "n"⟩, .addEdge "e" "m" ⟨4⟩, .addEdge "m" "n" ⟨4⟩,
    .addEdge "e" "m" ⟨1⟩, .addModule "m"]

/-- The same names in the same number of lines, where a module and an edge have changed places. -/
def mismarkedGraph : ClassGraph :=
  (ClassGraph.new "/p" ⟨9, 9⟩).runCalls [
    .addModule "m", .addNode ⟨"e", [], "/p/e", "n"⟩, .addNode ⟨"m", [], "/p/m", "e"⟩,
    .addNode ⟨"n", [], "/p/n", []⟩, .addEdge "n" "m" ⟨1⟩, .addEdge "e" "m" ⟨2⟩, .freeze 5]

/-- Names such as the marks of lines do not make two structures look alike. -/
theorem structureText_identifies_markedGraph :
    (markedGraph.Reachable ∧ remarkedGraph.Reachable ∧ mismarkedGraph.Reachable) ∧
    (markedGraph.PlainNames ∧ remarkedGraph.PlainNames ∧ mismarkedGraph.PlainNames) ∧
    markedGraph.structureText = remarkedGraph.structureText ∧
    markedGraph.modules = mismarkedGraph.modules ∧
    markedGraph.structureText ≠ mismarkedGraph.structureText := by
  have hg : markedGraph.Reachable := ⟨_, _, _, rfl⟩
  have hre : remarkedGraph.Reachable := ⟨_, _, _, rfl⟩
  have hmis : mismarkedGraph.Reachable := ⟨_, _, _, rfl⟩
  have hplain : markedGraph.PlainNames := ⟨by decide, by decide⟩
  have hplainRe : remarkedGraph.PlainNames := ⟨by decide, by decide⟩
  have hplainMis : mismarkedGraph.PlainNames := ⟨by decide, by decide⟩
  have hsame := (structureText_identifies hg hre hplain hplainRe).mpr (by decide)
  have hother : markedGraph.homes.toFinset ≠ mismarkedGraph.homes.toFinset := by decide
  refine ⟨⟨hg, hre, hmis⟩, ⟨hplain, hplainRe, hplainMis⟩, hsame, by decide, ?_⟩
  intro htext
  exact hother ((structureText_identifies hg hmis hplain hplainMis).mp htext).2.1

/-- The modules in which no class is. -/
def vacantModules (g : ClassGraph) : List Text := g.modules.filter fun m => (g.classesIn m).isEmpty

/-- No class is listed for a module exactly if none is in it. -/
theorem isEmpty_classesIn_iff {m : Text} : (g.classesIn m).isEmpty = true ↔
    ∀ name, (g.node? name).map (·.unit.module) ≠ some m := by
  simp only [classesIn, List.isEmpty_iff, List.map_eq_nil_iff, List.filter_eq_nil_iff, beq_iff_eq,
    nodeList, SortedMap.mem_values_iff, ne_eq, Option.map_eq_some_iff, not_exists, not_and]
  constructor
  · intro h name n hn
    exact h n ⟨name, hn⟩
  · rintro h n ⟨name, hn⟩
    exact h name n hn

/-- A module with a class is listed exactly if it has a name. -/
theorem WellFormed.mem_modules_of_class (hg : g.WellFormed) {m : Text}
    (hm : (g.classesIn m).isEmpty = false) : m ∈ g.modules ↔ m ≠ [] := by
  rw [← Bool.not_eq_true, isEmpty_classesIn_iff] at hm
  push Not at hm
  obtain ⟨name, hname⟩ := hm
  obtain ⟨n, hn, hmodule⟩ := Option.map_eq_some_iff.mp hname
  constructor
  · exact hg.ne_nil_of_mem_modules
  · intro hne
    exact mem_modules_iff.mpr (Or.inr ⟨hne, name, n.unit, units_of_node? hn, hmodule⟩)

/-- Where the shapes are the same, only modules without classes can differ. -/
theorem SameShape.modules_eq_iff (h : g.SameShape g') (hg : g.WellFormed) (hg' : g'.WellFormed) :
    g.modules = g'.modules ↔ g.vacantModules = g'.vacantModules := by
  have hclasses : ∀ m, (g.classesIn m).isEmpty = (g'.classesIn m).isEmpty := by
    intro m
    rw [Bool.eq_iff_iff, isEmpty_classesIn_iff, isEmpty_classesIn_iff]
    simp only [h.module]
  constructor
  · intro hmodules
    simp only [vacantModules, hmodules, hclasses]
  · intro hvacant
    apply (SortedMap.increasingBy_keys _).eq_of_mem_iff (SortedMap.increasingBy_keys _)
    intro m
    change m ∈ g.modules ↔ m ∈ g'.modules
    cases hm : (g.classesIn m).isEmpty with
    | true =>
      have hmem : ∀ {g : ClassGraph}, (g.classesIn m).isEmpty = true →
          (m ∈ g.modules ↔ m ∈ g.vacantModules) := by
        intro g hm
        simp [vacantModules, hm]
      rw [hmem hm, hmem ((hclasses m).symm.trans hm), hvacant]
    | false =>
      rw [hg.mem_modules_of_class hm, hg'.mem_modules_of_class ((hclasses m).symm.trans hm)]

end ClassGraph

namespace GraphDiff

variable {base target : ClassGraph}

/-- Two graphs with plain names have the same text exactly if their difference is empty and they have
the same modules without classes. The difference does not look at those, so it can be empty where the
texts are not the same. -/
theorem structureText_eq_iff_isEmpty (hbase : base.Reachable) (htarget : target.Reachable)
    (hplain : base.PlainNames) (hplain' : target.PlainNames) (i j : Text) :
    ∃ d, compare? (some base) (some target) i j = .ok d ∧
      (base.structureText = target.structureText ↔
        d.isEmpty = true ∧ base.vacantModules = target.vacantModules) := by
  have hb := hbase.wellFormed
  have ht := htarget.wellFormed
  refine ⟨compare base target i j, rfl, ?_⟩
  rw [hb.structureText_eq_iff ht hplain hplain', isEmpty_compare_iff hb ht, and_comm]
  exact and_congr_right fun hshape => hshape.modules_eq_iff hb ht

/-- Two classes in one module, and a module without classes. -/
def settled : ClassGraph :=
  (ClassGraph.new "/p" ⟨9, 9⟩).runCalls [
    .addModule "z", .addNode ⟨"a.A", "a", "/p/m/A", "m"⟩, .addNode ⟨"a.B", "a", "/p/m/B", "m"⟩,
    .addEdge "a.A" "a.B" ⟨1⟩, .freeze 5]

/-- The same structure under another root, built in another order and by other rules. -/
def resettled : ClassGraph :=
  (ClassGraph.new "/q" ⟨2, 1⟩).runCalls [
    .addNode ⟨"a.B", "b", "/q/B", "m"⟩, .addNode ⟨"a.A", "b", "/q/A", "m"⟩,
    .addEdge "a.A" "a.B" ⟨2⟩, .addModule "m", .addModule "z"]

/-- The same without the module that has no classes. -/
def cleared : ClassGraph :=
  (ClassGraph.new "/p" ⟨9, 9⟩).runCalls [
    .addNode ⟨"a.A", "a", "/p/m/A", "m"⟩, .addNode ⟨"a.B", "a", "/p/m/B", "m"⟩,
    .addEdge "a.A" "a.B" ⟨1⟩, .freeze 5]

/-- Another root, another order and other rules give the same text. -/
theorem structureText_eq_resettled : settled.Reachable ∧ resettled.Reachable ∧ settled.PlainNames ∧
    resettled.PlainNames ∧ settled.vacantModules = ["z"] ∧
    settled.structureText = resettled.structureText := by
  have hbase : settled.Reachable := ⟨_, _, _, rfl⟩
  have htarget : resettled.Reachable := ⟨_, _, _, rfl⟩
  have hplain : settled.PlainNames := ⟨by decide, by decide⟩
  have hplain' : resettled.PlainNames := ⟨by decide, by decide⟩
  have hvacant : settled.vacantModules = ["z"] ∧ resettled.vacantModules = ["z"] := by decide
  have hempty : (compare settled resettled "old" "new").isEmpty = true := by decide +kernel
  obtain ⟨d, hd, hsame⟩ := structureText_eq_iff_isEmpty hbase htarget hplain hplain' "old" "new"
  obtain rfl : compare settled resettled "old" "new" = d := Except.ok.inj hd
  exact ⟨hbase, htarget, hplain, hplain', hvacant.1,
    hsame.mpr ⟨hempty, hvacant.1.trans hvacant.2.symm⟩⟩

/-- A module without classes goes, and the difference is empty though the texts are not the same. -/
theorem isEmpty_compare_cleared : settled.Reachable ∧ cleared.Reachable ∧ settled.PlainNames ∧
    cleared.PlainNames ∧ (compare settled cleared "old" "new").isEmpty = true ∧
    settled.structureText ≠ cleared.structureText := by
  refine ⟨⟨_, _, _, rfl⟩, ⟨_, _, _, rfl⟩, ⟨?_, ?_⟩, ⟨?_, ?_⟩, ?_, ?_⟩
  all_goals decide +kernel

end GraphDiff

end ClassAtlas
