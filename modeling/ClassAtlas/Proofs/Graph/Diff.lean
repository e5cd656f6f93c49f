import ClassAtlas.Graph.Diff
import ClassAtlas.Proofs.Graph.Projection

namespace ClassAtlas

/-- Two graphs have the same classes in the same modules, and edges between the same classes. -/
structure ClassGraph.SameShape (g g' : ClassGraph) : Prop where
  module : ∀ name, (g.node? name).map (·.unit.module) = (g'.node? name).map (·.unit.module)
  hasEdge : ∀ source target, g.hasEdge source target = g'.hasEdge source target

namespace ClassGraph.SameShape

variable {g g' : ClassGraph}

/-- Two graphs have the same shape in either order. -/
theorem symm (h : g.SameShape g') : g'.SameShape g :=
  ⟨fun name => (h.module name).symm, fun source target => (h.hasEdge source target).symm⟩

/-- Graphs of the same shape have the same classes. -/
theorem contains_eq (h : g.SameShape g') (name : Text) :
    g.nodes.contains name = g'.nodes.contains name := by
  have hmodule := congrArg Option.isSome (h.module name)
  rw [Option.isSome_map, Option.isSome_map] at hmodule
  exact hmodule

/-- In graphs of the same shape each class has the same module. -/
theorem moduleOf_eq (h : g.SameShape g') (name : Text) : g.moduleOf name = g'.moduleOf name := by
  have hmodule := h.module name
  unfold moduleOf
  cases hn : g.node? name <;> cases hn' : g'.node? name <;> simp_all

/-- The edges between modules join the same modules. -/
theorem exists_moduleEdge (h : g.SameShape g') (hg : g.WellFormed) (hg' : g'.WellFormed)
    {source target : Text} (hedge : ∃ e ∈ (ModuleGraph.project g).edges, e.ends = (source, target)) :
    ∃ e ∈ (ModuleGraph.project g').edges, e.ends = (source, target) := by
  obtain ⟨hne, c, hc, hjoins⟩ := (ModuleGraph.exists_joins_iff hg source target).mp hedge
  have hhas : g.hasEdge c.source c.target = true := hg.hasEdge_iff.mpr ⟨c, hc, rfl⟩
  rw [h.hasEdge, hg'.hasEdge_iff] at hhas
  obtain ⟨c', hc', hends⟩ := hhas
  obtain ⟨hsource, htarget⟩ := Prod.mk.inj hends
  refine (ModuleGraph.exists_joins_iff hg' source target).mpr ⟨hne, c', hc', ?_⟩
  rw [hg'.joins_iff hc', hsource, htarget, ← h.moduleOf_eq, ← h.moduleOf_eq]
  exact (hg.joins_iff hc).mp hjoins

end ClassGraph.SameShape

namespace GraphDiff

variable {base target : ClassGraph}

/-- There are no new classes exactly if the other graph has all of them. -/
theorem newClasses_eq_nil_iff {g other : ClassGraph} :
    newClasses g other = [] ↔ ∀ name, g.nodes.contains name = true → other.nodes.contains name = true := by
  simp [newClasses, List.filter_eq_nil_iff, SortedMap.mem_keys_iff]

/-- There are no moves exactly if all common classes are in the same modules. The base need not be
well-formed. -/
theorem moves_eq_nil_iff (ht : target.WellFormed) :
    moves base target = [] ↔ ∀ name b t, base.node? name = some b → target.node? name = some t →
      b.unit.module = t.unit.module := by
  simp only [moves, List.filterMap_eq_nil_iff, ClassGraph.nodeList, SortedMap.mem_values_iff]
  constructor
  · intro h name b t hb ht'
    have hmove := h t ⟨name, ht'⟩
    rw [(ht.node_name ht').1, hb] at hmove
    simpa using hmove
  · rintro h t ⟨name, ht'⟩
    rw [(ht.node_name ht').1]
    cases hb : base.node? name with
    | none => rfl
    | some b => simp [h name b t hb ht']

/-- There are no new edges exactly if the other graph has edges between the same classes, whatever their
rules. -/
theorem newEdges_eq_nil_iff {g other : ClassGraph} (hg : g.WellFormed) :
    newEdges g other = [] ↔
      ∀ source target, g.hasEdge source target = true → other.hasEdge source target = true := by
  simp only [newEdges, List.map_eq_nil_iff, List.filter_eq_nil_iff, ClassGraph.mem_edgeList]
  constructor
  · intro h source target hhas
    obtain ⟨e, he, hends⟩ := hg.hasEdge_iff.mp hhas
    obtain ⟨rfl, rfl⟩ := Prod.mk.inj hends
    simpa using h e he
  · intro h e he
    have hhas := h e.source e.target (hg.hasEdge_iff.mpr ⟨e, he, rfl⟩)
    simp [hhas]

/-- Between graphs of the same shape there are no new module edges. -/
theorem newModuleEdges_eq_nil {g other : ClassGraph} (hg : g.WellFormed) (hother : other.WellFormed)
    (h : g.SameShape other) :
    newModuleEdges (ModuleGraph.project g) (ModuleGraph.project other) = [] := by
  simp only [newModuleEdges, List.map_eq_nil_iff, List.filter_eq_nil_iff]
  intro e he
  obtain ⟨e', he', hends⟩ := h.exists_moduleEdge hg hother ⟨e, he, rfl⟩
  have hfound := ModuleGraph.edge?_project_eq_some_iff.mpr ⟨he', hends⟩
  simp [hfound]

/-- The number of changes is that of all that is listed. -/
theorem isEmpty_compare (i j : Text) :
    (compare base target i j).isEmpty = true ↔ newClasses target base = [] ∧
      newClasses base target = [] ∧ moves base target = [] ∧ newEdges target base = [] ∧
      newEdges base target = [] ∧
      newModuleEdges (ModuleGraph.project target) (ModuleGraph.project base) = [] ∧
      newModuleEdges (ModuleGraph.project base) (ModuleGraph.project target) = [] := by
  simp only [← List.length_eq_zero_iff, isEmpty, compare, beq_iff_eq]
  omega

/-- Two graphs have no difference exactly if they have the same shape. -/
theorem isEmpty_compare_iff (hb : base.WellFormed) (ht : target.WellFormed) (i j : Text) :
    (compare base target i j).isEmpty = true ↔ base.SameShape target := by
  rw [isEmpty_compare, newClasses_eq_nil_iff, newClasses_eq_nil_iff, moves_eq_nil_iff ht,
    newEdges_eq_nil_iff ht, newEdges_eq_nil_iff hb]
  constructor
  · rintro ⟨hadded, hremoved, hmoved, hedgesAdded, hedgesRemoved, -, -⟩
    constructor
    · intro name
      have hcontains : base.nodes.contains name = target.nodes.contains name :=
        Bool.eq_iff_iff.mpr ⟨hremoved name, hadded name⟩
      cases hbase : base.node? name with
      | none =>
        have htarget : target.node? name = none := by
          rw [SortedMap.contains_eq_false_iff.mpr hbase] at hcontains
          exact SortedMap.contains_eq_false_iff.mp hcontains.symm
        rw [htarget]
      | some b =>
        rw [SortedMap.contains_iff.mpr ⟨b, hbase⟩] at hcontains
        obtain ⟨t, htarget⟩ := SortedMap.contains_iff.mp hcontains.symm
        change target.node? name = some t at htarget
        rw [htarget, Option.map_some, Option.map_some, hmoved name b t hbase htarget]
    · intro source target'
      exact Bool.eq_iff_iff.mpr ⟨hedgesRemoved source target', hedgesAdded source target'⟩
  · intro h
    refine ⟨fun name => ?_, fun name => ?_, ?_, fun source target' => ?_, fun source target' => ?_,
      newModuleEdges_eq_nil ht hb h.symm, newModuleEdges_eq_nil hb ht h⟩
    · rw [h.contains_eq]
      exact id
    · rw [h.contains_eq]
      exact id
    · intro name b t hbase htarget
      have hmodule := h.module name
      rw [hbase, htarget] at hmodule
      exact Option.some.inj hmodule
    · rw [h.hasEdge]
      exact id
    · rw [h.hasEdge]
      exact id

end GraphDiff

end ClassAtlas
