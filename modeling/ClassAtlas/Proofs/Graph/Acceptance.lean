import ClassAtlas.Proofs.Graph.Loading
import Mathlib.Data.Finset.Card

namespace ClassAtlas

/-- The two classes that an edge of a document joins. -/
def EdgeRecord.ends (e : EdgeRecord) : Text × Text := (e.source, e.target)

/-- An edge of a document without its label. -/
def EdgeRecord.edge (e : EdgeRecord) : ClassEdge := ⟨e.source, e.target, e.rules⟩

/-- The call that adds an edge of a document. -/
def EdgeRecord.call (e : EdgeRecord) : GraphCall := .addEdge e.source e.target e.rules

/-- The rules of all sets do not depend on their order. -/
theorem Rules.unionAll_perm {sets sets' : List Rules} (h : sets.Perm sets') :
    Rules.unionAll sets = Rules.unionAll sets' := by
  apply h.foldl_eq'
  intro r _ s _ t
  simp only [Rules.union, UInt8.or_assoc, UInt8.or_comm r.bits]

namespace ClassGraph

open GraphDocument

variable {g g' : ClassGraph}

/-- In which order edges were given does not matter for what is recorded of them. -/
theorem Recorded.of_perm {given given' : List ClassEdge} (h : g.Recorded given)
    (hperm : given.Perm given') : g.Recorded given' := by
  intro source target
  have hrules : (rulesBetween given source target).Perm (rulesBetween given' source target) :=
    (hperm.filter _).map _
  have hempty : rulesBetween given source target = [] ↔ rulesBetween given' source target = [] := by
    rw [← List.length_eq_zero_iff, ← List.length_eq_zero_iff, hrules.length_eq]
  rw [h source target, Rules.unionAll_perm hrules]
  simp only [hempty]

/-- The edges of a graph are the only ones between their ends. -/
theorem WellFormed.recorded_edgeList (h : g.WellFormed) : g.Recorded g.edgeList := by
  intro source target
  have hmem : ∀ e, e ∈ g.edgeList.filter (fun e => e.source == source && e.target == target) ↔
      g.edge? source target = some e := by
    intro e
    rw [h.edge?_eq_some_iff, List.mem_filter, mem_edgeList]
    simp [ClassEdge.ends]
  unfold rulesBetween
  cases hedge : g.edge? source target with
  | none =>
    have hnone : g.edgeList.filter (fun e => e.source == source && e.target == target) = [] :=
      List.eq_nil_iff_forall_not_mem.mpr fun e he => absurd ((hmem e).mp he) (by simp [hedge])
    simp [hnone]
  | some e =>
    have hone : g.edgeList.filter (fun e => e.source == source && e.target == target) = [e] := by
      apply (h.increasingBy_edgeList.filter _).eq_of_mem_iff (List.pairwise_singleton _ _)
      intro d
      rw [hmem, hedge, List.mem_singleton, Option.some.injEq, eq_comm]
    simp [hone]

/-- Calls that add modules succeed on a graph that is not frozen, and add those with a name. -/
theorem perform_addModule (modules : List Text) (hfrozen : g.frozen = false) :
    g.perform (modules.map .addModule) =
      .ok { g with named := (modules.filter (!·.isEmpty)).foldl SortedSet.add g.named } :=
  (foldlM_eq_ok_iff .addModule .addingModule).mp (addModules_eq_ok modules hfrozen)

/-- Classes are added one after the other exactly if they have new names of their own and there is room
for all of them. -/
theorem perform_addNode_iff {units : List SourceUnit} (hfrozen : g.frozen = false) :
    g.perform (units.map .addNode) = .ok g' ↔
      (∀ u ∈ units, u.name ≠ [] ∧ g.nodes.find? u.name = none) ∧ (units.map (·.name)).Nodup ∧
        (g.nodeCount + units.length : Int) ≤ max (g.nodeCount : Int) g.limits.nodes ∧
        { g with nodes := placeAll units g.nodes } = g' := by
  induction units generalizing g with
  | nil =>
    rw [List.map_nil, perform_nil_eq_ok_iff]
    simp [placeAll]
  | cons u rest ih =>
    let added : ClassGraph := { g with nodes := g.nodes.insert u.name ⟨u, [], []⟩ }
    have hrest := ih (g := added) hfrozen
    have hfree : ∀ name, added.nodes.find? name = none ↔ name ≠ u.name ∧ g.nodes.find? name = none := by
      intro name
      by_cases hname : name = u.name <;> simp [added, SortedMap.find?_insert, hname]
    rw [List.map_cons, perform_cons_eq_ok_iff]
    change (∃ g₁, g.addNode u = .ok g₁ ∧ _) ↔ _
    simp only [List.forall_mem_cons, List.map_cons, List.nodup_cons, List.length_cons]
    constructor
    · rintro ⟨g₁, hadd, hperform⟩
      obtain ⟨-, hname, hfresh, hroom, rfl⟩ := addNode_eq_ok_iff.mp hadd
      obtain ⟨hnew, hnodup, hfits, hresult⟩ := hrest.mp hperform
      have hcount : added.nodeCount = g.nodeCount + 1 :=
        SortedMap.size_insert_of_find?_eq_none hfresh _
      refine ⟨⟨⟨hname, hfresh⟩, ?_⟩, ⟨?_, hnodup⟩, ?_, hresult⟩
      · intro v hv
        obtain ⟨hv_name, hv_fresh⟩ := hnew v hv
        exact ⟨hv_name, ((hfree v.name).mp hv_fresh).2⟩
      · intro hmem
        obtain ⟨v, hv, hsame⟩ := List.mem_map.mp hmem
        exact ((hfree v.name).mp (hnew v hv).2).1 hsame
      · rw [hcount] at hfits
        have hlimits : added.limits = g.limits := rfl
        rw [hlimits] at hfits
        omega
    · rintro ⟨⟨⟨hname, hfresh⟩, hnew⟩, ⟨hother, hnodup⟩, hfits, hresult⟩
      have hroom : (g.nodeCount : Int) < g.limits.nodes := by omega
      have hcount : added.nodeCount = g.nodeCount + 1 :=
        SortedMap.size_insert_of_find?_eq_none hfresh _
      refine ⟨added, addNode_eq_ok_iff.mpr ⟨hfrozen, hname, hfresh, hroom, rfl⟩, hrest.mpr ?_⟩
      refine ⟨?_, hnodup, ?_, hresult⟩
      · intro v hv
        obtain ⟨hv_name, hv_fresh⟩ := hnew v hv
        exact ⟨hv_name, (hfree v.name).mpr ⟨fun hsame => hother (hsame ▸ List.mem_map_of_mem hv), hv_fresh⟩⟩
      · rw [hcount]
        change _ ≤ max _ g.limits.nodes
        omega

/-- The pairs of classes with an edge between them. -/
def pairs (g : ClassGraph) : Finset (Text × Text) := g.places.keys.toFinset

/-- A well-formed graph has one edge for each pair of classes with an edge between them. -/
theorem WellFormed.card_pairs (h : g.WellFormed) : g.pairs.card = g.edgeCount := by
  have hnodup : g.places.keys.Nodup := (SortedMap.increasingBy_keys g.places).nodup
  rw [pairs, List.toFinset_card_of_nodup hnodup, h.keys_perm.length_eq, List.length_map]
  rfl

/-- An edge that is added, new or not, puts its ends among the pairs and changes no other pair. -/
theorem addEdge_pairs {source target : Text} {rules : Rules}
    (hadd : g.addEdge source target rules = .ok g') : g'.pairs = insert (source, target) g.pairs := by
  ext p
  simp only [pairs, List.mem_toFinset, SortedMap.mem_keys_iff, Finset.mem_insert]
  obtain ⟨-, -, -, -, ⟨place, hplace, rfl⟩ | ⟨-, -, rfl⟩⟩ := addEdge_eq_ok_iff.mp hadd
  · refine ⟨Or.inr, ?_⟩
    rintro (rfl | hp)
    · exact SortedMap.contains_iff.mpr ⟨place, hplace⟩
    · exact hp
  · simp [link]

/-- An edge that is added changes neither the state of the graph nor its limits nor its classes. -/
theorem addEdge_keeps {source target : Text} {rules : Rules}
    (hadd : g.addEdge source target rules = .ok g') :
    g'.frozen = g.frozen ∧ g'.limits = g.limits ∧
      ∀ name, g'.nodes.contains name = g.nodes.contains name := by
  obtain ⟨-, -, -, -, ⟨place, -, rfl⟩ | ⟨-, -, rfl⟩⟩ := addEdge_eq_ok_iff.mp hadd
  · exact ⟨rfl, rfl, fun _ => rfl⟩
  · exact ⟨rfl, rfl, link_contains g source target rules⟩

/-- The pairs are those that have a place in the index. -/
theorem mem_pairs_iff {source target : Text} :
    (source, target) ∈ g.pairs ↔ ∃ place, g.places.find? (source, target) = some place := by
  rw [pairs, List.mem_toFinset, SortedMap.mem_keys_iff, SortedMap.contains_iff]

/-- An edge is added exactly if it joins two different classes and there is room for the pairs of classes
that are then joined; a pair that is joined already takes no room. -/
theorem WellFormed.exists_addEdge_iff (h : g.WellFormed) (hfrozen : g.frozen = false)
    {source target : Text} (rules : Rules) :
    (∃ g', g.addEdge source target rules = .ok g') ↔
      (source ≠ target ∧ g.nodes.contains source = true ∧ g.nodes.contains target = true) ∧
        ((insert (source, target) g.pairs).card : Int) ≤ max (g.edgeCount : Int) g.limits.edges := by
  have hcard := h.card_pairs
  constructor
  · rintro ⟨g', hadd⟩
    obtain ⟨-, hne, hsource, htarget, hedge⟩ := addEdge_eq_ok_iff.mp hadd
    refine ⟨⟨hne, hsource, htarget⟩, ?_⟩
    rcases hedge with ⟨place, hplace, -⟩ | ⟨-, hroom, -⟩
    · rw [Finset.insert_eq_of_mem (mem_pairs_iff.mpr ⟨place, hplace⟩)]
      omega
    · have hle := Finset.card_insert_le (source, target) g.pairs
      omega
  · rintro ⟨⟨hne, hsource, htarget⟩, hfits⟩
    cases hplace : g.places.find? (source, target) with
    | some place =>
      exact ⟨_, addEdge_eq_ok_iff.mpr
        ⟨hfrozen, hne, hsource, htarget, Or.inl ⟨place, hplace, rfl⟩⟩⟩
    | none =>
      have hfresh : (source, target) ∉ g.pairs := by simp [mem_pairs_iff, hplace]
      rw [Finset.card_insert_of_notMem hfresh] at hfits
      have hroom : (g.edgeCount : Int) < g.limits.edges := by omega
      exact ⟨_, addEdge_eq_ok_iff.mpr
        ⟨hfrozen, hne, hsource, htarget, Or.inr ⟨hplace, hroom, rfl⟩⟩⟩

/-- There is room for as many edges as before. -/
theorem WellFormed.max_edges_of_addEdge (h : g.WellFormed) {source target : Text} {rules : Rules}
    (hadd : g.addEdge source target rules = .ok g') :
    max (g'.edgeCount : Int) g'.limits.edges = max (g.edgeCount : Int) g.limits.edges := by
  have hfits := ((h.exists_addEdge_iff (addEdge_eq_ok_iff.mp hadd).1 rules).mp ⟨g', hadd⟩).2
  rw [← addEdge_pairs hadd, (h.addEdge hadd).card_pairs] at hfits
  have hgrows : g.edgeCount ≤ g'.edgeCount := by
    rw [← h.card_pairs, ← (h.addEdge hadd).card_pairs, addEdge_pairs hadd]
    exact Finset.card_le_card (Finset.subset_insert _ _)
  rw [(addEdge_keeps hadd).2.1]
  omega

/-- Edges are added one after the other exactly if each joins two different classes and there is room for
all the pairs of classes that are then joined. -/
theorem WellFormed.exists_perform_addEdge_iff {edges : List EdgeRecord} (h : g.WellFormed)
    (hfrozen : g.frozen = false) :
    (∃ g', g.perform (edges.map EdgeRecord.call) = .ok g') ↔
      (∀ e ∈ edges, e.source ≠ e.target ∧ g.nodes.contains e.source = true ∧
        g.nodes.contains e.target = true) ∧
      ((g.pairs ∪ (edges.map EdgeRecord.ends).toFinset).card : Int) ≤
        max (g.edgeCount : Int) g.limits.edges := by
  induction edges generalizing g with
  | nil => simp [perform_nil_eq_ok_iff, h.card_pairs]
  | cons e rest ih =>
    have hunion : g.pairs ∪ ((e :: rest).map EdgeRecord.ends).toFinset =
        insert e.ends g.pairs ∪ (rest.map EdgeRecord.ends).toFinset := by
      rw [List.map_cons, List.toFinset_cons, Finset.union_insert, Finset.insert_union]
    -- the first edge only moves its pair over to those of the graph
    have hlater : ∀ {g₁}, g.addEdge e.source e.target e.rules = .ok g₁ →
        ((∃ g', g₁.perform (rest.map EdgeRecord.call) = .ok g') ↔
          (∀ e ∈ rest, e.source ≠ e.target ∧ g.nodes.contains e.source = true ∧
            g.nodes.contains e.target = true) ∧
          ((g.pairs ∪ ((e :: rest).map EdgeRecord.ends).toFinset).card : Int) ≤
            max (g.edgeCount : Int) g.limits.edges) := by
      intro g₁ hadd
      obtain ⟨hsame, -, hcontains⟩ := addEdge_keeps hadd
      rw [ih (h.addEdge hadd) (hsame.trans hfrozen), h.max_edges_of_addEdge hadd, hunion,
        addEdge_pairs hadd]
      simp only [hcontains]
      rfl
    rw [List.map_cons, List.forall_mem_cons]
    simp only [perform_cons_eq_ok_iff]
    constructor
    · rintro ⟨g', g₁, hadd, hrest⟩
      obtain ⟨hjoined, hfits⟩ := (hlater hadd).mp ⟨g', hrest⟩
      exact ⟨⟨((h.exists_addEdge_iff hfrozen e.rules).mp ⟨g₁, hadd⟩).1, hjoined⟩, hfits⟩
    · rintro ⟨⟨hfirst, hjoined⟩, hfits⟩
      have hroom : ((insert e.ends g.pairs).card : Int) ≤ max (g.edgeCount : Int) g.limits.edges := by
        have hle : (insert e.ends g.pairs).card ≤
            (g.pairs ∪ ((e :: rest).map EdgeRecord.ends).toFinset).card :=
          Finset.card_le_card (hunion ▸ Finset.subset_union_left)
        omega
      obtain ⟨g₁, hadd⟩ := (h.exists_addEdge_iff hfrozen e.rules).mpr ⟨hfirst, hroom⟩
      obtain ⟨g', hrest⟩ := (hlater hadd).mpr ⟨hjoined, hfits⟩
      exact ⟨g', g₁, hadd, hrest⟩

end ClassGraph

namespace GraphDocument

open ClassGraph

variable {doc doc' : GraphDocument} {limits : GraphLimits} {g g' : ClassGraph}

/-- A document from which a graph is built within limits. -/
@[mk_iff]
structure Acceptable (doc : GraphDocument) (limits : GraphLimits) : Prop where
  schema : doc.schema = currentSchema
  names : ∀ u ∈ doc.nodes, u.name ≠ []
  distinct : (doc.nodes.map (·.name)).Nodup
  nodes : (doc.nodes.length : Int) ≤ max 0 limits.nodes
  joins : ∀ e ∈ doc.edges, e.source ≠ e.target ∧ e.source ∈ doc.nodes.map (·.name) ∧
    e.target ∈ doc.nodes.map (·.name)
  edges : ((doc.edges.map EdgeRecord.ends).toFinset.card : Int) ≤ max 0 limits.edges

instance (doc : GraphDocument) (limits : GraphLimits) : Decidable (doc.Acceptable limits) :=
  decidable_of_iff' _ (acceptable_iff doc limits)

/-- The graph with the modules and the classes of a document. -/
def withoutEdges (doc : GraphDocument) (limits : GraphLimits) : ClassGraph :=
  { ClassGraph.new doc.root limits with
    named := (doc.modules.filter (!·.isEmpty)).foldl SortedSet.add SortedMap.empty
    nodes := placeAll doc.nodes SortedMap.empty }

/-- The modules and classes of a document are accepted exactly if the classes have names, all of them
different, and are not too many. The names of modules may be any. -/
theorem perform_withoutEdges_iff :
    (ClassGraph.new doc.root limits).perform
        (doc.modules.map .addModule ++ doc.nodes.map .addNode) = .ok g ↔
      (∀ u ∈ doc.nodes, u.name ≠ []) ∧ (doc.nodes.map (·.name)).Nodup ∧
        (doc.nodes.length : Int) ≤ max 0 limits.nodes ∧ doc.withoutEdges limits = g := by
  let named : ClassGraph := { ClassGraph.new doc.root limits with
    named := (doc.modules.filter (!·.isEmpty)).foldl SortedSet.add SortedMap.empty }
  have hmodules : (ClassGraph.new doc.root limits).perform (doc.modules.map .addModule) = .ok named :=
    perform_addModule doc.modules rfl
  have hempty : ∀ name, named.nodes.find? name = none := SortedMap.find?_empty
  have hcount : (named.nodeCount : Int) = 0 := rfl
  have hlimits : named.limits = limits := rfl
  rw [perform_append_eq_ok_iff]
  simp only [hmodules, Except.ok.injEq, exists_eq_left']
  rw [perform_addNode_iff rfl]
  simp only [hempty, and_true, hcount, hlimits, Int.zero_add]
  rfl

/-- The graph without edges has the classes of the document. -/
theorem contains_withoutEdges (name : Text) :
    (doc.withoutEdges limits).nodes.contains name = true ↔ name ∈ doc.nodes.map (·.name) := by
  refine (contains_placeAll doc.nodes SortedMap.empty name).trans ?_
  simp [SortedMap.contains]

/-- A document is read exactly if it is acceptable within the limits. -/
theorem exists_toGraph_iff : (∃ g, doc.toGraph limits = .ok g) ↔ doc.Acceptable limits := by
  have hpairs : (doc.withoutEdges limits).pairs = ∅ := rfl
  have hcount : ((doc.withoutEdges limits).edgeCount : Int) = 0 := rfl
  have hlimits : (doc.withoutEdges limits).limits = limits := rfl
  have hedges : (doc.withoutEdges limits).WellFormed →
      ((∃ g, (doc.withoutEdges limits).perform (doc.edges.map EdgeRecord.call) = .ok g) ↔
        (∀ e ∈ doc.edges, e.source ≠ e.target ∧ e.source ∈ doc.nodes.map (·.name) ∧
          e.target ∈ doc.nodes.map (·.name)) ∧
        ((doc.edges.map EdgeRecord.ends).toFinset.card : Int) ≤ max 0 limits.edges) := by
    intro h
    rw [h.exists_perform_addEdge_iff rfl]
    simp only [contains_withoutEdges, hpairs, hcount, hlimits, Finset.empty_union]
  constructor
  · rintro ⟨g, hread⟩
    obtain ⟨hschema, hrun⟩ := toGraph_eq_ok_iff.mp hread
    rw [calls, ← List.append_assoc] at hrun
    obtain ⟨peopled, hpeople, hrest⟩ := perform_append_eq_ok_iff.mp hrun
    obtain ⟨linked, hlink, -⟩ := perform_append_eq_ok_iff.mp hrest
    obtain ⟨hnames, hdistinct, hnodes, rfl⟩ := perform_withoutEdges_iff.mp hpeople
    obtain ⟨hjoins, hroom⟩ := (hedges (given_of_perform hpeople).1).mp ⟨linked, hlink⟩
    exact ⟨hschema, hnames, hdistinct, hnodes, hjoins, hroom⟩
  · intro h
    have hpeople := perform_withoutEdges_iff.mpr ⟨h.names, h.distinct, h.nodes, rfl⟩
    obtain ⟨linked, hlink⟩ := (hedges (given_of_perform hpeople).1).mpr ⟨h.joins, h.edges⟩
    refine ⟨linked.freeze doc.builtAt, toGraph_eq_ok_iff.mpr ⟨h.schema, ?_⟩⟩
    rw [calls, ← List.append_assoc]
    exact perform_append_eq_ok_iff.mpr
      ⟨_, hpeople, perform_append_eq_ok_iff.mpr ⟨linked, hlink, rfl⟩⟩

/-- The edges that the calls of a document add are those that it lists, in their order. -/
theorem filterMap_calls (doc : GraphDocument) :
    doc.calls.filterMap GraphCall.edge? = doc.edges.map EdgeRecord.edge := by
  have hfreeze : [GraphCall.freeze doc.builtAt].filterMap GraphCall.edge? = [] := rfl
  simp only [calls, List.filterMap_append, List.filterMap_map, Function.comp_def, GraphCall.edge?, hfreeze]
  simp [EdgeRecord.edge]

/-- A graph has what a document lists, and nothing else. Edges that are listed more than once are one
edge, with the rules of all of them. -/
structure Depicted (doc : GraphDocument) (g : ClassGraph) : Prop where
  reachable : g.Reachable
  frozen : g.frozen = true
  root : g.root = doc.root
  builtAt : g.builtAt = doc.builtAt
  unit_iff : ∀ name u, g.units.find? name = some u ↔ u ∈ doc.nodes ∧ u.name = name
  module_iff : ∀ m, m ∈ g.modules ↔ m ≠ [] ∧ (m ∈ doc.modules ∨ ∃ u ∈ doc.nodes, u.module = m)
  recorded : g.Recorded (doc.edges.map EdgeRecord.edge)

/-- The graph that is read from a document has what the document lists and nothing else. -/
theorem toGraph_depicted (hread : doc.toGraph limits = .ok g) : doc.Depicted g := by
  obtain ⟨-, hrun⟩ := toGraph_eq_ok_iff.mp hread
  obtain ⟨hwell, hgiven, hroot⟩ := given_of_perform hrun
  obtain ⟨_, -, hrest⟩ := perform_append_eq_ok_iff.mp hrun
  obtain ⟨_, -, hrest⟩ := perform_append_eq_ok_iff.mp hrest
  obtain ⟨linked, -, hfreeze⟩ := perform_append_eq_ok_iff.mp hrest
  have hfrozen : linked.freeze doc.builtAt = g := Except.ok.inj hfreeze
  have hunits := units_toGraph hread
  refine ⟨toGraph_reachable hread, hfrozen ▸ rfl, hroot, hfrozen ▸ rfl, hunits, ?_, ?_⟩
  · intro m
    have hnamed : .addModule m ∈ doc.calls ↔ m ∈ doc.modules := by simp [calls]
    rw [mem_modules_iff, hgiven.named_iff, hnamed]
    simp only [hunits]
    grind
  · exact filterMap_calls doc ▸ hgiven.recorded

/-- The same modules, classes and edges in another order, where the hash, the edges between modules and
the labels of edges may be any. -/
structure Rearranged (doc doc' : GraphDocument) : Prop where
  schema : doc.schema = doc'.schema
  root : doc.root = doc'.root
  builtAt : doc.builtAt = doc'.builtAt
  modules : doc.modules.Perm doc'.modules
  nodes : doc.nodes.Perm doc'.nodes
  edges : (doc.edges.map EdgeRecord.edge).Perm (doc'.edges.map EdgeRecord.edge)

/-- Whether a document is acceptable does not depend on its order. -/
theorem Rearranged.acceptable (hsame : doc.Rearranged doc') (h : doc.Acceptable limits) :
    doc'.Acceptable limits := by
  have hends : ∀ doc : GraphDocument, doc.edges.map EdgeRecord.ends =
      (doc.edges.map EdgeRecord.edge).map ClassEdge.ends := by
    intro doc
    rw [List.map_map]
    rfl
  have hnames := hsame.nodes.map (·.name)
  constructor
  case schema => exact hsame.schema ▸ h.schema
  case names =>
    intro u hu
    exact h.names u (hsame.nodes.mem_iff.mpr hu)
  case distinct => exact hnames.nodup_iff.mp h.distinct
  case nodes => exact hsame.nodes.length_eq ▸ h.nodes
  case joins =>
    intro e he
    obtain ⟨d, hd, hde⟩ := List.mem_map.mp (hsame.edges.mem_iff.mpr (List.mem_map_of_mem he))
    obtain ⟨hsource, htarget, -⟩ := ClassEdge.mk.inj hde
    have hjoins := h.joins d hd
    rw [hsource, htarget, hnames.mem_iff, hnames.mem_iff] at hjoins
    exact hjoins
  case edges =>
    have hedges := h.edges
    rw [hends, List.toFinset_eq_of_perm _ _ (hsame.edges.map ClassEdge.ends), ← hends] at hedges
    exact hedges

/-- A graph that a document depicts is depicted by it in every order. -/
theorem Depicted.rearranged (h : doc.Depicted g) (hsame : doc.Rearranged doc') : doc'.Depicted g := by
  constructor
  case reachable => exact h.reachable
  case frozen => exact h.frozen
  case root => exact h.root.trans hsame.root
  case builtAt => exact h.builtAt.trans hsame.builtAt
  case unit_iff =>
    intro name u
    rw [h.unit_iff, hsame.nodes.mem_iff]
  case module_iff =>
    intro m
    simp only [h.module_iff, hsame.modules.mem_iff, hsame.nodes.mem_iff]
  case recorded => exact h.recorded.of_perm hsame.edges

/-- All that a graph shows is in the document that depicts it. -/
theorem Depicted.alike (h : doc.Depicted g) (h' : doc.Depicted g') :
    g.Alike g' ∧ ofGraph g = ofGraph g' := by
  have hwell := h.reachable.wellFormed
  have hwell' := h'.reachable.wellFormed
  have hunits : g.units = g'.units := by
    apply SortedMap.ext
    intro name
    apply Option.ext
    intro u
    rw [h.unit_iff, h'.unit_iff]
  have hedges : g.edgeList = g'.edgeList := by
    apply hwell.increasingBy_edgeList.eq_of_mem_iff hwell'.increasingBy_edgeList
    intro e
    rw [mem_edgeList, mem_edgeList, hwell.mem_edges_iff, hwell'.mem_edges_iff, h.recorded, h'.recorded]
  have hmodules : g.modules = g'.modules := by
    apply (SortedMap.increasingBy_keys _).eq_of_mem_iff (SortedMap.increasingBy_keys _)
    intro m
    exact (h.module_iff m).trans (h'.module_iff m).symm
  have halike := hwell.alike hwell' (h.root.trans h'.root.symm) hunits hedges hmodules
  exact ⟨halike, halike.document (h.builtAt.trans h'.builtAt.symm)⟩

/-- The document of a frozen graph depicts the graph. -/
theorem depicted_ofGraph (hg : g.Reachable) (hfrozen : g.frozen = true) : (ofGraph g).Depicted g := by
  have hwell := hg.wellFormed
  have hunits : ∀ name u, g.units.find? name = some u ↔ u ∈ (ofGraph g).nodes ∧ u.name = name := by
    intro name u
    rw [units_find?, Option.map_eq_some_iff, mem_ofGraph_nodes]
    constructor
    · rintro ⟨n, hn, rfl⟩
      exact ⟨⟨name, n, hn, rfl⟩, (hwell.node_name hn).1⟩
    · rintro ⟨⟨name', n, hn, rfl⟩, hname⟩
      obtain rfl := (hwell.node_name hn).1.symm.trans hname
      exact ⟨n, hn, rfl⟩
  refine ⟨hg, hfrozen, rfl, rfl, hunits, ?_, ?_⟩
  · intro m
    constructor
    · intro hm
      exact ⟨hwell.ne_nil_of_mem_modules hm, Or.inl hm⟩
    · rintro ⟨hne, hm | ⟨u, hu, hm⟩⟩
      · exact hm
      · exact mem_modules_iff.mpr (Or.inr ⟨hne, u.name, u, (hunits u.name u).mpr ⟨hu, rfl⟩, hm⟩)
  · have hedges : (ofGraph g).edges.map EdgeRecord.edge = g.edgeList := by
      rw [ofGraph, List.map_map]
      exact List.map_id _
    exact hedges ▸ hwell.recorded_edgeList

/-- A graph that was read keeps the limits that it was read within. -/
theorem toGraph_limits (hread : doc.toGraph limits = .ok g) : g.limits = limits := by
  let keeps : ClassGraph → List GraphCall → Prop := fun g _ => g.limits = limits
  have hstart : keeps (ClassGraph.new doc.root limits) [] := rfl
  refine perform_induction ?_ hstart (toGraph_eq_ok_iff.mp hread).2
  intro g done call g' hlimits hcall
  have hafter : g.after call = g' := by simp [after, hcall]
  change g'.limits = limits
  rw [← hafter, after_limits]
  exact hlimits

/-- The document of a graph is accepted within the limits of the graph. -/
theorem acceptable_ofGraph (h : g.WellFormed) : (ofGraph g).Acceptable g.limits := by
  obtain ⟨hschema, hnames, hdistinct, hjoins, -⟩ := consistent_ofGraph h
  obtain ⟨hnodes, hedges⟩ := length_ofGraph g
  refine ⟨hschema, hnames, hdistinct, hnodes ▸ h.nodes_le, hjoins, ?_⟩
  have hcard := List.toFinset_card_le ((ofGraph g).edges.map EdgeRecord.ends)
  have hroom : (g.edgeCount : Int) ≤ max 0 g.limits.edges := h.edges_le
  rw [List.length_map, hedges] at hcard
  omega

/-- A document gives a graph exactly if it is well formed and there is room for it. The graph shows what
the document lists, in whatever order it is listed and whatever the document says about its hash, its
edges between modules and the labels of its edges; and its own document is read and written back
unchanged. -/
theorem toGraph_canonical (doc : GraphDocument) (limits : GraphLimits) :
    ((∃ g, doc.toGraph limits = .ok g) ↔ doc.Acceptable limits) ∧
    ∀ g, doc.toGraph limits = .ok g →
      doc.Depicted g ∧
      (∀ doc', doc.Rearranged doc' →
        ∃ g', doc'.toGraph limits = .ok g' ∧ g.Alike g' ∧ ofGraph g = ofGraph g') ∧
      ∃ g', (ofGraph g).toGraph limits = .ok g' ∧ ofGraph g' = ofGraph g := by
  refine ⟨exists_toGraph_iff, ?_⟩
  intro g hread
  have hdepicted := toGraph_depicted hread
  refine ⟨hdepicted, ?_, ?_⟩
  · intro doc' hsame
    obtain ⟨g', hread'⟩ := exists_toGraph_iff.mpr (hsame.acceptable (exists_toGraph_iff.mp ⟨g, hread⟩))
    exact ⟨g', hread', (hdepicted.rearranged hsame).alike (toGraph_depicted hread')⟩
  · have haccepted := acceptable_ofGraph hdepicted.reachable.wellFormed
    rw [toGraph_limits hread] at haccepted
    obtain ⟨g', hread'⟩ := exists_toGraph_iff.mpr haccepted
    have hown := depicted_ofGraph hdepicted.reachable hdepicted.frozen
    exact ⟨g', hread', ((toGraph_depicted hread').alike hown).2⟩

/-- A document with an edge in two parts, classes and modules out of order, and a hash and labels that
are not those of its graph. -/
def untidyDocument : GraphDocument where
  schema := "1.0"
  root := "/p"
  builtAt := 7
  hash := "none"
  modules := ["z", [], "k", "z"]
  nodes := [⟨"b.B", "b", "/p/B", "m"⟩, ⟨"a.A", "a", "/p/A", []⟩]
  edges := [⟨"b.B", "a.A", "import", ⟨4⟩⟩, ⟨"b.B", "a.A", [], ⟨129⟩⟩]
  moduleEdges := [⟨"m", "m", []⟩]

/-- The edge takes the room of one. -/
theorem toGraph_canonical_untidyDocument :
    untidyDocument.Acceptable ⟨2, 1⟩ ∧
    ∃ g, untidyDocument.toGraph ⟨2, 1⟩ = .ok g ∧ g.modules = ["k", "m", "z"] ∧
      g.edgeList = [⟨"b.B", "a.A", ⟨133⟩⟩] ∧ untidyDocument.Depicted g ∧
      ∃ g', (ofGraph g).toGraph ⟨2, 1⟩ = .ok g' ∧ ofGraph g' = ofGraph g := by
  have haccepted : untidyDocument.Acceptable ⟨2, 1⟩ := by decide +kernel
  obtain ⟨hiff, hresult⟩ := toGraph_canonical untidyDocument ⟨2, 1⟩
  obtain ⟨g, hread⟩ := hiff.mpr haccepted
  have hshown : (untidyDocument.toGraph ⟨2, 1⟩).map (fun g => (g.modules, g.edgeList)) =
      .ok (["k", "m", "z"], [⟨"b.B", "a.A", ⟨133⟩⟩]) := by decide +kernel
  rw [hread] at hshown
  obtain ⟨hmodules, hedges⟩ := Prod.mk.inj (Except.ok.inj hshown)
  obtain ⟨hdepicted, -, hown⟩ := hresult g hread
  exact ⟨haccepted, g, hread, hmodules, hedges, hdepicted, hown⟩

end GraphDocument

end ClassAtlas
