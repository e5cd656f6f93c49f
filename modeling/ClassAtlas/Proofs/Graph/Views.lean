import ClassAtlas.Proofs.Graph.WellFormed

namespace ClassAtlas

/-- The two ends of an edge. -/
def ClassEdge.ends (e : ClassEdge) : Text × Text := (e.source, e.target)

namespace ClassGraph

variable {g : ClassGraph}

/-- No two edges of a well-formed graph have the same ends. -/
theorem WellFormed.ends_nodup (h : g.WellFormed) : (g.edges.toList.map ClassEdge.ends).Nodup := by
  rw [List.nodup_iff_pairwise_ne, List.pairwise_map, List.pairwise_iff_getElem]
  intro i j hi hj hlt heq
  obtain ⟨hsource, htarget⟩ := Prod.mk.inj heq
  have hsize : ∀ {k} (hk : k < g.edges.toList.length), g.edges[k]? = some g.edges.toList[k] := by
    intro k hk
    rw [← Array.getElem?_toList, List.getElem?_eq_getElem hk]
  have hfirst := h.place_iff.mpr ⟨_, hsize hi, hsource, htarget⟩
  rw [h.place_iff.mpr ⟨_, hsize hj, rfl, rfl⟩] at hfirst
  have hplace := Option.some.inj hfirst
  omega

/-- The index finds exactly the edges of the list, by their ends. -/
theorem WellFormed.edge?_eq_some_iff (h : g.WellFormed) {source target : Text} {e : ClassEdge} :
    g.edge? source target = some e ↔ e ∈ g.edges ∧ e.ends = (source, target) := by
  unfold edge?
  rw [Option.bind_eq_some_iff, Array.mem_iff_getElem?]
  constructor
  · rintro ⟨place, hplace, he⟩
    obtain ⟨d, hd, hsource, htarget⟩ := h.place_iff.mp hplace
    rw [hd] at he
    obtain rfl := Option.some.inj he
    exact ⟨⟨place, hd⟩, Prod.ext hsource htarget⟩
  · rintro ⟨⟨place, he⟩, hends⟩
    obtain ⟨hsource, htarget⟩ := Prod.mk.inj hends
    exact ⟨place, h.place_iff.mpr ⟨e, he, hsource, htarget⟩, he⟩

/-- The graph says that it has an edge exactly if one of its edges has these ends. -/
theorem WellFormed.hasEdge_iff (h : g.WellFormed) {source target : Text} :
    g.hasEdge source target = true ↔ ∃ e ∈ g.edges, e.ends = (source, target) := by
  constructor
  · intro hhas
    obtain ⟨place, hplace⟩ := SortedMap.contains_iff.mp hhas
    obtain ⟨e, he, hsource, htarget⟩ := h.place_iff.mp hplace
    exact ⟨e, Array.mem_of_getElem? he, Prod.ext hsource htarget⟩
  · rintro ⟨e, he, hends⟩
    obtain ⟨place, hplace⟩ := Array.mem_iff_getElem?.mp he
    obtain ⟨hsource, htarget⟩ := Prod.mk.inj hends
    exact SortedMap.contains_iff.mpr ⟨place, h.place_iff.mpr ⟨e, hplace, hsource, htarget⟩⟩

/-- The list of edges has all edges. -/
@[simp] theorem mem_edgeList {e : ClassEdge} : e ∈ g.edgeList ↔ e ∈ g.edges := by
  simp [edgeList]

/-- The edges are listed by their ends, each once. -/
theorem WellFormed.increasingBy_edgeList (h : g.WellFormed) :
    IncreasingBy ClassEdge.ends g.edgeList :=
  increasingBy_sortBy h.ends_nodup

/-- The list has as many edges as the graph counts. -/
@[simp] theorem length_edgeList (g : ClassGraph) : g.edgeList.length = g.edgeCount := by
  simp [edgeList, edgeCount]

/-- The edges at places that a node holds are those with the node at one of their ends. -/
theorem Listed.mem_filterMap_iff {held : ClassNode → List Nat} {tip : ClassEdge → Text}
    (h : g.Listed held tip) {name : Text} {n : ClassNode} (hn : g.nodes.find? name = some n)
    {e : ClassEdge} :
    e ∈ (held n).filterMap (g.edges[·]?) ↔ e ∈ g.edges ∧ tip e = name := by
  rw [List.mem_filterMap, Array.mem_iff_getElem?]
  constructor
  · rintro ⟨place, hplace, he⟩
    obtain ⟨d, hd, htip⟩ := (h.mem_iff hn).mp hplace
    rw [hd] at he
    obtain rfl := Option.some.inj he
    exact ⟨⟨place, hd⟩, htip⟩
  · rintro ⟨⟨place, he⟩, htip⟩
    exact ⟨place, (h.mem_iff hn).mpr ⟨e, he, htip⟩, he⟩

/-- The edges held at a node are different edges. -/
theorem Listed.filterMap_nodup {held : ClassNode → List Nat} {tip : ClassEdge → Text}
    (h : g.Listed held tip) (hg : g.WellFormed) {name : Text} {n : ClassNode}
    (hn : g.nodes.find? name = some n) : ((held n).filterMap (g.edges[·]?)).Nodup := by
  refine (h.nodup hn).filterMap ?_
  intro i j e hi hj
  -- an edge stands at one place only, the one that the index gives for its ends
  have hplace := hg.place_iff.mpr ⟨e, hi, rfl, rfl⟩
  rw [hg.place_iff.mpr ⟨e, hj, rfl, rfl⟩] at hplace
  exact (Option.some.inj hplace).symm

/-- Every place that a node holds is the place of an edge. -/
theorem Listed.length_filterMap {held : ClassNode → List Nat} {tip : ClassEdge → Text}
    (h : g.Listed held tip) {name : Text} {n : ClassNode} (hn : g.nodes.find? name = some n) :
    ((held n).filterMap (g.edges[·]?)).length = (held n).length := by
  rw [List.length_filterMap_eq_countP, List.countP_eq_length]
  intro place hplace
  obtain ⟨e, he, -⟩ := (h.mem_iff hn).mp hplace
  simp [he]

/-- The edges that leave a node are those of the graph that start there. -/
theorem WellFormed.mem_edgesOut_iff (h : g.WellFormed) {name : Text} {n : ClassNode}
    (hn : g.node? name = some n) {e : ClassEdge} :
    e ∈ g.edgesOut n ↔ e ∈ g.edges ∧ e.source = name :=
  h.outgoing.mem_filterMap_iff hn

/-- The edges that enter a node are those of the graph that end there. -/
theorem WellFormed.mem_edgesIn_iff (h : g.WellFormed) {name : Text} {n : ClassNode}
    (hn : g.node? name = some n) {e : ClassEdge} :
    e ∈ g.edgesIn n ↔ e ∈ g.edges ∧ e.target = name :=
  h.incoming.mem_filterMap_iff hn

/-- Each edge that leaves a node is listed there once, in some order. -/
theorem WellFormed.edgesOut_perm (h : g.WellFormed) {name : Text} {n : ClassNode}
    (hn : g.node? name = some n) :
    (g.edgesOut n).Perm (g.edges.toList.filter fun e => e.source == name) := by
  unfold edgesOut
  rw [List.perm_ext_iff_of_nodup (h.outgoing.filterMap_nodup h hn)
    (h.ends_nodup.of_map _ |>.filter _)]
  intro e
  rw [h.outgoing.mem_filterMap_iff hn]
  simp

/-- Each edge that enters a node is listed there once, in some order. -/
theorem WellFormed.edgesIn_perm (h : g.WellFormed) {name : Text} {n : ClassNode}
    (hn : g.node? name = some n) :
    (g.edgesIn n).Perm (g.edges.toList.filter fun e => e.target == name) := by
  unfold edgesIn
  rw [List.perm_ext_iff_of_nodup (h.incoming.filterMap_nodup h hn)
    (h.ends_nodup.of_map _ |>.filter _)]
  intro e
  rw [h.incoming.mem_filterMap_iff hn]
  simp

/-- The nodes of a frozen graph show their edges by the class at the other end. -/
theorem WellFormed.increasingBy_edgesOut (h : g.WellFormed) (hfrozen : g.frozen = true)
    {name : Text}
    {n : ClassNode} (hn : g.node? name = some n) : IncreasingBy (·.target) (g.edgesOut n) := by
  refine List.Pairwise.filterMap _ ?_ (h.sorted hfrozen hn).1
  intro i j hbefore d hd e he
  simpa [targetAt, hd, he] using hbefore

/-- In a frozen graph the edges that enter a node are listed by their other end. -/
theorem WellFormed.increasingBy_edgesIn (h : g.WellFormed) (hfrozen : g.frozen = true) {name : Text}
    {n : ClassNode} (hn : g.node? name = some n) : IncreasingBy (·.source) (g.edgesIn n) := by
  refine List.Pairwise.filterMap _ ?_ (h.sorted hfrozen hn).2
  intro i j hbefore d hd e he
  simpa [sourceAt, hd, he] using hbefore

/-- Both ends of an edge are nodes. -/
theorem WellFormed.node_of_mem (h : g.WellFormed) {e : ClassEdge} (he : e ∈ g.edges) :
    (∃ n, g.node? e.source = some n) ∧ ∃ n, g.node? e.target = some n := by
  obtain ⟨place, hplace⟩ := Array.mem_iff_getElem?.mp he
  obtain ⟨-, hsource, htarget⟩ := h.ends hplace
  exact ⟨SortedMap.contains_iff.mp hsource, SortedMap.contains_iff.mp htarget⟩

/-- A class depends on another one if there is an edge between them. -/
theorem WellFormed.mem_dependencies_iff (h : g.WellFormed) {source target : Text} :
    (∃ ds, g.dependencies? source = some ds ∧ target ∈ ds) ↔
      ∃ e ∈ g.edges, e.ends = (source, target) := by
  unfold dependencies?
  constructor
  · rintro ⟨ds, hds, hmem⟩
    obtain ⟨n, hn, rfl⟩ := Option.map_eq_some_iff.mp hds
    obtain ⟨e, he, htarget⟩ := List.mem_map.mp (mem_sortBy.mp hmem)
    obtain ⟨hedge, hsource⟩ := (h.mem_edgesOut_iff hn).mp he
    exact ⟨e, hedge, Prod.ext hsource htarget⟩
  · rintro ⟨e, he, hends⟩
    obtain ⟨hsource, htarget⟩ := Prod.mk.inj hends
    obtain ⟨⟨n, hn⟩, -⟩ := h.node_of_mem he
    rw [hsource] at hn
    refine ⟨_, by rw [hn, Option.map_some], mem_sortBy.mpr (List.mem_map.mpr ⟨e, ?_, htarget⟩)⟩
    exact (h.mem_edgesOut_iff hn).mpr ⟨he, hsource⟩

/-- The dependents of a class are those from which an edge leads to it. -/
theorem WellFormed.mem_dependents_iff (h : g.WellFormed) {source target : Text} :
    (∃ ds, g.dependents? target = some ds ∧ source ∈ ds) ↔
      ∃ e ∈ g.edges, e.ends = (source, target) := by
  unfold dependents?
  constructor
  · rintro ⟨ds, hds, hmem⟩
    obtain ⟨n, hn, rfl⟩ := Option.map_eq_some_iff.mp hds
    obtain ⟨e, he, hsource⟩ := List.mem_map.mp (mem_sortBy.mp hmem)
    obtain ⟨hedge, htarget⟩ := (h.mem_edgesIn_iff hn).mp he
    exact ⟨e, hedge, Prod.ext hsource htarget⟩
  · rintro ⟨e, he, hends⟩
    obtain ⟨hsource, htarget⟩ := Prod.mk.inj hends
    obtain ⟨-, n, hn⟩ := h.node_of_mem he
    rw [htarget] at hn
    refine ⟨_, by rw [hn, Option.map_some], mem_sortBy.mpr (List.mem_map.mpr ⟨e, ?_, hsource⟩)⟩
    exact (h.mem_edgesIn_iff hn).mpr ⟨he, htarget⟩

end ClassGraph

end ClassAtlas
