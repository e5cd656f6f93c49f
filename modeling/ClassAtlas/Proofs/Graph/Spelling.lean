import ClassAtlas.Proofs.Graph.Diff
import ClassAtlas.Proofs.Graph.DocumentJson
import ClassAtlas.Proofs.Graph.Loading

namespace ClassAtlas.GraphDocument

open ClassGraph

/-- Names that are well-formed stay apart, so the document stays consistent. -/
theorem Consistent.respelled {doc : GraphDocument} (h : doc.Consistent)
    (hnames : ∀ u ∈ doc.nodes, Utf8.scrub u.name = u.name) : doc.respelled.Consistent := by
  have hsame : (doc.nodes.map (·.respelled)).map (·.name) = doc.nodes.map (·.name) := by
    rw [List.map_map]
    exact List.map_congr_left hnames
  have hend : ∀ {name}, name ∈ doc.nodes.map (·.name) → Utf8.scrub name = name := by
    intro name hname
    obtain ⟨u, hu, rfl⟩ := List.mem_map.mp hname
    exact hnames u hu
  have hends : ∀ e ∈ doc.edges, e.respelled.source = e.source ∧ e.respelled.target = e.target := by
    intro e he
    obtain ⟨-, hsource, htarget⟩ := h.ends e he
    exact ⟨hend hsource, hend htarget⟩
  constructor
  case schema =>
    change Utf8.scrub doc.schema = currentSchema
    rw [h.schema]
    exact Utf8.scrub_of_ascii rfl
  case names =>
    intro v hv
    obtain ⟨u, hu, rfl⟩ := List.mem_map.mp hv
    exact fun hnil => h.names u hu ((hnames u hu).symm.trans hnil)
  case nodes =>
    change ((doc.nodes.map (·.respelled)).map (·.name)).Nodup
    rw [hsame]
    exact h.nodes
  case ends =>
    intro e' he'
    obtain ⟨e, he, rfl⟩ := List.mem_map.mp he'
    change _ ∧ _ ∈ (doc.nodes.map (·.respelled)).map (·.name) ∧
      _ ∈ (doc.nodes.map (·.respelled)).map (·.name)
    rw [hsame, (hends e he).1, (hends e he).2]
    exact h.ends e he
  case edges =>
    have hpairs : doc.respelled.edges.map (fun e => (e.source, e.target)) =
        doc.edges.map fun e => (e.source, e.target) := by
      change (doc.edges.map (·.respelled)).map (fun e => (e.source, e.target)) = _
      rw [List.map_map]
      refine List.map_congr_left fun e he => ?_
      exact Prod.ext (hends e he).1 (hends e he).2
    rw [hpairs]
    exact h.edges

section

variable {g g' : ClassGraph} {limits : GraphLimits}

/-- The names of the classes of a graph that was read are well-formed, and so are their modules. -/
theorem isValid_of_toGraph_respelled {doc : GraphDocument} (h : doc.respelled.toGraph limits = .ok g)
    {name : Text} {n : ClassNode} (hn : g.node? name = some n) :
    Utf8.isValid name = true ∧ Utf8.isValid n.unit.module = true := by
  obtain ⟨hmem, rfl⟩ := (units_toGraph h name n.unit).mp (units_of_node? hn)
  obtain ⟨u, -, hu⟩ := List.mem_map.mp hmem
  rw [← hu]
  exact ⟨Utf8.isValid_scrub u.name, Utf8.isValid_scrub u.module⟩

/-- A graph whose names are well-formed is read back in the same shape. -/
theorem sameShape_toGraph_respelled (hg : g.WellFormed)
    (h : (ofGraph g).respelled.toGraph limits = .ok g')
    (hnames : ∀ u ∈ (ofGraph g).nodes, Utf8.scrub u.name = u.name ∧ Utf8.scrub u.module = u.module) :
    g'.SameShape g := by
  have hmem : ∀ {name n}, g.node? name = some n → n.unit ∈ (ofGraph g).nodes :=
    fun hn => mem_ofGraph_nodes.mpr ⟨_, _, hn, rfl⟩
  have hname : ∀ {name n}, g.node? name = some n → Utf8.scrub name = name := by
    intro name n hn
    rw [← (hg.node_name hn).1]
    exact (hnames _ (hmem hn)).1
  constructor
  case module =>
    intro name
    apply Option.ext
    intro m
    have hunits : ∀ g : ClassGraph, (g.node? name).map (·.unit.module) = some m ↔
        ∃ u, g.units.find? name = some u ∧ u.module = m := by
      intro g
      simp [units_find?]
    rw [hunits, hunits]
    simp only [units_toGraph h]
    constructor
    · rintro ⟨v, ⟨hv, rfl⟩, rfl⟩
      obtain ⟨u, hu, rfl⟩ := List.mem_map.mp hv
      obtain ⟨name, n, hn, rfl⟩ := mem_ofGraph_nodes.mp hu
      refine ⟨n.unit, ?_, (hnames _ hu).2.symm⟩
      change g.units.find? (Utf8.scrub n.unit.name) = _
      rw [(hnames _ hu).1, (hg.node_name hn).1, units_of_node? hn]
    · rintro ⟨u, hu, rfl⟩
      rw [units_find?, Option.map_eq_some_iff] at hu
      obtain ⟨n, hn, rfl⟩ := hu
      obtain ⟨hscrub, hmodule⟩ := hnames _ (hmem hn)
      exact ⟨n.unit.respelled, ⟨List.mem_map_of_mem (hmem hn), hscrub.trans (hg.node_name hn).1⟩, hmodule⟩
  case hasEdge =>
    intro source target
    rw [Bool.eq_iff_iff, hasEdge_toGraph h, hg.hasEdge_iff]
    have hends : ∀ {e}, e ∈ g.edges → Utf8.scrub e.source = e.source ∧ Utf8.scrub e.target = e.target := by
      intro e he
      obtain ⟨⟨n, hn⟩, ⟨n', hn'⟩⟩ := hg.node_of_mem he
      exact ⟨hname hn, hname hn'⟩
    constructor
    · rintro ⟨e', he', rfl, rfl⟩
      obtain ⟨r, hr, rfl⟩ := List.mem_map.mp he'
      obtain ⟨e, he, rfl⟩ := List.mem_map.mp hr
      have hedge := mem_edgeList.mp he
      exact ⟨e, hedge, Prod.ext (hends hedge).1.symm (hends hedge).2.symm⟩
    · rintro ⟨e, he, hpair⟩
      obtain ⟨rfl, rfl⟩ := Prod.mk.inj hpair
      exact ⟨_, List.mem_map_of_mem (List.mem_map_of_mem (mem_edgeList.mpr he)), (hends he).1, (hends he).2⟩

/-- What is read back has the shape of the graph exactly if the names of the classes and of their
modules are well-formed. -/
theorem exists_sameShape_iff (hg : g.WellFormed)
    (hroom : (g.nodeCount : Int) ≤ limits.nodes ∧ (g.edgeCount : Int) ≤ limits.edges) :
    (∃ g', (ofGraph g).respelled.toGraph limits = .ok g' ∧ g'.SameShape g) ↔
      ∀ name n, g.node? name = some n → Utf8.isValid name = true ∧ Utf8.isValid n.unit.module = true := by
  constructor
  · rintro ⟨g', hread, hshape⟩ name n hn
    have hmodule := hshape.module name
    rw [hn, Option.map_some, Option.map_eq_some_iff] at hmodule
    obtain ⟨n', hn', hmodule⟩ := hmodule
    rw [← hmodule]
    exact isValid_of_toGraph_respelled hread hn'
  · intro hvalid
    have hnames : ∀ u ∈ (ofGraph g).nodes, Utf8.scrub u.name = u.name ∧ Utf8.scrub u.module = u.module := by
      intro u hu
      obtain ⟨name, n, hn, rfl⟩ := mem_ofGraph_nodes.mp hu
      obtain ⟨hname, hmodule⟩ := hvalid name n hn
      rw [(hg.node_name hn).1]
      exact ⟨Utf8.isValid_iff.mp hname, Utf8.isValid_iff.mp hmodule⟩
    have hconsistent := (consistent_ofGraph hg).respelled fun u hu => (hnames u hu).1
    have hlengths : (ofGraph g).respelled.nodes.length = g.nodeCount ∧
        (ofGraph g).respelled.edges.length = g.edgeCount := by
      simp [GraphDocument.respelled, length_ofGraph]
    rw [← hlengths.1, ← hlengths.2] at hroom
    have hread := hconsistent.toGraph_eq_ok hroom
    exact ⟨_, hread, sameShape_toGraph_respelled hg hread hnames⟩

end

end ClassAtlas.GraphDocument
