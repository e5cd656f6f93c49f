import ClassAtlas.Proofs.Graph.Projection
import ClassAtlas.Proofs.Json.Records

namespace ClassAtlas

/-- All bytes of a digest are digits or the first letters. -/
theorem Sha256.mem_hex {t : Text} {b : UInt8} (h : b ∈ Sha256.hex t) :
    ∃ n, b = Decimal.hexDigit n := by
  simp only [Sha256.hex, List.mem_flatMap, Decimal.hex, List.mem_map] at h
  obtain ⟨w, -, i, -, rfl⟩ := h
  exact ⟨_, rfl⟩

/-- Hexadecimal digits are well-formed. -/
theorem Utf8.scrub_of_hexDigits {t : Text} (h : ∀ b ∈ t, ∃ n, b = Decimal.hexDigit n) :
    Utf8.scrub t = t := by
  refine Utf8.scrub_of_ascii (List.all_eq_true.mpr ?_)
  intro b hb
  obtain ⟨n, rfl⟩ := h b hb
  have hdigit := Decimal.toNat_hexDigit_le n
  simp only [decide_eq_true_eq, UInt8.lt_iff_toNat_lt]
  exact Nat.lt_of_le_of_lt hdigit.2.1 (by decide)

/-- The label of rules is well-formed, for all rules. -/
theorem Rules.scrub_label (r : Rules) : Utf8.scrub r.label = r.label := by
  unfold label
  split <;> exact Utf8.scrub_of_ascii rfl

/-- The class with the replacement character for stray bytes. -/
def SourceUnit.respelled (u : SourceUnit) : SourceUnit where
  name := Utf8.scrub u.name
  package := Utf8.scrub u.package
  path := Utf8.scrub u.path
  module := Utf8.scrub u.module

/-- The edge with the replacement character for stray bytes. Its rules are kept as they are. -/
def EdgeRecord.respelled (e : EdgeRecord) : EdgeRecord where
  source := Utf8.scrub e.source
  target := Utf8.scrub e.target
  label := Utf8.scrub e.label
  rules := e.rules

/-- The pair with the replacement character for stray bytes. -/
def ClassPair.respelled (p : ClassPair) : ClassPair := ⟨Utf8.scrub p.source, Utf8.scrub p.target⟩

/-- The module edge with the replacement character for stray bytes, also in its evidence. -/
def ModuleEdge.respelled (e : ModuleEdge) : ModuleEdge :=
  ⟨Utf8.scrub e.source, Utf8.scrub e.target, e.evidence.map (·.respelled)⟩

namespace GraphDocument

open Json (record rereads_str rereads_int rereads_nat rereads_arr rereads_record)

/-- A class is written as a record of four texts. -/
theorem nodeJson_eq (u : SourceUnit) :
    nodeJson u = record nodeFields [.str u.name, .str u.module, .str u.package, .str u.path] := rfl

/-- An edge is written as a record of its ends and its rules, in words and as a number. -/
theorem edgeJson_eq (e : EdgeRecord) :
    edgeJson e = record edgeFields
      [.str e.source, .str e.target, .str e.label, .nat e.rules.bits.toNat] := rfl

/-- A piece of evidence is written as a record of two texts. -/
theorem pairJson_eq (p : ClassPair) :
    p.toJson = record pairFields [.str p.source, .str p.target] := rfl

/-- A module edge is written as a record of its ends and its evidence. -/
theorem moduleEdgeJson_eq (e : ModuleEdge) :
    e.toJson = record moduleEdgeFields
      [.str e.source, .str e.target, .arr (e.evidence.map (·.toJson))] := rfl

/-- A document is written as a record of all its fields. -/
theorem toJson_eq (doc : GraphDocument) :
    doc.toJson = record fields
      [.str doc.schema, .str doc.root, .int doc.builtAt, .str doc.hash, .texts doc.modules,
        .arr (doc.nodes.map nodeJson), .arr (doc.edges.map edgeJson),
        .arr (doc.moduleEdges.map (·.toJson))] := rfl

/-- A list is read back if each of its items is; what was there before does not matter. -/
theorem fillList_map {α : Type} {blank : α} {item : Json.Filler α} {write : α → Json} {xs : List α}
    (h : ∀ x ∈ xs, item blank (write x) = some x) (old : List α) :
    fillList blank item old (.arr (xs.map write)) = some xs := by
  simp [fillList, Json.fillList, Json.mapM_map_eq_some h]

/-- A class that is written is read back, whatever was there before. -/
theorem fillNode_nodeJson (old u : SourceUnit) : fillNode old (nodeJson u) = some u := by
  rw [nodeJson_eq, fillNode, Json.fillRecord_record (by decide) (fun _ h => h)]
  rfl

/-- An edge that is written is read back, whatever was there before. -/
theorem fillEdge_edgeJson (old e : EdgeRecord) : fillEdge old (edgeJson e) = some e := by
  rw [edgeJson_eq, fillEdge, Json.fillRecord_record (by decide) (fun _ h => h)]
  simp [edgeFields, Json.part, Json.fillText, Json.fillByte_nat]

/-- A piece of evidence that is written is read back, whatever was there before. -/
theorem fillPair_toJson (old p : ClassPair) : fillPair old p.toJson = some p := by
  rw [pairJson_eq, fillPair, Json.fillRecord_record (by decide) (fun _ h => h)]
  rfl

/-- A module edge that is written is read back, whatever was there before. -/
theorem fillModuleEdge_toJson (old e : ModuleEdge) : fillModuleEdge old e.toJson = some e := by
  rw [moduleEdgeJson_eq, fillModuleEdge, Json.fillRecord_record (by decide) (fun _ h => h)]
  simp [moduleEdgeFields, Json.part, Json.fillText, fillList_map fun p _ => fillPair_toJson _ p]

/-- The fields of a document are filled with what was written for them. -/
theorem ofJson?_toJson {doc : GraphDocument} (hbuilt : Json.IsInt64 doc.builtAt) :
    ofJson? doc.toJson = some doc := by
  have hmodules : fillList [] Json.fillText [] (.texts doc.modules) = some doc.modules :=
    fillList_map (fun _ _ => rfl) _
  rw [toJson_eq, ofJson?, fill, Json.fillRecord_record (by decide) (fun _ h => h)]
  simp [fields, unread, Json.part, Json.fillText, Json.fillInt_int hbuilt, hmodules,
    fillList_map fun u _ => fillNode_nodeJson _ u, fillList_map fun e _ => fillEdge_edgeJson _ e,
    fillList_map fun e _ => fillModuleEdge_toJson _ e]

/-- A class is reread with the replacement character for stray bytes. -/
theorem rereads_node (u : SourceUnit) : (nodeJson u).Rereads (nodeJson u.respelled) :=
  rereads_record nodeFields rfl <|
    .cons (rereads_str _) <| .cons (rereads_str _) <| .cons (rereads_str _) <|
      .cons (rereads_str _) .nil

/-- An edge is reread with the replacement character for stray bytes in its ends; its rules stay. -/
theorem rereads_edge (e : EdgeRecord) : (edgeJson e).Rereads (edgeJson e.respelled) :=
  rereads_record edgeFields rfl <|
    .cons (rereads_str _) <| .cons (rereads_str _) <| .cons (rereads_str _) <|
      .cons (rereads_nat _) .nil

/-- A piece of evidence is reread with the replacement character for stray bytes. -/
theorem rereads_pair (p : ClassPair) : p.toJson.Rereads p.respelled.toJson :=
  rereads_record pairFields rfl <|
    .cons (rereads_str _) <| .cons (rereads_str _) .nil

/-- A module edge is reread with all its evidence, with the replacement character for stray bytes. -/
theorem rereads_moduleEdge (e : ModuleEdge) : e.toJson.Rereads e.respelled.toJson :=
  rereads_record moduleEdgeFields rfl <|
    .cons (rereads_str _) <| .cons (rereads_str _) <| .cons (rereads_arr rereads_pair _) .nil

/-- The document with the replacement character for stray bytes. -/
def respelled (doc : GraphDocument) : GraphDocument where
  schema := Utf8.scrub doc.schema
  root := Utf8.scrub doc.root
  builtAt := doc.builtAt
  hash := Utf8.scrub doc.hash
  modules := doc.modules.map Utf8.scrub
  nodes := doc.nodes.map (·.respelled)
  edges := doc.edges.map (·.respelled)
  moduleEdges := doc.moduleEdges.map (·.respelled)

/-- A document is reread with the replacement character for stray bytes and is otherwise the same. -/
theorem rereads_toJson (doc : GraphDocument) : doc.toJson.Rereads doc.respelled.toJson :=
  rereads_record fields rfl <|
    .cons (rereads_str _) <| .cons (rereads_str _) <| .cons (rereads_int _) <| .cons (rereads_str _) <|
      .cons (rereads_arr rereads_str _) <| .cons (rereads_arr rereads_node _) <|
        .cons (rereads_arr rereads_edge _) <| .cons (rereads_arr rereads_moduleEdge _) .nil

/-- All texts of a document are well-formed. -/
structure WellSpelled (doc : GraphDocument) : Prop where
  schema : Utf8.scrub doc.schema = doc.schema
  root : Utf8.scrub doc.root = doc.root
  hash : Utf8.scrub doc.hash = doc.hash
  modules : ∀ m ∈ doc.modules, Utf8.scrub m = m
  nodes : ∀ u ∈ doc.nodes, Utf8.scrub u.name = u.name ∧ Utf8.scrub u.module = u.module ∧
    Utf8.scrub u.package = u.package ∧ Utf8.scrub u.path = u.path
  edges : ∀ e ∈ doc.edges, Utf8.scrub e.source = e.source ∧ Utf8.scrub e.target = e.target ∧
    Utf8.scrub e.label = e.label
  moduleEdges : ∀ e ∈ doc.moduleEdges, Utf8.scrub e.source = e.source ∧
    Utf8.scrub e.target = e.target ∧
    ∀ p ∈ e.evidence, Utf8.scrub p.source = p.source ∧ Utf8.scrub p.target = p.target

/-- A well-spelled document is read back as it is. -/
theorem WellSpelled.respelled_eq {doc : GraphDocument} (h : doc.WellSpelled) : doc.respelled = doc := by
  have hmodules : doc.modules.map Utf8.scrub = doc.modules :=
    (List.map_congr_left h.modules).trans (List.map_id' _)
  have hnodes : doc.nodes.map (·.respelled) = doc.nodes := by
    refine (List.map_congr_left fun u hu => ?_).trans (List.map_id' _)
    obtain ⟨hname, hmodule, hpackage, hpath⟩ := h.nodes u hu
    simp [SourceUnit.respelled, hname, hmodule, hpackage, hpath]
  have hedges : doc.edges.map (·.respelled) = doc.edges := by
    refine (List.map_congr_left fun e he => ?_).trans (List.map_id' _)
    obtain ⟨hsource, htarget, hlabel⟩ := h.edges e he
    simp [EdgeRecord.respelled, hsource, htarget, hlabel]
  have hmoduleEdges : doc.moduleEdges.map (·.respelled) = doc.moduleEdges := by
    refine (List.map_congr_left fun e he => ?_).trans (List.map_id' _)
    obtain ⟨hsource, htarget, hevidence⟩ := h.moduleEdges e he
    have hpairs : e.evidence.map (·.respelled) = e.evidence := by
      refine (List.map_congr_left fun p hp => ?_).trans (List.map_id' _)
      simp [ClassPair.respelled, hevidence p hp]
    simp [ModuleEdge.respelled, hsource, htarget, hpairs]
  simp [respelled, h.schema, h.root, h.hash, hmodules, hnodes, hedges, hmoduleEdges]

end GraphDocument

/-- All texts of a graph are well-formed. -/
structure ClassGraph.WellSpelled (g : ClassGraph) : Prop where
  root : Utf8.isValid g.root = true
  unit : ∀ {name n}, g.node? name = some n → Utf8.isValid n.unit.name = true ∧
    Utf8.isValid n.unit.module = true ∧
    Utf8.isValid n.unit.package = true ∧ Utf8.isValid n.unit.path = true
  named : ∀ {m}, g.named.contains m = true → Utf8.isValid m = true

namespace ClassGraph.WellSpelled

variable {g : ClassGraph}

/-- The ends of an edge are classes of a well-formed graph, and so well-formed texts if those are. -/
theorem scrub_ends (h : g.WellSpelled) (hg : g.WellFormed) {e : ClassEdge} (he : e ∈ g.edgeList) :
    Utf8.scrub e.source = e.source ∧ Utf8.scrub e.target = e.target := by
  have hname : ∀ {name}, (∃ n, g.node? name = some n) → Utf8.scrub name = name := by
    rintro name ⟨n, hn⟩
    have hvalid := (h.unit hn).1
    rw [(hg.node_name hn).1] at hvalid
    exact Utf8.scrub_of_isValid hvalid
  obtain ⟨hsource, htarget⟩ := hg.node_of_mem (mem_edgeList.mp he)
  exact ⟨hname hsource, hname htarget⟩

/-- The module of every class is well-formed, and so is the empty text for one that is not there. -/
theorem scrub_moduleOf (h : g.WellSpelled) (name : Text) :
    Utf8.scrub (g.moduleOf name) = g.moduleOf name := by
  unfold moduleOf
  cases hn : g.node? name with
  | none => exact Utf8.scrub_of_ascii rfl
  | some n => exact Utf8.scrub_of_isValid (h.unit hn).2.1

/-- All modules are well-formed, whether they have classes or were only named. -/
theorem scrub_modules (h : g.WellSpelled) {m : Text} (hm : m ∈ g.modules) : Utf8.scrub m = m := by
  rcases mem_modules_iff.mp hm with hnamed | ⟨-, name, u, hu, rfl⟩
  · exact Utf8.scrub_of_isValid (h.named hnamed)
  · rw [units_find?, Option.map_eq_some_iff] at hu
    obtain ⟨n, hn, rfl⟩ := hu
    exact Utf8.scrub_of_isValid (h.unit hn).2.1

/-- The modules and the evidence of a module edge are texts of the graph. -/
theorem scrub_moduleEdge (h : g.WellSpelled) (hg : g.WellFormed) {e : ModuleEdge}
    (he : e ∈ (ModuleGraph.project g).edges) :
    Utf8.scrub e.source = e.source ∧ Utf8.scrub e.target = e.target ∧
      ∀ p ∈ e.evidence, Utf8.scrub p.source = p.source ∧ Utf8.scrub p.target = p.target := by
  obtain ⟨-, hsome, heq⟩ := ModuleGraph.mem_edges_project_iff.mp he
  have hclass : ∀ p ∈ e.evidence, ∃ c ∈ g.edgeList, c.ends = (p.source, p.target) ∧
      g.moduleOf c.source = e.source ∧ g.moduleOf c.target = e.target := by
    intro p hp
    rw [heq] at hp
    exact ModuleGraph.mem_evidenceBetween_iff.mp hp
  obtain ⟨p, hp⟩ := List.exists_mem_of_ne_nil _ hsome
  obtain ⟨c, -, -, hsource, htarget⟩ := hclass p hp
  refine ⟨hsource ▸ h.scrub_moduleOf _, htarget ▸ h.scrub_moduleOf _, ?_⟩
  intro q hq
  obtain ⟨d, hd, hends, -⟩ := hclass q hq
  obtain ⟨hqs, hqt⟩ := Prod.mk.inj hends
  rw [← hqs, ← hqt]
  exact h.scrub_ends hg hd

/-- The document of a graph has no other texts than the graph, its labels and its digest. -/
theorem ofGraph (h : g.WellSpelled) (hg : g.WellFormed) :
    (GraphDocument.ofGraph g).WellSpelled where
  schema :=
    show Utf8.scrub GraphDocument.currentSchema = _ from Utf8.scrub_of_ascii rfl
  root := Utf8.scrub_of_isValid h.root
  hash := Utf8.scrub_of_hexDigits fun _ hb => Sha256.mem_hex hb
  modules _ hm := h.scrub_modules hm
  nodes u hu := by
    obtain ⟨name, n, hn, rfl⟩ := GraphDocument.mem_ofGraph_nodes.mp hu
    obtain ⟨hname, hmodule, hpackage, hpath⟩ := h.unit hn
    exact ⟨Utf8.scrub_of_isValid hname, Utf8.scrub_of_isValid hmodule,
      Utf8.scrub_of_isValid hpackage, Utf8.scrub_of_isValid hpath⟩
  edges r hr := by
    obtain ⟨e, he, rfl⟩ := List.mem_map.mp hr
    obtain ⟨hsource, htarget⟩ := h.scrub_ends hg he
    exact ⟨hsource, htarget, Rules.scrub_label e.rules⟩
  moduleEdges _ he := h.scrub_moduleEdge hg he

end ClassGraph.WellSpelled

end ClassAtlas
