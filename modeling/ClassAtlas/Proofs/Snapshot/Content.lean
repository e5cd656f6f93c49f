import ClassAtlas.Proofs.Graph.DocumentJson
import ClassAtlas.Proofs.Json.Cut
import ClassAtlas.Snapshot.Archive

namespace ClassAtlas

namespace Json

/-- No value has an empty text, so an array is at least as long as its number of items. -/
theorem length_le_compactItems {items : List Json} (h : WholeItems items) :
    items.length ≤ (compactItems items).length := by
  induction items with
  | nil => simp
  | cons item more ih =>
    obtain ⟨b, t, hb, -⟩ := compact_eq_cons h.1
    have hmore := ih h.2
    rw [compactItems_cons, hb, List.length_append, List.length_cons, List.length_cons]
    split
    · next hnil => simp [hnil]
    · rw [List.length_cons]
      omega

/-- The value of a member is not longer than all members together. -/
theorem compact_le_compactMembers {members : List (Text × Json)} {m : Text × Json}
    (h : m ∈ members) :
    (compact m.2).length ≤ (compactMembers members).length := by
  induction members with
  | nil => simp at h
  | cons first more ih =>
    obtain ⟨name, value⟩ := first
    rw [compactMembers_cons, List.length_append, List.length_append, List.length_cons]
    rcases List.mem_cons.mp h with rfl | h
    · dsimp only
      omega
    · have hmore := ih h
      rw [if_neg (List.ne_nil_of_mem h), List.length_cons]
      omega

/-- An array that is a member of an object has no more items than the object has bytes. -/
theorem length_le_of_mem {name : Text} {items : List Json} {members : List (Text × Json)}
    (h : (name, .arr items) ∈ members) (hitems : WholeItems items) :
    items.length ≤ (compact (.obj members)).length := by
  have harr := compact_le_compactMembers h
  have hlength := length_le_compactItems hitems
  simp only [compact, List.length_append, List.length_cons] at harr ⊢
  omega

end Json

/-- Everything that a document lists takes up at least one byte of its text. -/
theorem GraphDocument.lengths_le_compact {doc : GraphDocument} (h : doc.toJson.Whole) :
    doc.modules.length ≤ doc.toJson.compact.length ∧ doc.nodes.length ≤ doc.toJson.compact.length ∧
      doc.edges.length ≤ doc.toJson.compact.length ∧
        doc.moduleEdges.length ≤ doc.toJson.compact.length := by
  have hcount : ∀ (name : Text) (items : List Json) {members : List (Text × Json)},
    doc.toJson = .obj members →
      (name, Json.arr items) ∈ members → items.length ≤ doc.toJson.compact.length := by
    intro name items members hdoc hmem
    rw [hdoc] at h ⊢
    exact Json.length_le_of_mem hmem (Json.wholeMembers_iff.mp h _ hmem)
  have hmodules := hcount "modules" (doc.modules.map .str) rfl (by simp [Json.texts])
  have hnodes := hcount "nodes" (doc.nodes.map nodeJson) rfl (by simp)
  have hedges := hcount "edges" (doc.edges.map edgeJson) rfl (by simp)
  have hmoduleEdges := hcount "module_edges" (doc.moduleEdges.map (·.toJson)) rfl (by simp)
  simp only [List.length_map] at hmodules hnodes hedges hmoduleEdges
  exact ⟨hmodules, hnodes, hedges, hmoduleEdges⟩

namespace SnapshotInfo

open Json (record rereads_record rereads_str rereads_int)

/-- The numbers of a record have 64 bits. -/
structure Measured (i : SnapshotInfo) : Prop where
  createdAt : Json.IsInt64 i.createdAt
  classes : Json.IsInt64 i.classes
  edges : Json.IsInt64 i.edges
  modules : Json.IsInt64 i.modules
  moduleEdges : Json.IsInt64 i.moduleEdges
  storedSize : Json.IsInt64 i.storedSize

/-- A record without a label has one member less. -/
theorem toJson_eq (i : SnapshotInfo) : i.toJson =
    if i.label = [] then
      record (fields.eraseIdx 4)
        [.str i.id, .str i.root, .str i.project, .str i.graphHash, .int i.createdAt,
          .int i.classes, .int i.edges, .int i.modules, .int i.moduleEdges, .str i.schema,
          .int i.storedSize, .str i.digest]
    else
      record fields
        [.str i.id, .str i.root, .str i.project, .str i.graphHash, .str i.label, .int i.createdAt,
          .int i.classes, .int i.edges, .int i.modules, .int i.moduleEdges, .str i.schema,
          .int i.storedSize, .str i.digest] := by
  split
  · next h => simp [toJson, Json.nonempty, h, Json.ofGroups, record, fields]
  · next h => simp [toJson, Json.nonempty, h, Json.ofGroups, record, fields]

/-- A record is read back from its object, if its numbers have 64 bits. -/
theorem ofJson?_toJson {i : SnapshotInfo} (h : i.Measured) : ofJson? i.toJson = some i := by
  rw [toJson_eq, ofJson?, fill]
  split
  · next hlabel =>
    rw [Json.fillRecord_record (by decide) (fun f hf => List.mem_of_mem_eraseIdx hf)]
    obtain ⟨h1, h2, h3, h4, h5, h6⟩ := h
    simp [fields, unread, Json.part, Json.fillText, Json.fillInt_int, h1, h2, h3, h4, h5, h6,
      ← hlabel]
  · rw [Json.fillRecord_record (by decide) (fun _ hf => hf)]
    obtain ⟨h1, h2, h3, h4, h5, h6⟩ := h
    simp [fields, unread, Json.part, Json.fillText, Json.fillInt_int, h1, h2, h3, h4, h5, h6]

/-- The record with the replacement character for stray bytes. -/
def respelled (i : SnapshotInfo) : SnapshotInfo :=
  { i with
    id := Utf8.scrub i.id
    root := Utf8.scrub i.root
    project := Utf8.scrub i.project
    graphHash := Utf8.scrub i.graphHash
    label := Utf8.scrub i.label
    schema := Utf8.scrub i.schema
    digest := Utf8.scrub i.digest }

/-- The object of a record is read back as that of the record without stray bytes. -/
theorem rereads_toJson (i : SnapshotInfo) : i.toJson.Rereads i.respelled.toJson := by
  rw [toJson_eq, toJson_eq]
  simp only [respelled, Utf8.scrub_eq_nil_iff]
  split
  · refine rereads_record _ rfl ?_
    simp [rereads_str, rereads_int]
  · refine rereads_record _ rfl ?_
    simp [rereads_str, rereads_int]

/-- A record is read back with the replacement character for stray bytes. -/
theorem readInfo?_compact {i : SnapshotInfo} (h : i.Measured) :
    Snapshot.readInfo? (.plain i.toJson.compact) = some i.respelled := by
  obtain ⟨hwhole, hreread⟩ := i.rereads_toJson
  have hmeasured : i.respelled.Measured := ⟨h.1, h.2, h.3, h.4, h.5, h.6⟩
  simp only [Snapshot.readInfo?, StoredValue.bytes, Json.read?_compact hwhole, hreread,
    Option.bind_some, ofJson?_toJson hmeasured]

end SnapshotInfo

namespace Snapshot

/-- What is saved: a graph with a label, at a time. -/
structure Saved where
  graph : ClassGraph
  label : Text
  now : Int

namespace Saved

/-- The name of the snapshot. -/
def id (x : Saved) : Text := idOf x.graph

/-- The name of its project. -/
def project (x : Saved) : Text := projectHash x.graph.root

/-- The record of the snapshot. -/
def info (x : Saved) : SnapshotInfo := describe x.graph x.label x.now

/-- The record as it stands in the store. -/
def stored (x : Saved) : StoredValue := .plain x.info.toJson.compact

/-- The record as it is read back. -/
def rereadInfo (x : Saved) : SnapshotInfo := { x.info with label := Utf8.scrub x.label }

/-- What can be saved so that it is read back: a graph that was built up by calls, with well-formed
texts and no more than the usual numbers of classes, edges and bytes, at times of 64 bits. -/
structure Storable (x : Saved) : Prop where
  reachable : x.graph.Reachable
  wellSpelled : x.graph.WellSpelled
  nodes_le : (x.graph.nodeCount : Int) ≤ ({} : GraphLimits).nodes
  edges_le : (x.graph.edgeCount : Int) ≤ ({} : GraphLimits).edges
  bytes_le : (GraphDocument.ofGraph x.graph).toJson.compact.length ≤ maxDocumentBytes
  builtAt : Json.IsInt64 x.graph.builtAt
  now : Json.IsInt64 x.now

variable {x : Saved}

/-- A short digest has hexadecimal digits only. -/
theorem mem_shortDigest {t : Text} {b : UInt8} (h : b ∈ shortDigest t) :
    ∃ n, b = Decimal.hexDigit n :=
  Sha256.mem_hex (List.mem_of_mem_take h)

/-- Of the texts of a record only the root and the label are not digests. -/
theorem respelled_info (x : Saved) :
    x.info.respelled = { x.info with root := Utf8.scrub x.graph.root, label := Utf8.scrub x.label } := by
  have hid : Utf8.scrub x.info.id = x.info.id := Utf8.scrub_of_hexDigits fun _ hb => mem_shortDigest hb
  have hproject : Utf8.scrub x.info.project = x.info.project :=
    Utf8.scrub_of_hexDigits fun _ hb => mem_shortDigest hb
  have hhash : Utf8.scrub x.info.graphHash = x.info.graphHash :=
    Utf8.scrub_of_hexDigits fun _ hb => Sha256.mem_hex hb
  have hdigest : Utf8.scrub x.info.digest = x.info.digest :=
    Utf8.scrub_of_hexDigits fun _ hb => Sha256.mem_hex hb
  have hschema : Utf8.scrub x.info.schema = x.info.schema :=
    show Utf8.scrub GraphDocument.currentSchema = _ from Utf8.scrub_of_ascii rfl
  rw [SnapshotInfo.respelled, hid, hproject, hhash, hdigest, hschema]
  rfl

/-- What is counted in the record of a snapshot stands in the document, so no count exceeds its bytes. -/
theorem measured_info (hnow : Json.IsInt64 x.now)
    (hbytes : (GraphDocument.ofGraph x.graph).toJson.compact.length ≤ maxDocumentBytes) :
    x.info.Measured := by
  have hsmall : ∀ n : Nat, n ≤ maxDocumentBytes + 2 → Json.IsInt64 n := by
    intro n hn
    unfold maxDocumentBytes at hn
    unfold Json.IsInt64
    omega
  obtain ⟨hmodules, hnodes, hedges, hmoduleEdges⟩ :=
    GraphDocument.lengths_le_compact (GraphDocument.ofGraph x.graph).rereads_toJson.whole
  refine ⟨hnow, hsmall _ (by omega), hsmall _ (by omega), hsmall _ (by omega),
    hsmall _ (by omega), hsmall _ ?_⟩
  have hmark : (pack x.graph).bytes.length =
      2 + (GraphDocument.ofGraph x.graph).toJson.compact.length := by
    simp [pack, StoredValue.bytes, StoredValue.packMark]
    omega
  rw [hmark]
  omega

/-- A document that was packed is read back with the replacement character for stray bytes, unless it
was cut. -/
theorem readDocument?_compact {doc : GraphDocument} (hbuilt : Json.IsInt64 doc.builtAt) :
    readDocument? doc.toJson.compact =
      if doc.toJson.compact.length ≤ maxDocumentBytes then some doc.respelled else none := by
  obtain ⟨hwhole, hreread⟩ := doc.rereads_toJson
  have hbuilt' : Json.IsInt64 doc.respelled.builtAt := hbuilt
  unfold readDocument?
  split
  · next hbytes =>
    rw [List.take_of_length_le hbytes, Json.readFront?_compact hwhole, hreread]
    exact GraphDocument.ofJson?_toJson hbuilt'
  · next hbytes =>
    have hmore : doc.toJson.compact.drop maxDocumentBytes ≠ [] := by
      rw [ne_eq, List.drop_eq_nil_iff]
      exact hbytes
    have hcut : Json.readFront? (doc.toJson.compact.take maxDocumentBytes) = none :=
      Json.readFront?_cut hwhole (List.take_append_drop ..) hmore
    rw [hcut]
    rfl

/-- A snapshot that has both its entries is read as far as a graph can be built from its document, unless
the document was cut. -/
theorem read_eq_ok_iff (hnow : Json.IsInt64 x.now) (hbuilt : Json.IsInt64 x.graph.builtAt)
    {s : SnapshotStore} {project id : Text} (hopen : s.closed = false)
    (hdata : s.values.find? (dataKey project id) = some (pack x.graph))
    (hmeta : s.values.find? (metaKey project id) = some x.stored) {g : ClassGraph} {i : SnapshotInfo} :
    read s project id = .ok (g, i) ↔
      (GraphDocument.ofGraph x.graph).toJson.compact.length ≤ maxDocumentBytes ∧
        (GraphDocument.ofGraph x.graph).respelled.toGraph {} = .ok g ∧ x.info.respelled = i := by
  have hget : ∀ {key v}, s.values.find? key = some v → s.get key = .ok v := by
    intro key v hkey
    simp [SnapshotStore.get, hopen, hkey]
  have hbuilt' : Json.IsInt64 (GraphDocument.ofGraph x.graph).builtAt := hbuilt
  have hdigest : (pack x.graph).digest = x.info.digest := rfl
  unfold read
  rw [hget hdata, hget hmeta]
  simp only [bind, Except.bind, Except.mapError, stored]
  by_cases hbytes : (GraphDocument.ofGraph x.graph).toJson.compact.length ≤ maxDocumentBytes
  · have hrecord := SnapshotInfo.readInfo?_compact (measured_info hnow hbytes)
    have hsame : x.info.respelled.digest = x.info.digest := by rw [respelled_info]
    simp only [hrecord, pack, StoredValue.unpacked?, readDocument?_compact hbuilt', hbytes, if_true, true_and]
    rw [← pack, hdigest, hsame, bne_self_eq_false, Bool.and_false]
    cases (GraphDocument.ofGraph x.graph).respelled.toGraph {} with
    | error e => simp
    | ok g => simp [pure, Except.pure]
  · simp only [pack, StoredValue.unpacked?, readDocument?_compact hbuilt', hbytes, if_false, false_and, iff_false]
    -- Whatever the record says, the document is missed at last.
    cases readInfo? (.plain x.info.toJson.compact) with
    | none => simp [throw, throwThe, MonadExceptOf.throw]
    | some info =>
      dsimp only
      split <;> simp [throw, throwThe, MonadExceptOf.throw]

/-- A snapshot that has both its entries is read as what was saved. -/
theorem Storable.read_eq (h : x.Storable) {s : SnapshotStore} {project id : Text}
    (hopen : s.closed = false) (hdata : s.values.find? (dataKey project id) = some (pack x.graph))
    (hmeta : s.values.find? (metaKey project id) = some x.stored) :
    ∃ g, read s project id = .ok (g, x.rereadInfo) ∧ GraphDocument.Restores x.graph g := by
  have hwell := h.reachable.wellFormed
  have hinfo : x.info.respelled = x.rereadInfo := by
    rw [respelled_info, Utf8.scrub_of_isValid h.wellSpelled.root]
    rfl
  refine ⟨_, (read_eq_ok_iff h.now h.builtAt hopen hdata hmeta).mpr ⟨h.bytes_le, ?_, hinfo⟩,
    GraphDocument.restores_assembled hwell {}⟩
  rw [(h.wellSpelled.ofGraph hwell).respelled_eq]
  exact GraphDocument.toGraph_ofGraph_eq_ok hwell h.nodes_le h.edges_le

end Saved

end Snapshot

end ClassAtlas
