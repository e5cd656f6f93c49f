import ClassAtlas.Json.Decode

namespace ClassAtlas

/-- The record of a snapshot. -/
structure SnapshotInfo where
  id : Text
  root : Text
  project : Text
  graphHash : Text
  label : Text
  createdAt : Int
  classes : Int
  edges : Int
  modules : Int
  moduleEdges : Int
  schema : Text
  storedSize : Int
  digest : Text
  deriving DecidableEq, Repr

namespace SnapshotInfo

/-- A record before anything is read into it. -/
def unread : SnapshotInfo := ⟨[], [], [], [], [], 0, 0, 0, 0, 0, [], 0, []⟩

/-- The record as JSON. -/
def toJson (i : SnapshotInfo) : Json :=
  .ofGroups [
    [("snapshot_id", .str i.id), ("project_root", .str i.root), ("project_hash", .str i.project),
      ("graph_hash", .str i.graphHash)],
    Json.nonempty "label" i.label,
    [("created_at_milli", .int i.createdAt), ("class_count", .int i.classes),
      ("edge_count", .int i.edges), ("module_count", .int i.modules),
      ("module_edge_count", .int i.moduleEdges), ("schema_version", .str i.schema),
      ("compressed_size", .int i.storedSize), ("content_hash", .str i.digest)]]

/-- The fields of a record. -/
def fields : List (Text × Json.Filler SnapshotInfo) :=
  [("snapshot_id", Json.part (·.id) (fun i v => { i with id := v }) Json.fillText),
    ("project_root", Json.part (·.root) (fun i v => { i with root := v }) Json.fillText),
    ("project_hash", Json.part (·.project) (fun i v => { i with project := v }) Json.fillText),
    ("graph_hash", Json.part (·.graphHash) (fun i v => { i with graphHash := v }) Json.fillText),
    ("label", Json.part (·.label) (fun i v => { i with label := v }) Json.fillText),
    ("created_at_milli", Json.part (·.createdAt) (fun i v => { i with createdAt := v })
      Json.fillInt),
    ("class_count", Json.part (·.classes) (fun i v => { i with classes := v }) Json.fillInt),
    ("edge_count", Json.part (·.edges) (fun i v => { i with edges := v }) Json.fillInt),
    ("module_count", Json.part (·.modules) (fun i v => { i with modules := v }) Json.fillInt),
    ("module_edge_count", Json.part (·.moduleEdges) (fun i v => { i with moduleEdges := v })
      Json.fillInt),
    ("schema_version", Json.part (·.schema) (fun i v => { i with schema := v }) Json.fillText),
    ("compressed_size", Json.part (·.storedSize) (fun i v => { i with storedSize := v })
      Json.fillInt),
    ("content_hash", Json.part (·.digest) (fun i v => { i with digest := v }) Json.fillText)]

/-- Fills a record from JSON. -/
def fill : Json.Filler SnapshotInfo := Json.fillRecord (Json.named fields)

/-- Reads a record from JSON. -/
def ofJson? (j : Json) : Option SnapshotInfo := fill unread j

end SnapshotInfo

end ClassAtlas
