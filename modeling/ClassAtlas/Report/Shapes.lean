import ClassAtlas.Json.Shape

namespace ClassAtlas.Shape

/-- A match of a trace. -/
def traceMatch : Shape :=
  .record [("class_chain", false, .list .text), ("matched_class", false, .text),
    ("line_number", false, .whole), ("line_text", false, .text), ("method_name", false, .text),
    ("module", false, .text), ("pattern", false, .text), ("raw_argument", true, .text),
    ("resolved_argument", true, .text)]

/-- Matches by module. -/
def matchGroups : Shape := .list (fixed [("module", .text), ("matches", .list traceMatch)])

/-- A class with its links by module. -/
def classEntry : Shape :=
  .record [("class", false, .text),
    ("links", true, .list (fixed [("module", .text), ("classes", .list .text)]))]

/-- The report on exposed classes. -/
def exposeReport : Shape :=
  fixed [("show_dependency", .truth),
    ("modules", .list (.record [("module", false, .text), ("dependencies_to", false, .whole),
      ("depended_by", false, .whole), ("exposed", false, .list classEntry),
      ("callers", true, .list classEntry)]))]

/-- Tables by module. -/
def tableGroups : Shape :=
  .list (fixed [("module", .text),
    ("tables", .list (fixed [("name", .text), ("repository", .text), ("class", .text)]))])

/-- A pair of names. -/
def pair : Shape := fixed [("from", .text), ("to", .text)]

/-- A changed file. -/
def changedFile : Shape :=
  .record [("path", false, .text), ("orig_path", true, .text), ("status", false, .text),
    ("lines_added", false, .whole), ("lines_removed", false, .whole), ("class", true, .text),
    ("module", false, .text), ("source", false, .truth)]

/-- The report on an impact. -/
def impactReport : Shape :=
  fixed [("files", .list changedFile), ("changed_modules", .list .text),
    ("changed_classes", .list .text), ("affected_classes", .list .text),
    ("impacted_modules", .list (fixed [("module", .text), ("distance", .whole),
      ("through", .text), ("evidence", .list pair)]))]

/-- The records of snapshots. -/
def snapshotInfos : Shape :=
  .list (.record [("snapshot_id", false, .text), ("project_root", false, .text),
    ("project_hash", false, .text), ("graph_hash", false, .text), ("label", true, .text),
    ("created_at_milli", false, .whole), ("class_count", false, .whole),
    ("edge_count", false, .whole), ("module_count", false, .whole),
    ("module_edge_count", false, .whole), ("schema_version", false, .text),
    ("compressed_size", false, .whole), ("content_hash", false, .text)])

/-- The difference between two graphs. -/
def graphDiff : Shape :=
  fixed [("base_snapshot_id", .text), ("target_snapshot_id", .text),
    ("classes_added", .list .text), ("classes_removed", .list .text),
    ("classes_moved", .list (fixed [("class", .text), ("from_module", .text),
      ("to_module", .text)])),
    ("edges_added", .list pair), ("edges_removed", .list pair),
    ("module_edges_added", .list pair), ("module_edges_removed", .list pair),
    ("summary", fixed [("total_changes", .whole), ("modules_affected", .whole),
      ("change_ratio", .real)])]

end ClassAtlas.Shape
