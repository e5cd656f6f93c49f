import ClassAtlas.Service.Basic

namespace ClassAtlas

/-- The numbers of a build. -/
def BuildStats.toJson (s : BuildStats) : Json :=
  .obj [("classes_processed", .nat s.processed), ("classes_failed", .nat s.failed),
    ("nodes_created", .nat s.nodes), ("edges_created", .nat s.edges),
    ("import_edges", .nat s.imported), ("usage_only_edges", .nat s.usedOnly),
    ("module_edges", .nat s.moduleEdges), ("duration_micro", .nat 0)]

namespace Reply

/-- A module of an analysed project. -/
def moduleSummary (g : ClassGraph) (m : ModuleGraph) (name : Text) : Json :=
  .obj [("name", .str name), ("classes", .nat (g.classesIn name).length),
    ("depends_on", .texts (m.dependencies name)), ("depended_by", .texts (m.dependents name))]

/-- An analysed project. -/
def analysis (a : Analysis) : Json :=
  let m := ModuleGraph.project a.graph
  .ofGroups [
    [("project_root", .str a.catalog.root), ("classes", .nat a.graph.nodeCount),
      ("class_edges", .nat a.graph.edgeCount), ("stats", a.build.stats.toJson),
      ("modules", .arr (m.modules.map (moduleSummary a.graph m))),
      ("module_edges", .arr (m.edges.map (·.toJson)))],
    if a.build.fileErrors.isEmpty then []
    else [("file_errors", .texts (a.build.fileErrors.map (·.message)))],
    [("duration_ms", .nat 0)]]

/-- What a trace found. -/
def trace (t : Service.TraceAnswer) : Json :=
  .obj [("start_classes", .texts t.starts), ("patterns", .texts t.patterns),
    ("matches", .arr (t.log.entries.map (·.toJson))),
    ("by_module", ModuleGroup.listJson t.log.groups), ("stats", t.stats.toJson)]

/-- Tables by module. -/
def tables (modules : List ModuleTables) : Json := .obj [("modules", .arr (modules.map (·.toJson)))]

/-- A list of snapshots. -/
def snapshots (infos : List SnapshotInfo) : Json := .obj [("snapshots", .arr (infos.map (·.toJson)))]

/-- A loaded snapshot. -/
def snapshot (g : ClassGraph) (info : SnapshotInfo) : Json :=
  .obj [("metadata", info.toJson), ("classes", .nat g.nodeCount), ("edges", .nat g.edgeCount),
    ("modules", .texts g.modules), ("graph_hash", .str g.hash)]

/-- The class at the other end of an edge. -/
def neighbour (g : ClassGraph) (name : Text) (rules : Rules) : Json :=
  .obj [("class", .str name), ("module", .str (g.moduleOf name)), ("rules", .str rules.label)]

/-- A class with its edges, at most `limit` in each direction. -/
def classEdges (g : ClassGraph) (n : ClassNode) (limit : Nat) : Json :=
  let outgoing := g.edgesOut n
  let incoming := g.edgesIn n
  .obj [("class", .str n.unit.name), ("module", .str n.unit.module),
    ("package", .str n.unit.package), ("file_path", .str n.unit.path),
    ("outgoing", .arr ((outgoing.take limit).map fun e => neighbour g e.target e.rules)),
    ("incoming", .arr ((incoming.take limit).map fun e => neighbour g e.source e.rules)),
    ("truncated", .bool (limit < outgoing.length || limit < incoming.length))]

/-- The state of a service. -/
def health (snapshots : Bool) : Json :=
  .obj [("status", .str "healthy"), ("version", .str Service.version), ("snapshots", .bool snapshots)]

end Reply

end ClassAtlas
