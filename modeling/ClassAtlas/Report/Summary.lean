import ClassAtlas.Service.Replies

namespace ClassAtlas

/-- A class of a catalog. -/
def SourceUnit.toJson (u : SourceUnit) : Json :=
  .obj [("fqn", .str u.name), ("package", .str u.package), ("file_path", .str u.path),
    ("module", .str u.module)]

/-- The numbers of a scan. -/
def ScanStats.toJson (s : ScanStats) : Json :=
  .obj [("files_scanned", .nat s.scanned), ("registered", .nat s.registered),
    ("no_package", .nat s.withoutPackage), ("unreadable", .nat s.unreadable),
    ("collisions", .nat s.collisions)]

/-- A file that could not be read. -/
def ReadError.toJson (e : ReadError) : Json :=
  .obj [("path", .str e.path), ("message", .str e.message)]

/-- A catalog. -/
def Catalog.toJson (c : Catalog) : Json :=
  .obj [("root", .str c.root), ("len", .nat c.size), ("extension", .str c.extension),
    ("modules", .texts c.modules), ("units", .arr (c.list.map (·.toJson))), ("fqns", .texts c.names),
    ("read_errors", .arr (c.readErrors.map (·.toJson))), ("stats", c.stats.toJson)]

/-- What is known of a class of a catalog. -/
def Catalog.lookupJson (c : Catalog) (name : Text) : Json :=
  let found := c.unit? name
  .obj [("found", .bool found.isSome), ("contains", .bool (c.contains name)),
    ("unit", Json.optional (·.toJson) found)]

/-- Dependencies with the numbers of their rules. -/
def Dependency.listJson (ds : List Dependency) : Json :=
  .arr (ds.map fun d => .obj [("class", .str d.target), ("rules", .nat d.rules.bits.toNat)])

/-- A report on the progress of a build. -/
def BuildProgress.toJson (p : BuildProgress) : Json :=
  .obj [("phase", .str p.phase.label), ("total", .nat p.total), ("processed", .nat p.processed),
    ("edges", .nat p.edges)]

/-- A build, also one that failed. -/
def Build.members (b : Build) : List (Text × Json) :=
  [("stats", b.stats.toJson), ("incomplete", .bool b.incomplete), ("has_errors", .bool b.hasErrors),
    ("success", .bool b.success), ("file_errors", .texts (b.fileErrors.map (·.message))),
    ("progress", .arr (b.progress.map (·.toJson))), ("state", .str b.graph.state),
    ("nodes", .nat b.graph.nodeCount), ("edges", .nat b.graph.edgeCount)]

/-- An edge with the name of its rules. -/
def ClassEdge.toJson (e : ClassEdge) : Json :=
  .obj [("from", .str e.source), ("to", .str e.target), ("rules", .str e.rules.label)]

namespace ClassGraph

/-- The size of a graph. -/
def countsJson (g : ClassGraph) : Json :=
  .obj [("nodes", .nat g.nodeCount), ("edges", .nat g.edgeCount), ("hash", .str g.hash),
    ("modules", .texts g.modules), ("state", .str g.state)]

/-- A class with its edges. -/
def nodeJson (g : ClassGraph) (n : ClassNode) : Json :=
  .obj [("id", .str n.unit.name), ("module", .str n.unit.module), ("package", .str n.unit.package),
    ("file_path", .str n.unit.path), ("outgoing", .arr ((g.edgesOut n).map (·.toJson))),
    ("incoming", .arr ((g.edgesIn n).map (·.toJson)))]

/-- The neighbours of a class, and the class itself if it is in the graph. -/
def classJson (g : ClassGraph) (name : Text) : Json :=
  .ofGroups [[("dependencies", Json.optional Json.texts (g.dependencies? name)),
      ("dependents", Json.optional Json.texts (g.dependents? name))],
    match g.node? name with
    | none => []
    | some n => [("node", g.nodeJson n)]]

end ClassGraph

namespace ModuleGraph

/-- The modules and their edges. -/
def members (m : ModuleGraph) : List (Text × Json) :=
  [("modules", .texts m.modules), ("edges", .arr (m.edges.map (·.toJson))),
    ("edge_count", .nat m.edgeCount)]

/-- The neighbours of a module. -/
def moduleJson (m : ModuleGraph) (name : Text) : Json :=
  .obj [("has", .bool (m.hasModule name)),
    ("edges_from", .arr ((m.edgesFrom name).map (·.toJson))),
    ("depended_by", .arr ((m.edgesTo name).map (·.toJson))),
    ("dependencies", .texts (m.dependencies name)), ("dependents", .texts (m.dependents name))]

end ModuleGraph

/-- A statement of an export. -/
def Statement.toJson (s : Statement) : Json :=
  .obj [("cypher", .str s.query),
    ("params", Json.optional (fun rows => .obj [("batch", .arr rows)]) s.rows)]

/-- The statements that were sent; null if there are none. -/
def Connection.sentJson (c : Connection) : Json :=
  if c.sent.isEmpty then .null else .arr (c.statements.map (·.toJson))

end ClassAtlas
