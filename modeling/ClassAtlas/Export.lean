import ClassAtlas.Graph.Document
import ClassAtlas.Interrupt

namespace ClassAtlas

/-- A statement for the database, with the rows that it is applied to. -/
structure Statement where
  query : Text
  rows : Option (List Json)

/-- Why a statement was not carried out. -/
inductive SendFault where
  | refused
  | interrupted (cause : Interruption)
  deriving DecidableEq, Repr

/-- The wording of a fault. -/
def SendFault.message : SendFault → Text
  | .refused => "runner failed"
  | .interrupted cause => cause.message

/-- A connection to the database: the statements that it carried out, the newest first, and the
place of the statement that it will refuse, if any. -/
structure Connection where
  failAt : Nat
  sent : List Statement

namespace Connection

/-- A connection over which nothing was sent. -/
def fresh (failAt : Nat) : Connection := ⟨failAt, []⟩

/-- Sends a statement. -/
def send (c : Connection) (s : Statement) : Except SendFault Connection :=
  if c.failAt == c.sent.length + 1 then .error .refused else .ok { c with sent := s :: c.sent }

/-- The statements in the order in which they were sent. -/
def statements (c : Connection) : List Statement := c.sent.reverse

end Connection

/-- The parts of an export. -/
inductive ExportPhase where
  | clean
  | indexes
  | modules
  | classes
  | classEdges
  | moduleEdges
  deriving DecidableEq, Repr

/-- The words for a part. -/
def ExportPhase.label : ExportPhase → Text
  | .clean => "clean graph"
  | .indexes => "create indexes"
  | .modules => "load modules"
  | .classes => "load classes"
  | .classEdges => "load class edges"
  | .moduleEdges => "load module edges"

/-- Why an export failed. -/
inductive ExportError where
  | noAddress
  | badAddress
  | noGraph
  | sending (phase : ExportPhase) (fault : SendFault)
  deriving DecidableEq, Repr

/-- The wording of a failure. -/
def ExportError.message : ExportError → Text
  | .noAddress => "neo4j uri is required"
  | .badAddress => "create neo4j driver"
  | .noGraph => "class graph must not be nil"
  | .sending phase fault => phase.label ++ ": " ++ fault.message

/-- How much an export has written. -/
structure ExportStats where
  modules : Nat
  classes : Nat
  classEdges : Nat
  moduleEdges : Nat
  statements : Nat
  deriving DecidableEq, Repr

namespace ExportStats

/-- Nothing written. -/
def zero : ExportStats := ⟨0, 0, 0, 0, 0⟩

/-- The numbers as JSON. -/
def toJson (s : ExportStats) : Json :=
  .obj [("modules", .nat s.modules), ("classes", .nat s.classes),
    ("class_edges", .nat s.classEdges), ("module_edges", .nat s.moduleEdges),
    ("statements", .nat s.statements)]

end ExportStats

namespace Export

/-- The schemes of addresses of databases. -/
def schemes : List Text :=
  ["neo4j", "neo4j+s", "neo4j+ssc", "bolt", "bolt+s", "bolt+ssc", "bolt+unix"]

/-- An address has to be given, with a scheme of a database. -/
def checkAddress (address : Text) : Except ExportError Unit :=
  if address.isEmpty then .error .noAddress
  else match address.cutAt? 58 with
    | some (scheme, _) => if schemes.contains scheme.lowerAscii then .ok () else .error .badAddress
    | none => .error .badAddress

/-- The rows of one statement, unless another number is asked for. -/
def standardBatch : Nat := 500

/-- The rows of one statement for a wish. -/
def batchSize (wish : Int) : Nat := if 0 < wish then wish.toNat else standardBatch

/-- The statements that remove everything an export writes. -/
def cleaning : List Text :=
  ["MATCH ()-[r:DEPENDS_ON]->() DELETE r",
   "MATCH ()-[r:MODULE_DEPENDS_ON]->() DELETE r",
   "MATCH ()-[r:IN_MODULE]->() DELETE r",
   "MATCH (n:Class) DETACH DELETE n",
   "MATCH (n:Module) DETACH DELETE n"]

/-- The statements that make look-ups fast. -/
def indexing : List Text :=
  ["CREATE INDEX modtrace_module_name IF NOT EXISTS FOR (n:Module) ON (n.name)",
   "CREATE INDEX modtrace_class_fqn IF NOT EXISTS FOR (n:Class) ON (n.fqn)"]

/-- The clauses of a statement over rows, each on a line of its own. -/
def overRows (clauses : List Text) : Text := Text.join "\n\t\t " ("UNWIND $batch AS row" :: clauses)

/-- The statement for modules. -/
def moduleQuery : Text := overRows ["MERGE (m:Module \x7bname: row.name\x7d)"]

/-- The statement for classes. -/
def classQuery : Text :=
  overRows [
    "MERGE (c:Class \x7bfqn: row.fqn\x7d)",
    "SET c.name = row.name, c.package = row.package, c.module = row.module, c.file = row.file",
    "WITH c, row",
    "MERGE (m:Module \x7bname: row.module\x7d)",
    "MERGE (c)-[:IN_MODULE]->(m)"]

/-- The statement for edges between classes. -/
def classEdgeQuery : Text :=
  overRows [
    "MATCH (a:Class \x7bfqn: row.from\x7d), (b:Class \x7bfqn: row.to\x7d)",
    "MERGE (a)-[r:DEPENDS_ON]->(b)",
    "SET r.rules = row.rules"]

/-- The statement for edges between modules. -/
def moduleEdgeQuery : Text :=
  overRows [
    "MATCH (a:Module \x7bname: row.from\x7d), (b:Module \x7bname: row.to\x7d)",
    "MERGE (a)-[r:MODULE_DEPENDS_ON]->(b)",
    "SET r.evidence_count = row.evidence"]

/-- The row of a module. -/
def moduleRow (name : Text) : Json := .obj [("name", .str name)]

/-- The row of a class. -/
def classRow (n : ClassNode) : Json :=
  .obj [("fqn", .str n.unit.name), ("name", .str (ClassName.simple n.unit.name)),
    ("package", .str n.unit.package), ("module", .str n.unit.module), ("file", .str n.unit.path)]

/-- The row of an edge between classes. -/
def classEdgeRow (e : ClassEdge) : Json :=
  .obj [("from", .str e.source), ("to", .str e.target), ("rules", .str e.rules.label)]

/-- The row of an edge between modules. -/
def moduleEdgeRow (e : ModuleEdge) : Json :=
  .obj [("from", .str e.source), ("to", .str e.target), ("evidence", .nat e.evidence.length)]

/-- Cuts rows into batches of `size` rows, the last of which may have fewer. -/
def batches (size : Nat) (rows : List Json) : List (List Json) :=
  if _ : rows.isEmpty || size == 0 then []
  else rows.take size :: batches size (rows.drop size)
termination_by rows.length
decreasing_by
  rename_i h
  simp only [Bool.or_eq_true, List.isEmpty_iff, beq_iff_eq, not_or] at h
  have := List.length_pos_iff.2 h.1
  simp only [List.length_drop]
  omega

/-- The state of an export under way. -/
structure Progress where
  connection : Connection
  budget : Budget
  stats : ExportStats

/-- How an export or a part of it ended. -/
structure Outcome where
  progress : Progress
  failure : Option ExportError

/-- Sends statements without rows. -/
def sendQueries (phase : ExportPhase) : List Text → Progress → Outcome
  | [], p => ⟨p, none⟩
  | query :: rest, p =>
    match p.connection.send ⟨query, none⟩ with
    | .error fault => ⟨p, some (.sending phase fault)⟩
    | .ok connection => sendQueries phase rest { p with connection }

/-- Sends a query over batches, with a check before each. -/
def sendBatches (phase : ExportPhase) (query : Text) : List (List Json) → Progress → Outcome
  | [], p => ⟨p, none⟩
  | batch :: rest, p =>
    match p.budget.check with
    | .error cause => ⟨p, some (.sending phase (.interrupted cause))⟩
    | .ok budget =>
      match p.connection.send ⟨query, some batch⟩ with
      | .error fault => ⟨{ p with budget }, some (.sending phase fault)⟩
      | .ok connection =>
        sendBatches phase query rest
          { connection, budget, stats := { p.stats with statements := p.stats.statements + 1 } }

/-- One part of the load: its rows, and how they are counted once all are written. -/
structure Load where
  phase : ExportPhase
  query : Text
  rows : List Json
  counted : ExportStats → ExportStats

/-- The parts of a load, in their order. -/
def loads (g : ClassGraph) : List Load :=
  let m := ModuleGraph.project g
  [⟨.modules, moduleQuery, m.modules.map moduleRow,
      fun s => { s with modules := m.modules.length }⟩,
   ⟨.classes, classQuery, g.nodeList.map classRow,
      fun s => { s with classes := g.nodeList.length }⟩,
   ⟨.classEdges, classEdgeQuery, g.edgeList.map classEdgeRow,
      fun s => { s with classEdges := g.edgeList.length }⟩,
   ⟨.moduleEdges, moduleEdgeQuery, m.edges.map moduleEdgeRow,
      fun s => { s with moduleEdges := m.edges.length }⟩]

/-- Carries out the parts of a load until one fails. -/
def runLoads (size : Nat) : List Load → Progress → Outcome
  | [], p => ⟨p, none⟩
  | l :: rest, p =>
    let done := sendBatches l.phase l.query (batches size l.rows) p
    match done.failure with
    | some _ => done
    | none =>
      runLoads size rest { done.progress with stats := l.counted done.progress.stats }

/-- What an export is to do. -/
structure Options where
  batch : Nat
  clean : Bool
  indexes : Bool
  deriving DecidableEq, Repr

/-- Goes on with the next part unless one has failed. -/
def Outcome.andThen (o : Outcome) (next : Progress → Outcome) : Outcome :=
  match o.failure with
  | some _ => o
  | none => next o.progress

/-- Loads a graph. -/
def load (size : Nat) (graph : Option ClassGraph) (p : Progress) : Outcome :=
  match graph with
  | none => ⟨p, some .noGraph⟩
  | some g => runLoads size (loads g) p

/-- Exports a graph: removes the old data and makes indexes if asked to, then loads. -/
def run (options : Options) (graph : Option ClassGraph) (budget : Budget) (c : Connection) :
    Outcome :=
  let cleaned := sendQueries .clean (if options.clean then cleaning else []) ⟨c, budget, .zero⟩
  let ready := cleaned.andThen
    (sendQueries .indexes (if options.indexes then indexing else []))
  ready.andThen (load options.batch graph)

end Export

end ClassAtlas
