import ClassAtlas.Graph.Modules
import ClassAtlas.Json.Decode
import ClassAtlas.Text.Quoted

namespace ClassAtlas

/-- An edge as it stands in a document. -/
structure EdgeRecord where
  source : Text
  target : Text
  label : Text
  rules : Rules
  deriving DecidableEq, Repr

/-- A stored graph. -/
structure GraphDocument where
  schema : Text
  root : Text
  builtAt : Int
  hash : Text
  modules : List Text
  nodes : List SourceUnit
  edges : List EdgeRecord
  moduleEdges : List ModuleEdge
  deriving DecidableEq, Repr

/-- Why a document gives no graph. -/
inductive DocumentError where
  | absent
  | schema (found : Text)
  | addingModule (name : Text) (cause : GraphError)
  | addingNode (name : Text) (cause : GraphError)
  | addingEdge (index : Nat) (source target : Text) (cause : GraphError)
  deriving DecidableEq, Repr

namespace GraphDocument

/-- The version of the document form. -/
def currentSchema : Text := "1.0"

end GraphDocument

/-- The wording of a refused document. -/
def DocumentError.message : DocumentError → Text
  | .absent => "serializable graph must not be nil"
  | .schema found =>
    "unsupported schema version: " ++ Quoted.encode found ++ " (expected " ++
      Quoted.encode GraphDocument.currentSchema ++ ")"
  | .addingModule name e => "adding module " ++ name ++ ": " ++ e.message
  | .addingNode name e => "adding node " ++ name ++ ": " ++ e.message
  | .addingEdge i source target e =>
    "adding edge " ++ Decimal.ofNat i ++ " (" ++ source ++ " -> " ++ target ++ "): " ++ e.message

namespace GraphDocument

/-- The document of no graph at all. -/
def empty : GraphDocument := ⟨currentSchema, [], 0, [], [], [], [], []⟩

/-- The document before anything is read into it. -/
def unread : GraphDocument := ⟨[], [], 0, [], [], [], [], []⟩

/-- The document of a graph. -/
def ofGraph (g : ClassGraph) : GraphDocument where
  schema := currentSchema
  root := g.root
  builtAt := g.builtAt
  hash := g.hash
  modules := g.modules
  nodes := g.nodeList.map (·.unit)
  edges := g.edgeList.map fun e => ⟨e.source, e.target, e.rules.label, e.rules⟩
  moduleEdges := (ModuleGraph.project g).edges

/-- Adds the modules of a document. -/
def addModules (modules : List Text) (g : ClassGraph) : Except DocumentError ClassGraph :=
  modules.foldlM (fun g m => (g.addModule m).mapError (.addingModule m)) g

/-- Adds the nodes of a document. -/
def addNodes (nodes : List SourceUnit) (g : ClassGraph) : Except DocumentError ClassGraph :=
  nodes.foldlM (fun g u => (g.addNode u).mapError (.addingNode u.name)) g

/-- Adds the edges of a document, the first of which has the given index. -/
def addEdges : Nat → List EdgeRecord → ClassGraph → Except DocumentError ClassGraph
  | _, [], g => .ok g
  | i, e :: rest, g =>
    match g.addEdge e.source e.target e.rules with
    | .error cause => .error (.addingEdge i e.source e.target cause)
    | .ok g' => addEdges (i + 1) rest g'

/-- The graph of a document. -/
def toGraph (doc : GraphDocument) (limits : GraphLimits) : Except DocumentError ClassGraph := do
  if doc.schema != currentSchema then throw (.schema doc.schema)
  let g ← addModules doc.modules (ClassGraph.new doc.root limits)
  let g ← addNodes doc.nodes g
  let g ← addEdges 0 doc.edges g
  return g.freeze doc.builtAt

/-- A class of a document as JSON. -/
def nodeJson (u : SourceUnit) : Json :=
  .obj [("id", .str u.name), ("module", .str u.module), ("package", .str u.package),
    ("file_path", .str u.path)]

/-- An edge of a document as JSON. -/
def edgeJson (e : EdgeRecord) : Json :=
  .obj [("from_id", .str e.source), ("to_id", .str e.target), ("rules", .str e.label),
    ("rule_code", .nat e.rules.bits.toNat)]

end GraphDocument

/-- A pair of classes as JSON. -/
def ClassPair.toJson (p : ClassPair) : Json := .obj [("from", .str p.source), ("to", .str p.target)]

/-- An edge between modules as JSON. -/
def ModuleEdge.toJson (e : ModuleEdge) : Json :=
  .obj [("from", .str e.source), ("to", .str e.target), ("evidence", .arr (e.evidence.map (·.toJson)))]

namespace GraphDocument

/-- The document as JSON. -/
def toJson (doc : GraphDocument) : Json :=
  .obj [("schema_version", .str doc.schema), ("project_root", .str doc.root),
    ("built_at_milli", .int doc.builtAt), ("graph_hash", .str doc.hash),
    ("modules", .texts doc.modules), ("nodes", .arr (doc.nodes.map nodeJson)),
    ("edges", .arr (doc.edges.map edgeJson)),
    ("module_edges", .arr (doc.moduleEdges.map (·.toJson)))]

/-- The fields of a class. -/
def nodeFields : List (Text × Json.Filler SourceUnit) :=
  [("id", Json.part (·.name) (fun u v => { u with name := v }) Json.fillText),
    ("module", Json.part (·.module) (fun u v => { u with module := v }) Json.fillText),
    ("package", Json.part (·.package) (fun u v => { u with package := v }) Json.fillText),
    ("file_path", Json.part (·.path) (fun u v => { u with path := v }) Json.fillText)]

/-- Fills a class from JSON. -/
def fillNode : Json.Filler SourceUnit := Json.fillRecord (Json.named nodeFields)

/-- The fields of an edge. -/
def edgeFields : List (Text × Json.Filler EdgeRecord) :=
  [("from_id", Json.part (·.source) (fun e v => { e with source := v }) Json.fillText),
    ("to_id", Json.part (·.target) (fun e v => { e with target := v }) Json.fillText),
    ("rules", Json.part (·.label) (fun e v => { e with label := v }) Json.fillText),
    ("rule_code", Json.part (·.rules.bits) (fun e v => { e with rules := ⟨v⟩ }) Json.fillByte)]

/-- Fills an edge from JSON. -/
def fillEdge : Json.Filler EdgeRecord := Json.fillRecord (Json.named edgeFields)

/-- The fields of a pair of classes. -/
def pairFields : List (Text × Json.Filler ClassPair) :=
  [("from", Json.part (·.source) (fun p v => { p with source := v }) Json.fillText),
    ("to", Json.part (·.target) (fun p v => { p with target := v }) Json.fillText)]

/-- Fills a pair of classes from JSON. -/
def fillPair : Json.Filler ClassPair := Json.fillRecord (Json.named pairFields)

/-- Fills a list; null stands for the empty list. -/
def fillList {α : Type} (blank : α) (item : Json.Filler α) : Json.Filler (List α) :=
  fun old j => (Json.fillList blank item (some old) j).map (·.getD [])

/-- The fields of an edge between modules. -/
def moduleEdgeFields : List (Text × Json.Filler ModuleEdge) :=
  [("from", Json.part (·.source) (fun e v => { e with source := v }) Json.fillText),
    ("to", Json.part (·.target) (fun e v => { e with target := v }) Json.fillText),
    ("evidence", Json.part (·.evidence) (fun e v => { e with evidence := v })
      (fillList ⟨[], []⟩ fillPair))]

/-- Fills an edge between modules from JSON. -/
def fillModuleEdge : Json.Filler ModuleEdge := Json.fillRecord (Json.named moduleEdgeFields)

/-- The fields of a document. -/
def fields : List (Text × Json.Filler GraphDocument) :=
  [("schema_version", Json.part (·.schema) (fun d v => { d with schema := v }) Json.fillText),
    ("project_root", Json.part (·.root) (fun d v => { d with root := v }) Json.fillText),
    ("built_at_milli", Json.part (·.builtAt) (fun d v => { d with builtAt := v }) Json.fillInt),
    ("graph_hash", Json.part (·.hash) (fun d v => { d with hash := v }) Json.fillText),
    ("modules", Json.part (·.modules) (fun d v => { d with modules := v })
      (fillList [] Json.fillText)),
    ("nodes", Json.part (·.nodes) (fun d v => { d with nodes := v })
      (fillList ⟨[], [], [], []⟩ fillNode)),
    ("edges", Json.part (·.edges) (fun d v => { d with edges := v })
      (fillList ⟨[], [], [], Rules.none⟩ fillEdge)),
    ("module_edges", Json.part (·.moduleEdges) (fun d v => { d with moduleEdges := v })
      (fillList ⟨[], [], []⟩ fillModuleEdge))]

/-- Fills a document from JSON. -/
def fill : Json.Filler GraphDocument := Json.fillRecord (Json.named fields)

/-- Reads a document from JSON. -/
def ofJson? (j : Json) : Option GraphDocument := fill unread j

end GraphDocument

end ClassAtlas
