import ClassAtlas.Graph.Document
import ClassAtlas.Number.Binary

namespace ClassAtlas

/-- A class that is in another module than before. -/
structure ClassMove where
  name : Text
  source : Text
  target : Text
  deriving DecidableEq, Repr

/-- The size of a difference. -/
structure DiffSummary where
  totalChanges : Int
  modulesAffected : Int
  changeRatio : Binary
  deriving DecidableEq, Repr

/-- The difference between a base and a target. -/
structure GraphDiff where
  baseId : Text
  targetId : Text
  classesAdded : List Text
  classesRemoved : List Text
  classesMoved : List ClassMove
  edgesAdded : List ClassPair
  edgesRemoved : List ClassPair
  moduleEdgesAdded : List ClassPair
  moduleEdgesRemoved : List ClassPair
  summary : DiffSummary
  deriving DecidableEq, Repr

/-- Why two graphs cannot be compared. -/
inductive DiffError where
  | noBase
  | noTarget
  deriving DecidableEq, Repr

/-- The wording of a failed comparison. -/
def DiffError.message : DiffError → Text
  | .noBase => "base graph must not be nil"
  | .noTarget => "target graph must not be nil"

namespace GraphDiff

/-- There are no changes. -/
def isEmpty (d : GraphDiff) : Bool := d.summary.totalChanges == 0

/-- The classes of `g` that are not in `other`. -/
def newClasses (g other : ClassGraph) : List Text :=
  g.nodes.keys.filter fun name => !other.nodes.contains name

/-- The classes of both graphs that changed their modules. -/
def moves (base target : ClassGraph) : List ClassMove :=
  target.nodeList.filterMap fun t =>
    match base.node? t.unit.name with
    | none => none
    | some b =>
      if b.unit.module == t.unit.module then none
      else some ⟨t.unit.name, b.unit.module, t.unit.module⟩

/-- The edges of `g` that are not in `other`. -/
def newEdges (g other : ClassGraph) : List ClassPair :=
  (g.edgeList.filter fun e => !other.hasEdge e.source e.target).map fun e => ⟨e.source, e.target⟩

/-- The module edges of `g` that are not in `other`. -/
def newModuleEdges (g other : ModuleGraph) : List ClassPair :=
  (g.edges.filter fun e => (other.edge? e.source e.target).isNone).map fun e => ⟨e.source, e.target⟩

/-- The difference between two graphs. -/
def compare (base target : ClassGraph) (baseId targetId : Text) : GraphDiff :=
  let added := newClasses target base
  let removed := newClasses base target
  let moved := moves base target
  let edgesAdded := newEdges target base
  let edgesRemoved := newEdges base target
  let baseModules := ModuleGraph.project base
  let targetModules := ModuleGraph.project target
  let moduleEdgesAdded := newModuleEdges targetModules baseModules
  let moduleEdgesRemoved := newModuleEdges baseModules targetModules
  let affected := sortDistinct (added.map target.moduleOf ++ removed.map base.moduleOf ++
    moved.map (·.source) ++ moved.map (·.target) ++
    edgesAdded.map (fun e => target.moduleOf e.source) ++
    edgesRemoved.map (fun e => base.moduleOf e.source))
  let changedClasses := added.length + removed.length + moved.length
  let changes := changedClasses + edgesAdded.length + edgesRemoved.length +
    moduleEdgesAdded.length + moduleEdgesRemoved.length
  ⟨baseId, targetId, added, removed, moved, edgesAdded, edgesRemoved, moduleEdgesAdded,
    moduleEdgesRemoved, ⟨changes, affected.length,
      Binary.ofCounts changedClasses (max base.nodeCount target.nodeCount)⟩⟩

/-- The difference between two graphs that may be missing. -/
def compare? (base target : Option ClassGraph) (baseId targetId : Text) : Except DiffError GraphDiff :=
  match base, target with
  | none, _ => .error .noBase
  | some _, none => .error .noTarget
  | some b, some t => .ok (compare b t baseId targetId)

end GraphDiff

/-- A move as JSON. -/
def ClassMove.toJson (m : ClassMove) : Json :=
  .obj [("class", .str m.name), ("from_module", .str m.source), ("to_module", .str m.target)]

/-- The difference as JSON. -/
def GraphDiff.toJson (d : GraphDiff) : Json :=
  .obj [("base_snapshot_id", .str d.baseId), ("target_snapshot_id", .str d.targetId),
    ("classes_added", .texts d.classesAdded), ("classes_removed", .texts d.classesRemoved),
    ("classes_moved", .arr (d.classesMoved.map (·.toJson))),
    ("edges_added", .arr (d.edgesAdded.map (·.toJson))),
    ("edges_removed", .arr (d.edgesRemoved.map (·.toJson))),
    ("module_edges_added", .arr (d.moduleEdgesAdded.map (·.toJson))),
    ("module_edges_removed", .arr (d.moduleEdgesRemoved.map (·.toJson))),
    ("summary", .obj [("total_changes", .int d.summary.totalChanges),
      ("modules_affected", .int d.summary.modulesAffected),
      ("change_ratio", .num d.summary.changeRatio.text)])]

end ClassAtlas
