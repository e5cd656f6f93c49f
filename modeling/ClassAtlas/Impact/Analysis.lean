import ClassAtlas.Collection.Unvisited
import ClassAtlas.Graph.Document
import ClassAtlas.Impact.Change
import ClassAtlas.Interrupt

namespace ClassAtlas

namespace Reverse

/-- A name that a search has reached, the number of steps to a seed, and the next name on the way
there. -/
structure Reached where
  name : Text
  distance : Nat
  through : Text
  deriving DecidableEq, Repr

/-- Those of some names that belong to the graph and are not seen yet. -/
def fresh (names seen found : List Text) : List Text :=
  found.filter fun n => names.contains n && !seen.contains n

/-- Fresh names leave fewer to visit. -/
theorem unvisited_fresh {names seen found : List Text} (h : fresh names seen found ≠ []) :
    unvisited names (fresh names seen found ++ seen) < unvisited names seen := by
  obtain ⟨n, hn⟩ := List.exists_mem_of_ne_nil _ h
  have hmem := List.mem_filter.mp hn
  simp only [Bool.and_eq_true, Bool.not_eq_true'] at hmem
  exact unvisited_lt (by simpa using hmem.2.1) hmem.2.2 (List.mem_append_left _ hn)
    fun n hn => List.mem_append_right _ hn

/-- Searches backwards and breadth first. `above` gives the names one step before a name, of which
only those among `names` count; a limit of zero steps means no limit. -/
def search (names : List Text) (above : Text → List Text) (limit : Nat)
    (queue : List (Text × Nat)) (seen : List Text) : List Reached :=
  match queue with
  | [] => []
  | (name, distance) :: rest =>
    if limit != 0 && limit ≤ distance then search names above limit rest seen
    else
      ((fresh names seen (above name)).map fun n => ⟨n, distance + 1, name⟩) ++
        search names above limit
          (rest ++ (fresh names seen (above name)).map fun n => (n, distance + 1))
          (fresh names seen (above name) ++ seen)
termination_by (unvisited names seen, queue.length)
decreasing_by
  · exact Prod.Lex.right _ (by simp)
  · by_cases hfresh : fresh names seen (above name) = []
    · rw [hfresh]
      exact Prod.Lex.right _ (by simp)
    · exact Prod.Lex.left _ _ (unvisited_fresh hfresh)

/-- Everything from which a seed can be reached. -/
def closure (names : List Text) (above : Text → List Text) (limit : Nat) (seeds : List Text) :
    List Reached :=
  search names above limit (seeds.map fun s => (s, 0)) seeds

end Reverse

/-- A module that depends on a changed one. -/
structure ImpactedModule where
  module : Text
  distance : Int
  through : Text
  evidence : List ClassPair
  deriving DecidableEq, Repr

/-- The report on the impact of changed files. -/
structure ImpactReport where
  files : List ChangedFile
  changedModules : List Text
  changedClasses : List Text
  affectedClasses : List Text
  impactedModules : List ImpactedModule
  deriving DecidableEq, Repr

/-- Why there is no report. -/
inductive ImpactError where
  | noGraph
  | invalidPatch
  | interrupted (cause : Interruption)
  deriving DecidableEq, Repr

/-- The wording of a failed analysis. -/
def ImpactError.message : ImpactError → Text
  | .noGraph => "class graph is required"
  | .invalidPatch => "invalid unified diff"
  | .interrupted i => i.message

/-- How to analyse the impact. -/
structure ImpactOptions where
  extension : Text := ".java"
  maxDepth : Nat := 0

namespace ImpactOptions

/-- Takes over an extension, which starts with a dot; an empty one changes nothing. -/
def withExtension (o : ImpactOptions) (extension : Text) : ImpactOptions :=
  if extension.isEmpty then o
  else { o with extension := if extension.startsWith "." then extension else Text.dot :: extension }

/-- Takes over a depth; a negative one changes nothing. -/
def withMaxDepth (o : ImpactOptions) (depth : Int) : ImpactOptions :=
  if depth < 0 then o else { o with maxDepth := depth.toNat }

end ImpactOptions

namespace Impact

/-- The classes of a graph by the paths of their files as seen from its root. Of two classes in one
file the later by name is found. -/
def classesByPath (g : ClassGraph) : SortedMap Text Text :=
  g.nodeList.foldl (fun found n =>
    match Path.relative? g.root n.unit.path with
    | none => found
    | some rel => found.insert rel n.unit.name) SortedMap.empty

/-- The module of a path as seen from the root of a graph. -/
def moduleOf (g : ClassGraph) (rel : Text) : Text :=
  if rel.isEmpty then Module.unknown else Module.ofPath g.root (Path.join [g.root, rel])

/-- The file with its class, its module and whether it is a source file. -/
def annotate (g : ClassGraph) (byPath : SortedMap Text Text) (extension : Text) (f : ChangedFile) :
    ChangedFile :=
  { f with
    module := moduleOf g f.path
    isSource := f.path.endsWith extension
    className := (byPath.find? f.path).getD [] }

/-- The paths from which the impact of a file spreads: both paths of a source file. -/
def seedPaths (f : ChangedFile) : List Text :=
  if f.isSource then [f.path, f.oldPath].filter (!·.isEmpty) else []

/-- The classes that depend on one of the given classes, directly or through others. -/
def affectedClasses (g : ClassGraph) (changed : List Text) : List Text :=
  sortDistinct ((Reverse.closure g.nodes.keys (fun c => (g.dependents? c).getD []) 0 changed).map (·.name))

/-- The modules that depend on one of the given modules, directly or through others, by distance
and name. -/
def impactedModules (m : ModuleGraph) (limit : Nat) (seeds : List Text) : List ImpactedModule :=
  let found := Reverse.closure (m.edges.map (·.source)) m.dependents limit seeds
  (sortBy (fun r => (r.distance, r.name)) found).map fun r =>
    ⟨r.name, r.distance, r.through, ((m.edge? r.name r.through).map (·.evidence)).getD []⟩

/-- Goes through the files with one check before each of them. -/
def annotateAll (g : ClassGraph) (byPath : SortedMap Text Text) (extension : Text) :
    List ChangedFile → Budget → Except Interruption (List ChangedFile)
  | [], _ => .ok []
  | f :: rest, budget =>
    match budget.check with
    | .error i => .error i
    | .ok budget' =>
      match annotateAll g byPath extension rest budget' with
      | .error i => .error i
      | .ok more => .ok (annotate g byPath extension f :: more)

/-- The impact of changed files. -/
def analyzeFiles (g : ClassGraph) (options : ImpactOptions) (files : List ChangedFile)
    (budget : Budget) : Except ImpactError ImpactReport :=
  let byPath := classesByPath g
  match annotateAll g byPath options.extension files budget with
  | .error i => .error (.interrupted i)
  | .ok files =>
    let paths := files.flatMap seedPaths
    let modules := sortDistinct ((paths.map (moduleOf g)).filter (· != Module.unknown))
    let classes := sortDistinct (paths.filterMap byPath.find?)
    .ok ⟨files, modules, classes, affectedClasses g classes,
      impactedModules (ModuleGraph.project g) options.maxDepth modules⟩

/-- The impact of a patch. -/
def analyze (g : ClassGraph) (options : ImpactOptions) (patch : Text) (budget : Budget) :
    Except ImpactError ImpactReport :=
  match ChangedFile.ofPatchText? patch with
  | none => .error .invalidPatch
  | some files => analyzeFiles g options files budget

end Impact

/-- A module as JSON. -/
def ImpactedModule.toJson (m : ImpactedModule) : Json :=
  .obj [("module", .str m.module), ("distance", .int m.distance), ("through", .str m.through),
    ("evidence", .arr (m.evidence.map (·.toJson)))]

/-- The report as JSON; no impacted modules are null. -/
def ImpactReport.toJson (r : ImpactReport) : Json :=
  .obj [("files", .arr (r.files.map (·.toJson))), ("changed_modules", .texts r.changedModules),
    ("changed_classes", .texts r.changedClasses), ("affected_classes", .texts r.affectedClasses),
    ("impacted_modules",
      if r.impactedModules.isEmpty then .null else .arr (r.impactedModules.map (·.toJson)))]

end ClassAtlas
