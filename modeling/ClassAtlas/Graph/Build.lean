import ClassAtlas.Dependency.Extract
import ClassAtlas.Graph.Modules
import ClassAtlas.Interrupt

namespace ClassAtlas

/-- Why a build stopped. -/
inductive BuildError where
  | cancelled (cause : Interruption)
  | addingModule (cause : GraphError)
  | addingClass (name : Text) (cause : GraphError)
  | addingEdge (source target : Text) (cause : GraphError)
  deriving DecidableEq, Repr

/-- The wording of a stopped build. -/
def BuildError.message : BuildError → Text
  | .cancelled i => "build cancelled: " ++ i.message
  | .addingModule e => e.message
  | .addingClass name e => "adding class " ++ name ++ ": " ++ e.message
  | .addingEdge source target e => "adding edge " ++ source ++ " -> " ++ target ++ ": " ++ e.message

/-- A class whose dependencies could not be found. -/
structure FileError where
  name : Text
  cause : SourceError
  deriving DecidableEq, Repr

/-- The wording of a failed class. -/
def FileError.message (e : FileError) : Text := "class " ++ e.name ++ ": " ++ e.cause.message

/-- The stages of a build. -/
inductive BuildPhase where
  | collecting
  | extracting
  | finalizing
  | unknown
  deriving DecidableEq, Repr

namespace BuildPhase

/-- The name of a stage. -/
def label : BuildPhase → Text
  | .collecting => "collecting"
  | .extracting => "extracting_edges"
  | .finalizing => "finalizing"
  | .unknown => "unknown"

/-- The stage of a number. -/
def ofNumber : Int → BuildPhase := numbered [.collecting, .extracting, .finalizing] .unknown

end BuildPhase

/-- A report on the progress of a build. -/
structure BuildProgress where
  phase : BuildPhase
  total : Nat
  processed : Nat
  edges : Nat
  deriving DecidableEq, Repr

/-- What a build has done. -/
structure BuildStats where
  processed : Nat := 0
  failed : Nat := 0
  nodes : Nat := 0
  edges : Nat := 0
  imported : Nat := 0
  usedOnly : Nat := 0
  moduleEdges : Nat := 0
  deriving DecidableEq, Repr

/-- How to build. -/
structure BuildOptions where
  limits : GraphLimits := {}
  progressEvery : Int := 500

/-- A build in progress, and its result. -/
structure Build where
  graph : ClassGraph
  modules : Option ModuleGraph
  fileErrors : List FileError
  stats : BuildStats
  progress : List BuildProgress
  failure : Option BuildError
  cache : TextCache

namespace Build

/-- The build did not come to its end. -/
def incomplete (b : Build) : Bool := b.failure.isSome

/-- Some class could not be read. -/
def hasErrors (b : Build) : Bool := !b.fileErrors.isEmpty

/-- The build came to its end and every class could be read. -/
def success (b : Build) : Bool := !b.incomplete && !b.hasErrors

/-- Stops a build. -/
def fail (b : Build) (e : BuildError) : Build := { b with failure := some e }

/-- Adds a report on the progress; it shows the number of edges last counted. -/
def report (b : Build) (phase : BuildPhase) (total processed : Nat) : Build :=
  { b with progress := b.progress ++ [⟨phase, total, processed, b.stats.edges⟩] }

/-- Names the modules. -/
def addModules : List Text → Build → Build
  | [], b => b
  | m :: rest, b =>
    match b.graph.addModule m with
    | .error e => b.fail (.addingModule e)
    | .ok g => addModules rest { b with graph := g }

/-- Adds the classes as nodes. -/
def addClasses : List SourceUnit → Build → Build
  | [], b => b
  | u :: rest, b =>
    match b.graph.addNode u with
    | .error e => b.fail (.addingClass u.name e)
    | .ok g => addClasses rest { b with graph := g, stats := { b.stats with nodes := b.stats.nodes + 1 } }

/-- Adds the dependencies of a class as edges. -/
def addDependencies (source : Text) : List Dependency → Build → Build
  | [], b => b
  | d :: rest, b =>
    match b.graph.addEdge source d.target d.rules with
    | .error e => b.fail (.addingEdge source d.target e)
    | .ok g => addDependencies source rest { b with graph := g }

/-- Counts a class as done, and reports after every `every` classes. -/
def finishClass (every total done : Nat) (b : Build) : Build :=
  let b := { b with stats := { b.stats with processed := b.stats.processed + 1 } }
  if done % every == 0 then
    { b with stats := { b.stats with edges := b.graph.edgeCount } }.report .extracting total done
  else b

/-- Goes on unless the build has stopped. -/
def andThen (b : Build) (next : Build → Build) : Build := if b.failure.isSome then b else next b

/-- Finds the dependencies of a class, `done` with all before it, or notes that it cannot be read. -/
def extractClass (x : Extractor) (d : Disk) (every total done : Nat) (name : Text) (b : Build) : Build :=
  match x.extractFor d name b.cache with
  | (.error e, cache) =>
    { b with
      cache := cache
      fileErrors := b.fileErrors ++ [⟨name, e⟩]
      stats := { b.stats with failed := b.stats.failed + 1 } }
  | (.ok found, cache) =>
    (addDependencies name found { b with cache := cache }).andThen (finishClass every total done)

/-- Finds the dependencies of the classes, `done` of which came before, with one check before each
of them. -/
def extractEdges (x : Extractor) (d : Disk) (every total : Nat) :
    Nat → List Text → Budget → Build → Build
  | _, [], _, b => b
  | done, name :: rest, budget, b =>
    match budget.check with
    | .error i => b.fail (.cancelled i)
    | .ok budget' =>
      (extractClass x d every total (done + 1) name b).andThen
        (extractEdges x d every total (done + 1) rest budget')

/-- Counts an edge by the rules that found it. -/
def countEdge (s : BuildStats) (e : ClassEdge) : BuildStats :=
  if e.rules.has Rules.imported then { s with imported := s.imported + 1 }
  else { s with usedOnly := s.usedOnly + 1 }

/-- Freezes the graph, projects it to modules and counts its edges. -/
def finish (now : Int) (total : Nat) (b : Build) : Build :=
  let graph := b.graph.freeze now
  let modules := ModuleGraph.project graph
  let stats := { b.stats with edges := graph.edgeCount, moduleEdges := modules.edgeCount }
  { b with
    graph := graph
    modules := some modules
    stats := graph.edges.foldl countEdge stats }.report .finalizing total total

/-- Builds the graph of a catalog whose classes can be looked for. -/
def run (x : Extractor) (d : Disk) (options : BuildOptions) (budget : Budget) (now : Int)
    (cache : TextCache) : Build :=
  let every := if options.progressEvery ≤ 0 then 500 else options.progressEvery.toNat
  let total := x.size
  let start : Build :=
    ⟨ClassGraph.new x.root options.limits, none, [], {}, [], none, cache⟩
  (((addModules x.modules start).andThen (addClasses x.list)).andThen fun b =>
    extractEdges x d every total 0 x.names budget (b.report .collecting total 0)).andThen
      (finish now total)

end Build

end ClassAtlas
