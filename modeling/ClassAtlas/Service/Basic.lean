import ClassAtlas.Export
import ClassAtlas.Expose.Report
import ClassAtlas.Graph.Diff
import ClassAtlas.Impact.Analysis
import ClassAtlas.Service.Analysis
import ClassAtlas.Service.RootPolicy
import ClassAtlas.Snapshot.Archive
import ClassAtlas.Tables
import ClassAtlas.Trace.Walk

namespace ClassAtlas

/-- Why a question has no answer. -/
inductive ServiceError where
  | refused (cause : RootRefusal)
  | interrupted (cause : Interruption)
  | analysis (cause : AnalysisError)
  | timedOut (limit : Int) (cause : AnalysisError)
  | tracing (cause : TraceError)
  | impact (cause : ImpactError)
  | exporting (cause : ExportError)
  | snapshotsDisabled
  | snapshot (cause : SnapshotError)
  deriving DecidableEq, Repr

namespace ServiceError

/-- The wording of a failure. Time limits are so short here that they are given in nanoseconds. -/
def message : ServiceError → Text
  | .refused cause => cause.message
  | .interrupted cause => cause.message
  | .analysis cause => cause.message
  | .timedOut limit cause =>
    "analysis timed out after " ++ Decimal.ofInt limit ++ "ns: " ++ cause.message
  | .tracing cause => cause.message
  | .impact cause => cause.message
  | .exporting cause => cause.message
  | .snapshotsDisabled => "snapshot store is not configured"
  | .snapshot cause => cause.message

/-- The failure of an index of callers. -/
def ofCallers : CallerError → ServiceError
  | .interrupted i => .interrupted i
  | .illegible _ => .analysis .illegible

/-- The program broke off. -/
def isCrash (e : ServiceError) : Bool := e == .analysis .illegible

/-- The interruption behind a failure, if there is one. -/
def interruption? : ServiceError → Option Interruption
  | .interrupted i => some i
  | .analysis cause | .timedOut _ cause => cause.interruption?
  | .tracing (.interrupted i) => some i
  | .impact (.interrupted i) => some i
  | .exporting (.sending _ (.interrupted i)) => some i
  | .snapshot (.interrupted i) => some i
  | .snapshot (.listingInterrupted i) => some i
  | _ => none

end ServiceError

/-- How a service works: with settings for all projects or with those of each project, and with a
limit in nanoseconds on an analysis; zero or less is no limit. -/
structure Service where
  settings : Option Settings := none
  policy : RootPolicy := {}
  limit : Int := 120000000000

/-- What a service works on. Time goes on with each use of the clock. -/
structure Workspace where
  disk : Disk
  env : SortedMap Text Text
  store : Option SnapshotStore
  clock : Int

/-- Work of a service: it may fail, and it may change the workspace even then. -/
abbrev ServiceM := ExceptT ServiceError (StateM Workspace)

namespace Service

/-- The version of the service. -/
def version : Text := "0.1.0"

/-- Takes over a result, or fails with its error. -/
def attempt {ε α : Type} (wrap : ε → ServiceError) (r : Except ε α) : ServiceM α :=
  ExceptT.mk (pure (r.mapError wrap))

/-- The time, which is later at every call. -/
def tick : ServiceM Int := do
  let w ← get
  set { w with clock := w.clock + 1 }
  return w.clock

/-- The least time in nanoseconds that an analysis takes. -/
def leastTime : Int := 1000

/-- The budget of an analysis: a limit below the least time is over at the first check. -/
def budget (s : Service) : Budget :=
  if 0 < s.limit && s.limit < leastTime then ⟨some 0, .timedOut⟩ else .unlimited

/-- The settings for a root. Those of the project may add to the environment. -/
def settingsFor (s : Service) (root : Text) : ServiceM Settings := do
  match s.settings with
  | some settings => return settings
  | none =>
    let w ← get
    let loaded := Settings.load w.disk w.env root []
    set { w with env := loaded.env }
    attempt (fun e => .analysis (.settings e)) loaded.result

/-- Names the time limit if it was the cause. -/
def limitError (s : Service) (e : AnalysisError) : ServiceError :=
  if e.interruption? == some .timedOut then .timedOut s.limit e else .analysis e

/-- Analyses a project, with one check before it. The analysis itself is bounded by the limit only. -/
def analyze (s : Service) (context : Budget) (root : Text) : ServiceM Analysis := do
  let path ← attempt .refused (s.policy.resolve (← get).disk.workdir root)
  let _ ← attempt .interrupted context.check
  let settings ← s.settingsFor path
  let now ← tick
  attempt s.limitError (Analysis.run settings (← get).disk s.budget now path)

/-- What a trace found, and what it looked for. -/
structure TraceAnswer where
  starts : List Text
  patterns : List Text
  log : MatchLog
  stats : TraceStats

/-- Traces call sites. Without start classes the entry classes are taken, without patterns those of
the settings. -/
def trace (s : Service) (context : Budget) (root : Text) (starts patterns : List Text) :
    ServiceM TraceAnswer := do
  let a ← s.analyze context root
  let patterns := if patterns.isEmpty then a.settings.patterns.getD [] else patterns
  let starts :=
    if starts.isEmpty then Trace.entryClasses a.catalog a.settings.entrySubdir a.settings.entryDepth
    else starts
  let o := Trace.run a.catalog (← get).disk a.graph starts patterns context.spend a.cache
  match o.failure with
  | some cause => throw (.tracing cause)
  | none => return ⟨starts, patterns, o.log, o.stats⟩

/-- The options on exposed classes of settings; an empty or missing value changes nothing. -/
def exposeOptions (s : Settings) : ExposeOptions :=
  let base : ExposeOptions := {}
  { dir := if s.exposeDir.isEmpty then base.dir else s.exposeDir
    excluded := s.exposeExcludeSuffixes.getD base.excluded }

/-- Lists exposed classes. -/
def expose (s : Service) (context : Budget) (root : Text) (showDependency : Bool) :
    ServiceM ExposeReport := do
  let a ← s.analyze context root
  attempt .ofCallers
    (ExposeReport.analyze a.extractor (← get).disk (exposeOptions a.settings) showDependency
      context.spend a.cache).1

/-- Lists tables. -/
def tables (s : Service) (context : Budget) (root : Text) : ServiceM (List ModuleTables) := do
  let a ← s.analyze context root
  return Table.scan a.catalog a.settings.infraDir

/-- Analyses the impact of a patch, which is read before the project. -/
def impact (s : Service) (context : Budget) (root patch : Text) : ServiceM ImpactReport := do
  let some files := ChangedFile.ofPatchText? patch | throw (.impact .invalidPatch)
  let a ← s.analyze context root
  let options := ImpactOptions.withExtension {} a.settings.extension
  attempt .impact (Impact.analyzeFiles a.graph options files context.spend)

/-- Exports the graph of a project. What was sent before a failure is kept. -/
def exportGraph (s : Service) (context : Budget) (root : Text) (batch : Nat) (clean : Bool)
    (connection : Connection) : ServiceM Export.Outcome := do
  let a ← s.analyze context root
  return Export.run ⟨batch, clean, true⟩ (some a.graph) context.spend connection

/-- The store of snapshots. -/
def store : ServiceM SnapshotStore := do
  match (← get).store with
  | none => throw .snapshotsDisabled
  | some store => return store

/-- Keeps a changed store. -/
def keepStore (store : SnapshotStore) : ServiceM Unit :=
  modify fun w => { w with store := some store }

/-- Saves a snapshot of a project. -/
def saveSnapshot (s : Service) (context : Budget) (root label : Text) : ServiceM SnapshotInfo := do
  let kept ← store
  let a ← s.analyze context root
  let now ← tick
  let (kept, info) ←
    attempt .snapshot (Snapshot.save kept (some context.spend) (some a.graph) label now)
  keepStore kept
  return info

/-- Lists the snapshots of a project, or of all projects for an empty root. -/
def listSnapshots (s : Service) (context : Budget) (root : Text) (limit : Int) :
    ServiceM (List SnapshotInfo) := do
  let kept ← store
  let project ←
    if root.isEmpty then pure []
    else
      let path ← attempt .refused (s.policy.resolve (← get).disk.workdir root)
      pure (Snapshot.projectHash path)
  attempt .snapshot (Snapshot.list kept (some context) project limit)

/-- Loads a snapshot. -/
def loadSnapshot (context : Budget) (id : Text) : ServiceM (ClassGraph × SnapshotInfo) := do
  attempt .snapshot (Snapshot.load (← store) (some context) id)

/-- Removes a snapshot. -/
def deleteSnapshot (context : Budget) (id : Text) : ServiceM Unit := do
  keepStore (← attempt .snapshot (Snapshot.delete (← store) (some context) id))

/-- The name of a project as it is now, in a comparison. -/
def currentId : Text := "current"

/-- Compares a snapshot with another, or with the project as it is now if no other is named. -/
def diffSnapshots (s : Service) (context : Budget) (root baseId targetId : Text) :
    ServiceM GraphDiff := do
  let (base, _) ← loadSnapshot context baseId
  if targetId.isEmpty then
    let a ← s.analyze context root
    return GraphDiff.compare base a.graph baseId currentId
  else
    let (target, _) ← loadSnapshot context targetId
    return GraphDiff.compare base target baseId targetId

end Service

end ClassAtlas
