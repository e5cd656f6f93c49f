import ClassAtlas.Cli.Command
import ClassAtlas.Report.Output
import ClassAtlas.Report.Views
import ClassAtlas.Service.Replies
import ClassAtlas.Snapshot.Opening
import ClassAtlas.Watch.Live

namespace ClassAtlas

/-- Why a command failed. -/
inductive CliError where
  | usage (cause : UsageError)
  | settings (cause : SettingsError)
  | service (cause : ServiceError)
  | unreadablePatch (cause : DiskError)
  | emptyPatch (name : Text)
  | opening (dir : Text) (cause : OpeningError)
  | connecting (cause : ExportError)
  | unreachable (address : Text)
  | watching (cause : WatchError)
  deriving DecidableEq, Repr

/-- The wording of a failed command. -/
def CliError.message : CliError → Text
  | .usage cause => cause.message
  | .settings cause => cause.message
  | .service cause => cause.message
  | .unreadablePatch cause => "reading patch: " ++ cause.message
  | .emptyPatch name => "reading patch: " ++ name ++ " is empty"
  | .opening dir cause => "opening snapshot store " ++ dir ++ ": " ++ cause.message
  | .connecting cause => cause.message
  | .unreachable address => "connect to neo4j at " ++ address
  | .watching cause => cause.message

/-- The exit code of a failed command; the program has another one when it breaks off. -/
def CliError.code : CliError → Nat
  | .service cause => if cause.isCrash then 2 else 1
  | _ => 1

/-- What commands work on. The stores of snapshots are known by the places of their directories. -/
structure CliState where
  disk : Disk
  env : SortedMap Text Text
  clock : Int
  stores : SortedMap (List Text) SnapshotStore

/-- Work of a command. -/
abbrev CliM := ExceptT CliError (StateM CliState)

/-- What a command writes, whether it found nothing where that is a failure, and what it goes on to
watch. -/
structure CliReport where
  output : List Text
  empty : Bool := false
  watching : Option WatchOptions := none

namespace Cli

/-- What a command works with, besides its flags. -/
structure Setup where
  root : Text
  settings : Settings
  asJson : Bool
  input : Text
  context : Budget

/-- Takes over a result, or fails with its error. -/
def attempt {ε α : Type} (wrap : ε → CliError) (r : Except ε α) : CliM α :=
  ExceptT.mk (pure (r.mapError wrap))

/-- Finds the root and loads the settings. -/
def setup (values : FlagValues) (input : Text) (context : Budget) : CliM Setup := do
  let s ← get
  let root := Path.absolute s.disk.workdir ((values.text? "root").getD Path.here)
  let loaded := Settings.load s.disk s.env root (values.text "config")
  set { s with env := loaded.env }
  let settings ← attempt .settings loaded.result
  return ⟨root, settings, values.isOn "json", input, context⟩

/-- Changes the settings by flags and checks them again. -/
def adjusted (s : Setup) (change : Settings → Settings) : CliM Setup := do
  let settings := change s.settings
  match settings.invalid? with
  | some e => throw (.settings e)
  | none => return { s with settings }

/-- Asks the service, with a store of snapshots if one is open. -/
def ask {α : Type} (store : Option SnapshotStore) (work : ServiceM α) :
    CliM (α × Option SnapshotStore) := do
  let s ← get
  let (result, w) := work.run.run ⟨s.disk, s.env, store, s.clock⟩
  set { s with env := w.env, clock := w.clock }
  return (← attempt .service result, w.store)

/-- The service for the settings of a command. -/
def service (s : Setup) : Service := { settings := some s.settings }

/-- Asks the service without snapshots. -/
def askPlain {α : Type} (work : ServiceM α) : CliM α := do return (← ask none work).1

/-- Writes an answer as JSON or as lines. -/
def shown (s : Setup) (json : Json) (lines : List Text) : List Text :=
  if s.asJson then Output.ofJson json else Output.ofLines lines

/-- Lists call sites. -/
def httpRequests (s : Setup) (values : FlagValues) : CliM CliReport := do
  let s ← adjusted s fun settings => { settings with
    entrySubdir := (values.text? "entry-subdir").getD settings.entrySubdir
    entryDepth := (values.number? "entry-depth").getD settings.entryDepth }
  let found ← askPlain ((service s).trace s.context s.root (values.texts "start") (values.texts "pattern"))
  return {
    output := shown s (Reply.trace found) (View.matched found.log.groups (values.isOn "chain"))
    empty := values.isOn "fail-if-empty" && found.log.size == 0 }

/-- A directory of the flags, unless it is empty. -/
def directory (values : FlagValues) (name old : Text) : Text :=
  let new := values.text name
  if new.isEmpty then old else new

/-- Lists exposed classes. -/
def expose (s : Setup) (values : FlagValues) : CliM CliReport := do
  let s ← adjusted s fun settings =>
    { settings with exposeDir := directory values "expose-dir" settings.exposeDir }
  let report ← askPlain ((service s).expose s.context s.root (values.isOn "show-dependency"))
  return { output := shown s report.toJson (View.expose report) }

/-- Lists tables. -/
def tables (s : Setup) (values : FlagValues) : CliM CliReport := do
  let s ← adjusted s fun settings =>
    { settings with infraDir := directory values "infra-dir" settings.infraDir }
  let found ← askPlain ((service s).tables s.context s.root)
  return { output := shown s (Reply.tables found) (View.tables found) }

/-- Shows the module graph. -/
def modules (s : Setup) (values : FlagValues) : CliM CliReport := do
  let a ← askPlain ((service s).analyze s.context s.root)
  let lines := View.modules (ModuleGraph.project a.graph) (values.isOn "evidence")
  return { output := shown s (Reply.analysis a) lines }

/-- Reads a patch from a file, or from the input for a dash. -/
def readPatch (s : Setup) (name : Text) : CliM Text := do
  let patch ←
    if name == "-" then pure s.input
    else attempt .unreadablePatch ((← get).disk.readFile name)
  if (Blank.trim patch).isEmpty then throw (.emptyPatch name) else return patch

/-- Reports the impact of a patch. -/
def impact (s : Setup) (values : FlagValues) (name : Text) : CliM CliReport := do
  let patch ← readPatch s name
  let report ← askPlain ((service s).impact s.context s.root patch)
  return {
    output := shown s report.toJson (View.impact report)
    empty := values.isOn "fail-if-empty" && report.changedModules.isEmpty }

/-- The directory of the snapshots: that of the flag, that of the settings, or one below the root. -/
def snapshotDir (s : Setup) (values : FlagValues) : Text :=
  let wished := values.text "snapshot-dir"
  if !wished.isEmpty then wished
  else if !s.settings.snapshotsDir.isEmpty then s.settings.snapshotsDir
  else Path.join [s.root, ".modtrace", "snapshots"]

/-- Opens a store. One whose directory is gone begins anew. -/
def openStore (dir : Text) : CliM (List Text × SnapshotStore) := do
  let s ← get
  let present := (s.disk.resolve true dir).toOption.isSome
  let (_, disk) ← attempt (.opening dir) (StorePlace.openAt s.disk dir false)
  set { s with disk }
  let place := (disk.resolve true dir).toOption.getD (disk.locate dir)
  return (place, if present then (s.stores.find? place).getD .empty else .empty)

/-- Asks the service with snapshots, and keeps the store. -/
def askStored {α : Type} (s : Setup) (values : FlagValues) (work : ServiceM α) : CliM α := do
  let (place, store) ← openStore (snapshotDir s values)
  modify fun c => { c with stores := c.stores.insert place store }
  let (answer, store) ← ask (some store) work
  modify fun c => { c with stores := c.stores.insert place (store.getD .empty) }
  return answer

/-- The line on a saved snapshot. -/
def savedLine (i : SnapshotInfo) : Text :=
  "Saved snapshot " ++ i.id ++ " (" ++ Decimal.ofInt i.classes ++ " classes, " ++ Decimal.ofInt i.edges
    ++ " edges, " ++ Decimal.ofInt i.modules ++ " modules)"

/-- Saves a snapshot. -/
def saveSnapshot (s : Setup) (values : FlagValues) : CliM CliReport := do
  let info ← askStored s values ((service s).saveSnapshot s.context s.root (values.text "label"))
  return { output := shown s info.toJson [savedLine info] }

/-- Lists snapshots. -/
def listSnapshots (s : Setup) (values : FlagValues) : CliM CliReport := do
  let root := if values.isOn "all" then [] else s.root
  let limit := (values.number? "limit").getD 20
  let infos ← askStored s values ((service s).listSnapshots s.context root limit)
  return { output := shown s (Reply.snapshots infos) (View.snapshots infos) }

/-- Compares snapshots. -/
def diffSnapshots (s : Setup) (values : FlagValues) (base target : Text) : CliM CliReport := do
  let d ← askStored s values ((service s).diffSnapshots s.context s.root base target)
  return {
    output := shown s d.toJson (View.diff d)
    empty := values.isOn "fail-if-empty" && d.isEmpty }

/-- The settings of the database that flags give. -/
def databaseFlags (values : FlagValues) (d : DatabaseSettings) : DatabaseSettings where
  uri := (values.text? "uri").getD d.uri
  username := (values.text? "user").getD d.username
  password := (values.text? "password").getD d.password
  database := (values.text? "database").getD d.database
  batchSize := (values.number? "batch-size").getD d.batchSize

/-- Exports the graph. No database can be reached from here, so that an export ends when it would
connect. -/
def exportNeo4j (s : Setup) (values : FlagValues) : CliM CliReport := do
  let s ← adjusted s fun settings => { settings with neo4j := databaseFlags values settings.neo4j }
  attempt .connecting (Export.checkAddress s.settings.neo4j.uri)
  throw (.unreachable s.settings.neo4j.uri)

/-- The line between the reports of a watch. -/
def separator : Text := List.replicate 60 61

/-- What a watch looks at. -/
def watchOptions (s : Setup) : WatchOptions where
  root := s.root
  patterns := s.settings.ignoreDirs.getD [] ++ s.settings.watch.ignorePatterns.getD []
  extension := s.settings.extension

/-- Lists call sites, and goes on to watch. -/
def watch (s : Setup) (values : FlagValues) : CliM CliReport := do
  let s ← adjusted s fun settings => { settings with
    watch := { settings.watch with
      debounce := (values.number? "debounce").getD settings.watch.debounce
      minInterval := (values.number? "min-interval").getD settings.watch.minInterval } }
  let found ← askPlain ((service s).trace s.context s.root [] (values.texts "pattern"))
  let groups := found.log.groups
  let lines := [] :: separator :: View.matched groups (values.isOn "chain")
  attempt .watching (Watch.start (watchOptions s) (← get).disk)
  return {
    output := shown s (ModuleGroup.listJson groups) lines
    watching := some (watchOptions s) }

/-- The line on the version. -/
def versionLine : Text := Command.program ++ " " ++ Service.version

/-- Does what a command is for. -/
def perform (s : Setup) (a : Arguments) : Action → CliM CliReport
  | .httpRequests => httpRequests s a.values
  | .expose => expose s a.values
  | .tables => tables s a.values
  | .modules => modules s a.values
  | .impact => impact s a.values (a.words.headD [])
  | .saveSnapshot => saveSnapshot s a.values
  | .listSnapshots => listSnapshots s a.values
  | .diffSnapshots => diffSnapshots s a.values (a.words.headD []) ((a.words.drop 1).headD [])
  | .exportNeo4j => exportNeo4j s a.values
  | .watch => watch s a.values
  | .version => return { output := Output.ofLines [versionLine] }

/-- Carries out a command line; the version needs no settings. -/
def execute (line : List Text) (input : Text) (context : Budget) : CliM CliReport := do
  match ← attempt .usage (Invocation.read line) with
  | .help => return { output := [] }
  | .run .version _ => return { output := Output.ofLines [versionLine] }
  | .run action arguments => perform (← setup arguments.values input context) arguments action

/-- How a run ended: with a code, an output and, if it failed, a message. -/
structure Ending where
  code : Nat
  output : List Text
  error : Option Text
  watching : Option WatchOptions

/-- Runs a command line. Nothing found has a code of its own, if it was asked for. -/
def run (line : List Text) (input : Text) (context : Budget) (s : CliState) : Ending × CliState :=
  match (execute line input context).run.run s with
  | (.ok report, s) => (⟨if report.empty then 2 else 0, report.output, none, report.watching⟩, s)
  | (.error e, s) => (⟨e.code, [], some e.message, none⟩, s)

end Cli

end ClassAtlas
