import ClassAtlas.Graph.Document
import ClassAtlas.Interrupt
import ClassAtlas.Json.Reader
import ClassAtlas.Snapshot.Info
import ClassAtlas.Snapshot.Store

namespace ClassAtlas

/-- What is done with snapshots. -/
inductive SnapshotAction where
  | save
  | load
  | loadLatest
  | list
  | delete
  deriving DecidableEq, Repr

/-- The words for an action. -/
def SnapshotAction.label : SnapshotAction → Text
  | .save => "save snapshot"
  | .load => "load snapshot"
  | .loadLatest => "load latest snapshot"
  | .list => "list snapshots"
  | .delete => "delete snapshot"

/-- Why an action on snapshots failed. -/
inductive SnapshotError where
  | noContext (action : SnapshotAction)
  | noGraph
  | noId (action : SnapshotAction)
  | noProject
  | interrupted (cause : Interruption)
  | storing (id : Text) (fault : StoreFault)
  | lookup (id : Text) (fault : StoreFault)
  | latest (project : Text) (fault : StoreFault)
  | data (id : Text) (fault : StoreFault)
  | metadata (id : Text) (fault : StoreFault)
  | unreadableMetadata (id : Text)
  | corrupt (id : Text)
  | notPacked (id : Text)
  | unreadableGraph (id : Text)
  | rebuilding (id : Text) (cause : DocumentError)
  | deleting (id : Text) (fault : StoreFault)
  | listing (fault : StoreFault)
  | listingInterrupted (cause : Interruption)
  deriving DecidableEq, Repr

/-- The wording of a failure. -/
def SnapshotError.message : SnapshotError → Text
  | .noContext action => action.label ++ ": nil context"
  | .noGraph => "save snapshot: nil graph"
  | .noId action => action.label ++ ": empty id"
  | .noProject => "load latest snapshot: empty project hash"
  | .interrupted cause => cause.message
  | .storing id fault => "storing snapshot " ++ id ++ ": " ++ fault.message
  | .lookup id fault => "snapshot " ++ id ++ ": " ++ fault.message
  | .latest project fault => "latest snapshot of " ++ project ++ ": " ++ fault.message
  | .data id fault => "snapshot " ++ id ++ " data: " ++ fault.message
  | .metadata id fault => "snapshot " ++ id ++ " metadata: " ++ fault.message
  | .unreadableMetadata id => "decoding metadata of snapshot " ++ id
  | .corrupt id => "snapshot " ++ id ++ " is corrupt"
  | .notPacked id => "snapshot " ++ id ++ ": decompressing graph"
  | .unreadableGraph id => "snapshot " ++ id ++ ": decoding graph"
  | .rebuilding id cause => "rebuilding graph of snapshot " ++ id ++ ": " ++ cause.message
  | .deleting id fault => "deleting snapshot " ++ id ++ ": " ++ fault.message
  | .listing fault => "list snapshots: " ++ fault.message
  | .listingInterrupted cause => "list snapshots: " ++ cause.message

/-- The store that failed, where the store is the cause. -/
def SnapshotError.fault? : SnapshotError → Option StoreFault
  | .storing _ f | .lookup _ f | .latest _ f | .data _ f | .metadata _ f | .deleting _ f | .listing f => some f
  | _ => none

namespace Snapshot

/-- Where all entries stand. -/
def space : Text := "modtrace:snap:"

/-- The key of a graph. -/
def dataKey (project id : Text) : Text := space ++ project ++ ":" ++ id ++ ":data"

/-- The ending of the keys of records. -/
def metaEnding : Text := ":meta"

/-- The key of a record. -/
def metaKey (project id : Text) : Text := space ++ project ++ ":" ++ id ++ metaEnding

/-- The key of the pointer to the latest snapshot of a project. -/
def latestKey (project : Text) : Text := space ++ project ++ ":latest"

/-- Where the pointers to projects stand. -/
def indexSpace : Text := space ++ "index:"

/-- The key of the pointer from a snapshot to its project. -/
def indexKey (id : Text) : Text := indexSpace ++ id

/-- Tells whether a record stands under a key. -/
def isMetaKey (key : Text) : Bool := key.endsWith metaEnding && !key.startsWith indexSpace

/-- A short name for a text: the first sixteen digits of its digest. -/
def shortDigest (t : Text) : Text := (Sha256.hex t).take 16

/-- The name of a project, known by its root. -/
def projectHash (root : Text) : Text := shortDigest root

/-- The name of the snapshot of a graph: the same root and time of building give the same name. -/
def idOf (g : ClassGraph) : Text := shortDigest (g.root ++ ":" ++ Decimal.ofInt g.builtAt)

/-- The packed document of a graph. -/
def pack (g : ClassGraph) : StoredValue := .packed (GraphDocument.ofGraph g).toJson.compact

/-- The record of a new snapshot. -/
def describe (g : ClassGraph) (label : Text) (now : Int) : SnapshotInfo :=
  let doc := GraphDocument.ofGraph g
  { id := idOf g
    root := g.root
    project := projectHash g.root
    graphHash := doc.hash
    label
    createdAt := now
    classes := doc.nodes.length
    edges := doc.edges.length
    modules := doc.modules.length
    moduleEdges := doc.moduleEdges.length
    schema := doc.schema
    storedSize := (pack g).bytes.length
    digest := (pack g).digest }

/-- Writes the four entries of a snapshot. -/
def write (s : SnapshotStore) (info : SnapshotInfo) (g : ClassGraph) : SnapshotStore :=
  (((s.put (dataKey info.project info.id) (pack g)).put
    (metaKey info.project info.id) (.plain info.toJson.compact)).put
    (latestKey info.project) (.plain info.id)).put
    (indexKey info.id) (.plain info.project)

/-- Saves a graph and makes it the latest snapshot of its project. -/
def save (s : SnapshotStore) (context : Option Budget) (graph : Option ClassGraph) (label : Text)
    (now : Int) : Except SnapshotError (SnapshotStore × SnapshotInfo) := do
  let some budget := context | throw (.noContext .save)
  let some g := graph | throw .noGraph
  let _ ← budget.check.mapError .interrupted
  let info := describe g label now
  if s.closed then throw (.storing info.id .closed)
  return (write s info g, info)

/-- Reads a record. -/
def readInfo? (v : StoredValue) : Option SnapshotInfo :=
  (Json.read? v.bytes).bind SnapshotInfo.ofJson?

/-- The number of bytes of a document that are read at most. -/
def maxDocumentBytes : Nat := 1 <<< 30

/-- Reads a document from the front of a text. -/
def readDocument? (t : Text) : Option GraphDocument :=
  (Json.readFront? (t.take maxDocumentBytes)).bind fun front => GraphDocument.ofJson? front.1

/-- Reads a snapshot of a project. The graph must be the one that the record describes. -/
def read (s : SnapshotStore) (project id : Text) :
    Except SnapshotError (ClassGraph × SnapshotInfo) := do
  let data ← (s.get (dataKey project id)).mapError (.data id)
  let record ← (s.get (metaKey project id)).mapError (.metadata id)
  let some info := readInfo? record | throw (.unreadableMetadata id)
  if !info.digest.isEmpty && data.digest != info.digest then throw (.corrupt id)
  let some content := data.unpacked? | throw (.notPacked id)
  let some doc := readDocument? content | throw (.unreadableGraph id)
  let g ← (doc.toGraph {}).mapError (.rebuilding id)
  return (g, info)

/-- Looks up the project of a snapshot. -/
def findProject (s : SnapshotStore) (action : SnapshotAction) (context : Option Budget) (id : Text) :
    Except SnapshotError Text := do
  if context.isNone then throw (.noContext action)
  if id.isEmpty then throw (.noId action)
  let project ← (s.get (indexKey id)).mapError (.lookup id)
  return project.bytes

/-- Looks up the latest snapshot of a project. -/
def findLatest (s : SnapshotStore) (context : Option Budget) (project : Text) :
    Except SnapshotError Text := do
  if context.isNone then throw (.noContext .loadLatest)
  if project.isEmpty then throw .noProject
  let id ← (s.get (latestKey project)).mapError (.latest project)
  return id.bytes

/-- Loads a snapshot. -/
def load (s : SnapshotStore) (context : Option Budget) (id : Text) :
    Except SnapshotError (ClassGraph × SnapshotInfo) := do
  read s (← findProject s .load context id) id

/-- Loads the latest snapshot of a project. -/
def loadLatest (s : SnapshotStore) (context : Option Budget) (project : Text) :
    Except SnapshotError (ClassGraph × SnapshotInfo) := do
  read s project (← findLatest s context project)

/-- Passes one check for each entry. -/
def checkEach (budget : Budget) : List (Text × StoredValue) → Except Interruption Unit
  | [] => .ok ()
  | _ :: rest =>
    match budget.check with
    | .error cause => .error cause
    | .ok budget' => checkEach budget' rest

/-- Where the entries of a project stand; without a project, of all projects. -/
def listSpace (project : Text) : Text :=
  if project.isEmpty then space else space ++ project ++ ":"

/-- The records among entries; those that cannot be read are passed over. -/
def records (entries : List (Text × StoredValue)) : List SnapshotInfo :=
  entries.filterMap fun e => if isMetaKey e.1 then readInfo? e.2 else none

/-- The records from the newest to the oldest; those of one time keep their order. -/
def newestFirst (infos : List SnapshotInfo) : List SnapshotInfo :=
  infos.mergeSort fun a b => decide (b.createdAt ≤ a.createdAt)

/-- The number of records listed where none is asked for. -/
def standardLimit : Nat := 100

/-- The number of records to list for a wish. -/
def listLimit (wish : Int) : Nat := if wish ≤ 0 then standardLimit else wish.toNat

/-- The newest records of a project, or of all projects. -/
def list (s : SnapshotStore) (context : Option Budget) (project : Text) (limit : Int) :
    Except SnapshotError (List SnapshotInfo) := do
  let some budget := context | throw (.noContext .list)
  if s.closed then throw (.listing .closed)
  let entries := s.entriesUnder (listSpace project)
  checkEach budget entries |>.mapError .listingInterrupted
  return (newestFirst (records entries)).take (listLimit limit)

/-- Removes the pointer to the latest snapshot of a project if it points to this one. -/
def dropLatest (s : SnapshotStore) (project id : Text) : SnapshotStore :=
  match s.values.find? (latestKey project) with
  | some v => if v.bytes == id then s.drop (latestKey project) else s
  | none => s

/-- Removes the entries of a snapshot. No older one takes its place as the latest. -/
def remove (s : SnapshotStore) (project id : Text) : Except SnapshotError SnapshotStore :=
  if s.closed then .error (.deleting id .closed)
  else .ok (dropLatest
    (((s.drop (dataKey project id)).drop (metaKey project id)).drop (indexKey id)) project id)

/-- Deletes a snapshot. -/
def delete (s : SnapshotStore) (context : Option Budget) (id : Text) :
    Except SnapshotError SnapshotStore := do
  remove s (← findProject s .delete context id) id

end Snapshot

end ClassAtlas
