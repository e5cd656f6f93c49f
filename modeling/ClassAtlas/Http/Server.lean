import ClassAtlas.Http.Body
import ClassAtlas.Http.Query
import ClassAtlas.Http.Route
import ClassAtlas.Service.Replies

namespace ClassAtlas

/-- A request. The target stands below the base path; the id may be empty. -/
structure Request where
  method : Text
  target : Text
  body : Text
  id : Text
  context : Budget

/-- What a response says. -/
inductive Content where
  | json (j : Json)
  | plain (t : Text)

/-- A response. An id that the request brought is given back. -/
structure Response where
  status : Nat
  content : Content
  id : Text := []
  disposition : Text := []

namespace Response

/-- A refusal with a code, and details if there are any. -/
def refusal (status : Nat) (error code details : Text) : Response :=
  ⟨status, .json (.ofGroups [[("error", .str error)], Json.nonempty "code" code,
    Json.nonempty "details" details]), [], []⟩

/-- A refused body. -/
def refusedBody (e : BodyError) : Response :=
  refusal 400 "Invalid request body" "INVALID_REQUEST" e.message

/-- A parameter that is missing. -/
def missing (error : Text) : Response := refusal 400 error "MISSING_PARAMETER" []

/-- No response, since the program broke off. -/
def none : Response := ⟨0, .plain [], [], []⟩

/-- A successful answer. -/
def ok (j : Json) : Response := ⟨200, .json j, [], []⟩

end Response

namespace ServiceError

/-- The root is no root of a project. -/
def isBadRoot : ServiceError → Bool
  | .refused cause => cause != .notAllowed
  | .analysis (.indexing _ (.root _)) => true
  | _ => false

/-- The settings are invalid. -/
def isBadSettings : ServiceError → Bool
  | .analysis (.settings cause) => cause.isInvalid
  | _ => false

/-- There is no such snapshot. -/
def isNoSnapshot : ServiceError → Bool
  | .snapshot cause => cause.fault? == some .notFound
  | _ => false

/-- The status and the code of a failure; the first kind that applies decides. -/
def status (e : ServiceError) (fallback : Text) : Nat × Text :=
  if e.isBadRoot then (400, "INVALID_PATH")
  else if e == .refused .notAllowed then (403, "ROOT_NOT_ALLOWED")
  else if e.isBadSettings then (400, "INVALID_CONFIG")
  else if e == .impact .invalidPatch then (400, "INVALID_PATCH")
  else if e == .tracing .noPatterns then (400, "NO_PATTERNS")
  else if e.isNoSnapshot then (404, "SNAPSHOT_NOT_FOUND")
  else if e == .snapshotsDisabled then (503, "SNAPSHOTS_DISABLED")
  else match e.interruption? with
    | some .timedOut => (504, "TIMEOUT")
    | some .cancelled => (499, "CANCELLED")
    | none => (500, fallback)

/-- The response to a failure. -/
def response (fallback : Text) (e : ServiceError) : Response :=
  if e.isCrash then .none
  else
    let (status, code) := e.status fallback
    .refusal status e.message code []

end ServiceError

/-- Work on a request. -/
abbrev HttpM := StateM Workspace

namespace Http

/-- Asks the service; a failure has a code of its own. -/
def ask {α : Type} (fallback : Text) (work : ServiceM α) (answer : α → Response) : HttpM Response := do
  match ← work.run with
  | .ok a => return answer a
  | .error e => return e.response fallback

/-- Reads the body of a request and goes on with it. -/
def withBody {α : Type} (r : Except BodyError α) (next : α → HttpM Response) : HttpM Response :=
  match r with
  | .error e => return .refusedBody e
  | .ok b => next b

/-- The number of snapshots to list, unless another is asked for. -/
def standardLimit : Int := 20

/-- The limit of a list: a positive number, or nothing at all. -/
def listLimit? (t : Text) : Option Int :=
  if t.isEmpty then some standardLimit
  else (Decimal.int64? t).bind fun n => if n < 1 then none else some n

/-- The number of edges to show, unless a positive one is asked for. -/
def edgeLimit (t : Text) : Nat :=
  match Decimal.int64? t with
  | some n => if 0 < n then n.toNat else 50
  | none => 50

/-- Lists snapshots. -/
def listSnapshots (s : Service) (r : Request) (t : Target) : HttpM Response :=
  match listLimit? (t.value "limit") with
  | none => return .refusal 400 "limit must be a positive integer" "INVALID_PARAMETER" []
  | some limit =>
    ask "SNAPSHOT_LIST_FAILED" (s.listSnapshots r.context (t.value "project_root") limit)
      fun infos => .ok (Reply.snapshots infos)

/-- Compares snapshots. -/
def diffSnapshots (s : Service) (r : Request) (t : Target) : HttpM Response :=
  let root := t.value "project_root"
  let base := t.value "base"
  let target := t.value "target"
  if base.isEmpty then return .missing "base parameter is required"
  else if target.isEmpty && root.isEmpty then
    return .missing "target or project_root parameter is required"
  else
    ask "SNAPSHOT_DIFF_FAILED" (s.diffSnapshots r.context root base target) fun d => .ok d.toJson

/-- Shows the edges of a class. -/
def inspectClass (s : Service) (r : Request) (t : Target) : HttpM Response :=
  let root := t.value "project_root"
  let name := t.value "class"
  if root.isEmpty || name.isEmpty then
    return .missing "project_root and class parameters are required"
  else
    ask "ANALYZE_FAILED" (s.analyze r.context root) fun a =>
      match a.graph.node? name with
      | none => .refusal 404 ("class not found: " ++ name) "CLASS_NOT_FOUND" []
      | some n => .ok (Reply.classEdges a.graph n (edgeLimit (t.value "limit")))

/-- Gives the document of a graph, as a file. -/
def exportGraph (s : Service) (r : Request) (t : Target) : HttpM Response :=
  let root := t.value "project_root"
  if root.isEmpty then return .missing "project_root parameter is required"
  else
    ask "ANALYZE_FAILED" (s.analyze r.context root) fun a =>
      let name : Text := "modtrace_" ++ Snapshot.projectHash a.catalog.root ++ ".json"
      { Response.ok (GraphDocument.ofGraph a.graph).toJson with
        disposition := "attachment; filename=" ++ name }

/-- Answers a question. -/
def answer (s : Service) (r : Request) (t : Target) : Endpoint → HttpM Response
  | .health => return .ok (Reply.health (← get).store.isSome)
  | .analyze =>
    withBody (ProjectBody.read "AnalyzeRequest" r.body) fun b =>
      ask "ANALYZE_FAILED" (s.analyze r.context b.root) fun a => .ok (Reply.analysis a)
  | .trace =>
    withBody (TraceBody.read r.body) fun b =>
      ask "TRACE_FAILED" (s.trace r.context b.root (b.starts.getD []) (b.patterns.getD []))
        fun found => .ok (Reply.trace found)
  | .expose =>
    withBody (ExposeBody.read r.body) fun b =>
      ask "EXPOSE_FAILED" (s.expose r.context b.root b.showDependency) fun report => .ok report.toJson
  | .tables =>
    withBody (ProjectBody.read "TablesRequest" r.body) fun b =>
      ask "TABLES_FAILED" (s.tables r.context b.root) fun found => .ok (Reply.tables found)
  | .impact =>
    withBody (ImpactBody.read r.body) fun b =>
      ask "IMPACT_FAILED" (s.impact r.context b.root b.patch) fun report => .ok report.toJson
  | .saveSnapshot =>
    withBody (SnapshotBody.read r.body) fun b =>
      ask "SNAPSHOT_FAILED" (s.saveSnapshot r.context b.root b.label) fun info =>
        { Response.ok info.toJson with status := 201 }
  | .listSnapshots => listSnapshots s r t
  | .diffSnapshots => diffSnapshots s r t
  | .loadSnapshot id =>
    ask "SNAPSHOT_LOAD_FAILED" (Service.loadSnapshot r.context id) fun (g, info) =>
      .ok (Reply.snapshot g info)
  | .deleteSnapshot id =>
    ask "SNAPSHOT_DELETE_FAILED" (Service.deleteSnapshot r.context id) fun _ =>
      .ok (.obj [("deleted", .bool true)])
  | .inspectClass => inspectClass s r t
  | .exportGraph => exportGraph s r t

/-- The response for an unknown route. -/
def notFound : Response := ⟨404, .plain "404 page not found", [], []⟩

/-- Characters with a meaning in markup, and how they are written. -/
def markupByte (b : UInt8) : Text :=
  if b == 38 then "&amp;"
  else if b == 60 then "&lt;"
  else if b == 62 then "&gt;"
  else if b == 34 then "&#34;"
  else if b == 39 then "&#39;"
  else [b]

/-- The response that leads to another path, with the same parameters. Only a question that reads
gets a text that tells so. -/
def moved (r : Request) (path : Text) : Response :=
  let query : Text := match r.target.cutAt? 63 with
    | none => []
    | some (_, query) => "?" ++ query
  let link : Text := Route.base ++ path ++ query
  if r.method == "GET" then
    ⟨301, .plain ("<a href=\"" ++ link.flatMap markupByte ++ "\">Moved Permanently</a>.\n\n"), [], []⟩
  else ⟨307, .plain [], [], []⟩

/-- Handles a request. Every question but the one for the state gives the id of its request back. -/
def handle (s : Service) (r : Request) : HttpM Response := do
  let t := Target.parse r.target
  match Route.find r.method t.path with
  | .found .health => answer s r t .health
  | .found e => return { ← answer s r t e with id := r.id }
  | .moved path => return moved r path
  | .unknown => return notFound

end Http

end ClassAtlas
