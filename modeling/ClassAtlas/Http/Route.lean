import ClassAtlas.Text.Basic

namespace ClassAtlas

/-- What can be asked. -/
inductive Endpoint where
  | health
  | analyze
  | trace
  | expose
  | tables
  | impact
  | saveSnapshot
  | listSnapshots
  | diffSnapshots
  | loadSnapshot (id : Text)
  | deleteSnapshot (id : Text)
  | inspectClass
  | exportGraph
  deriving DecidableEq, Repr

/-- Where a request leads to. -/
inductive Route where
  | found (e : Endpoint)
  | moved (path : Text)
  | unknown
  deriving DecidableEq, Repr

namespace Route

/-- The path above all routes. -/
def base : Text := "/v1/modtrace"

/-- The questions with fixed paths. -/
def fixed : List ((Text × Text) × Endpoint) :=
  [(("GET", "/health"), .health),
   (("POST", "/analyze"), .analyze),
   (("POST", "/trace"), .trace),
   (("POST", "/expose"), .expose),
   (("POST", "/tables"), .tables),
   (("POST", "/impact"), .impact),
   (("POST", "/snapshots"), .saveSnapshot),
   (("GET", "/snapshots"), .listSnapshots),
   (("GET", "/snapshots/diff"), .diffSnapshots),
   (("GET", "/debug/graph/inspect"), .inspectClass),
   (("GET", "/debug/graph/export"), .exportGraph)]

/-- The id of a snapshot in a path. -/
def snapshotId? (path : Text) : Option Text :=
  match path.after? "/snapshots/" with
  | none => none
  | some id => if id.isEmpty || id.contains Text.slash then none else some id

/-- The question of a path. -/
def endpoint? (method path : Text) : Option Endpoint :=
  match fixed.lookup (method, path) with
  | some e => some e
  | none =>
    match snapshotId? path with
    | none => none
    | some id =>
      if method == "GET" then some (.loadSnapshot id)
      else if method == "DELETE" then some (.deleteSnapshot id)
      else none

/-- Where a request leads to. -/
def find (method path : Text) : Route :=
  match endpoint? method path with
  | some e => .found e
  | none =>
    if path.endsWith "/" && (endpoint? method path.dropLast).isSome then .moved path.dropLast
    else .unknown

end Route

end ClassAtlas
