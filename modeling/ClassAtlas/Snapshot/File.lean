import ClassAtlas.Json.Access
import ClassAtlas.Json.Reader
import ClassAtlas.Snapshot.Store

namespace ClassAtlas.SnapshotStore

/-- The name of the file in the directory of a store. -/
def fileName : Text := "snapshots.json"

/-- A value as JSON. -/
def valueJson : StoredValue → Json
  | .plain t => .obj [("plain", .str t)]
  | .packed t => .obj [("packed", .str t)]

/-- Reads a value. -/
def valueOfJson (j : Json) : StoredValue :=
  match j.given? "packed" with
  | some t => .packed t.asText
  | none => .plain (j.textAt "plain")

/-- The text of a store. -/
def toText (s : SnapshotStore) : Text :=
  (Json.obj (s.values.toList.map fun (key, v) => (key, valueJson v))).document

/-- Reads a store; a text that is none gives an empty one. -/
def ofText (t : Text) : SnapshotStore :=
  ⟨SortedMap.ofList (((Json.read? t).getD .null).asMembers.map fun (key, j) => (key, valueOfJson j)),
    false⟩

end ClassAtlas.SnapshotStore
