import ClassAtlas.Collection.SortedMap
import ClassAtlas.Digest.Sha256

namespace ClassAtlas

/-- A value of the store. -/
inductive StoredValue where
  | plain (content : Text)
  | packed (content : Text)
  deriving DecidableEq, Repr

namespace StoredValue

/-- The bytes that a packed value begins with. -/
def packMark : Text := [0x1f, 0x8b]

/-- The bytes of a value. -/
def bytes : StoredValue → Text
  | .plain t => t
  | .packed t => packMark ++ t

/-- The content of a packed value. -/
def unpacked? : StoredValue → Option Text
  | .plain _ => none
  | .packed t => some t

/-- The digest that a value is known by. -/
def digest (v : StoredValue) : Text := Sha256.hex v.bytes

end StoredValue

/-- Why the store gives no value. -/
inductive StoreFault where
  | notFound
  | closed
  deriving DecidableEq, Repr

/-- The wording of a fault. -/
def StoreFault.message : StoreFault → Text
  | .notFound => "snapshot not found"
  | .closed => "DB Closed"

/-- A store of snapshots. Once closed it gives and takes nothing. -/
structure SnapshotStore where
  values : SortedMap Text StoredValue
  closed : Bool

namespace SnapshotStore

/-- A store that was just opened. -/
def empty : SnapshotStore := ⟨SortedMap.empty, false⟩

/-- The value under a key. -/
def get (s : SnapshotStore) (key : Text) : Except StoreFault StoredValue :=
  if s.closed then .error .closed
  else
    match s.values.find? key with
    | none => .error .notFound
    | some v => .ok v

/-- The store with a value under a key. -/
def put (s : SnapshotStore) (key : Text) (v : StoredValue) : SnapshotStore :=
  { s with values := s.values.insert key v }

/-- The store without a key. -/
def drop (s : SnapshotStore) (key : Text) : SnapshotStore :=
  { s with values := s.values.erase key }

/-- The store when it is closed. -/
def close (s : SnapshotStore) : SnapshotStore := { s with closed := true }

/-- The entries whose keys start with a text, in the order of their keys. -/
def entriesUnder (s : SnapshotStore) (lead : Text) : List (Text × StoredValue) :=
  s.values.toList.filter fun e => e.1.startsWith lead

end SnapshotStore

end ClassAtlas
