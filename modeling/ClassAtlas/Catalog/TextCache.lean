import ClassAtlas.Disk.Basic

namespace ClassAtlas

/-- Why a file has no text. -/
structure ReadError where
  path : Text
  cause : DiskError
  deriving DecidableEq, Repr

/-- The wording of a failed reading. -/
def ReadError.message (e : ReadError) : Text := "reading " ++ e.path ++ ": " ++ e.cause.message

/-- Texts by path, the most recent one first. -/
structure TextCache where
  capacity : Nat
  texts : List (Text × Text)
  deriving DecidableEq, Repr

namespace TextCache

/-- The capacity of a cache whose size is not positive. -/
def defaultCapacity : Nat := 4096

/-- An empty cache. -/
def ofSize (size : Int) : TextCache :=
  ⟨if size ≤ 0 then defaultCapacity else size.toNat, []⟩

/-- The number of texts in the cache. -/
def size (c : TextCache) : Nat := c.texts.length

/-- The cached text of a path. -/
def find? (c : TextCache) (path : Text) : Option Text := c.texts.lookup path

/-- Puts a text in front; the least recent text goes if there are too many. -/
def put (c : TextCache) (path t : Text) : TextCache :=
  { c with texts := ((path, t) :: c.texts.filter (·.1 != path)).take c.capacity }

/-- The text of a path, from the cache if it is there and otherwise from the disk. -/
def read (d : Disk) (path : Text) (c : TextCache) : Except ReadError Text × TextCache :=
  match c.find? path with
  | some t => (.ok t, c.put path t)
  | none =>
    match d.readFile path with
    | .ok t => (.ok t, c.put path t)
    | .error e => (.error ⟨path, e⟩, c)

end TextCache

end ClassAtlas
