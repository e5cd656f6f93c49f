import ClassAtlas.Catalog.TextCache
import ClassAtlas.Source.ClassName
import ClassAtlas.Source.Declared

namespace ClassAtlas

/-- A class of the source tree. -/
structure SourceUnit where
  name : Text
  package : Text
  path : Text
  module : Text
  deriving DecidableEq, Repr

/-- Classes by name, each under its own name. -/
structure UnitMap where
  entries : SortedMap Text SourceUnit
  keyed : ∀ e ∈ entries.toList, e.2.name = e.1

namespace UnitMap

/-- No classes. -/
def empty : UnitMap := ⟨SortedMap.empty, fun _ h => nomatch h⟩

/-- Adds a class; a class of the same name gives way. -/
def add (m : UnitMap) (u : SourceUnit) : UnitMap where
  entries := m.entries.insert u.name u
  keyed e he := by
    rcases SortedMap.mem_insertIn he with rfl | he
    · rfl
    · exact m.keyed e he

/-- The class of a name. -/
def find? (m : UnitMap) (name : Text) : Option SourceUnit := m.entries.find? name

/-- There is a class of that name. -/
def contains (m : UnitMap) (name : Text) : Bool := m.entries.contains name

/-- The number of classes. -/
def size (m : UnitMap) : Nat := m.entries.size

/-- A class that is found has the name it is found by. -/
theorem name_of_find? {m : UnitMap} {name : Text} {u : SourceUnit} (h : m.find? name = some u) :
    u.name = name := m.keyed (name, u) (SortedMap.mem_of_findIn h)

end UnitMap

/-- What a scan came across. -/
structure ScanStats where
  scanned : Nat := 0
  registered : Nat := 0
  withoutPackage : Nat := 0
  unreadable : Nat := 0
  collisions : Nat := 0
  deriving DecidableEq, Repr

/-- The classes of a source tree by name. -/
structure Catalog where
  root : Text
  extension : Text
  units : UnitMap
  modules : List Text
  readErrors : List ReadError
  stats : ScanStats

/-- Why a class has no text. -/
inductive SourceError where
  | classNotFound (name : Text)
  | unreadable (cause : ReadError)
  deriving DecidableEq, Repr

/-- The wording of a source error. -/
def SourceError.message : SourceError → Text
  | .classNotFound name => "class not found: " ++ name
  | .unreadable e => e.message

namespace Catalog

/-- The class of a name. -/
def unit? (c : Catalog) (name : Text) : Option SourceUnit := c.units.find? name

/-- There is a class of that name. -/
def contains (c : Catalog) (name : Text) : Bool := c.units.contains name

/-- The names of all classes in order. -/
def names (c : Catalog) : List Text := c.units.entries.keys

/-- All classes in the order of their names. -/
def list (c : Catalog) : List SourceUnit := c.units.entries.values

/-- The number of classes. -/
def size (c : Catalog) : Nat := c.units.size

/-- The text of a class, read through the cache. -/
def text (c : Catalog) (d : Disk) (name : Text) (cache : TextCache) :
    Except SourceError Text × TextCache :=
  match c.unit? name with
  | none => (.error (.classNotFound name), cache)
  | some u =>
    match cache.read d u.path with
    | (.ok t, cache') => (.ok t, cache')
    | (.error e, cache') => (.error (.unreadable e), cache')

/-- The path of a file as seen from `root`; a path that leaves it is given back as it is. -/
def relativeTo (root path : Text) : Text :=
  match Path.relative? root path with
  | none => path
  | some rel => if rel.startsWith ".." then path else rel

/-- The path of a file as seen from the root of the tree. -/
def relPath (c : Catalog) (path : Text) : Text := relativeTo c.root path

/-- The directories of a path as seen from the root of the tree. -/
def directories (c : Catalog) (path : Text) : List Text :=
  (Path.parent (c.relPath path)).split Text.slash

end Catalog

end ClassAtlas
