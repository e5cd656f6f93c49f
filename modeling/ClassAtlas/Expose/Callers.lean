import ClassAtlas.Dependency.Extract
import ClassAtlas.Interrupt
import ClassAtlas.Json.Basic

namespace ClassAtlas

/-- Which classes count as exposed. -/
structure ExposeOptions where
  dir : Text := "expose"
  excluded : List Text := ["Dto", "Input", "Output"]

/-- The exposed classes by module, in order. -/
abbrev Exposed := SortedMap Text (List Text)

namespace Exposed

/-- A file lies below a directory of the given name. -/
def isBelow (c : Catalog) (dir path : Text) : Bool := (c.directories path).contains dir

/-- The simple name has one of the excluded endings. -/
def isExcluded (endings : List Text) (simple : Text) : Bool :=
  endings.any fun e => !e.isEmpty && simple.endsWith e

/-- The class is exposed by its module. -/
def isExposed (c : Catalog) (options : ExposeOptions) (u : SourceUnit) : Bool :=
  isBelow c options.dir u.path && !isExcluded options.excluded (ClassName.simple u.name)

/-- The exposed classes of a catalog. -/
def scan (c : Catalog) (options : ExposeOptions) : Exposed :=
  (c.list.filter (isExposed c options)).foldl (fun (found : Exposed) u =>
    found.insert u.module ((found.find? u.module).getD [] ++ [u.name])) SortedMap.empty

/-- The number of exposed classes. -/
def count (e : Exposed) : Nat := e.values.flatten.length

/-- The module that exposes a class; empty if none does. -/
def moduleOf (e : Exposed) (name : Text) : Text :=
  ((e.toList.find? fun entry => entry.2.contains name).map Prod.fst).getD []

/-- The exposed classes as JSON. -/
def toJson (e : Exposed) : Json := .obj (e.toList.map fun entry => (entry.1, .texts entry.2))

/-- The exposed classes with their number, and the module that exposes one of them, as members of a
JSON object. -/
def members (e : Exposed) (name : Text) : List (Text × Json) :=
  [("exposed", e.toJson), ("count", .nat e.count), ("module", .str (e.moduleOf name))]

end Exposed

/-- Why there is no index of callers: the work was interrupted, or it came to an exposed class that cannot
be looked for, where the program breaks off. -/
inductive CallerError where
  | interrupted (cause : Interruption)
  | illegible (name : Text)
  deriving DecidableEq, Repr

/-- A reference from a class to an exposed class of another module. -/
structure CallerLink where
  caller : Text
  callerModule : Text
  api : Text
  apiModule : Text
  deriving DecidableEq, Repr

/-- Names by two keys: first a class, then a module. -/
abbrev NameIndex := SortedMap Text (SortedMap Text (SortedSet Text))

namespace NameIndex

/-- Adds a name under two keys. -/
def add (index : NameIndex) (a b name : Text) : NameIndex :=
  let inner := (index.find? a).getD SortedMap.empty
  let names := (inner.find? b).getD SortedMap.empty
  index.insert a (inner.insert b (SortedSet.add names name))

/-- The names under the first key by the second key. -/
def groups (index : NameIndex) (a : Text) : List (Text × List Text) :=
  match index.find? a with
  | none => []
  | some inner => inner.toList.map fun entry => (entry.1, entry.2.keys)

/-- The index as JSON. -/
def toJson (index : NameIndex) : Json :=
  .obj (index.toList.map fun outer =>
    (outer.1, .obj (outer.2.toList.map fun inner => (inner.1, .texts inner.2.keys))))

end NameIndex

/-- The references to exposed classes, seen from the callers, from the exposed classes, and from
the modules of the callers. -/
structure CallerIndex where
  targets : NameIndex
  sources : NameIndex
  callers : SortedMap Text (SortedSet Text)

namespace CallerIndex

/-- The references that one class may have: to the exposed classes of other modules. -/
def candidates (exposed : Exposed) (u : SourceUnit) : List CallerLink :=
  (exposed.toList.filter (·.1 != u.module)).flatMap fun entry =>
    entry.2.map fun api => ⟨u.name, u.module, api, entry.1⟩

/-- The references that a text has, or an exposed class that cannot be looked for in it. -/
def linksIn (t : Text) : List CallerLink → Except Text (List CallerLink)
  | [] => .ok []
  | l :: rest =>
    match Dependency.refersTo t l.api with
    | none => .error l.api
    | some refers => (linksIn t rest).map fun found => if refers then l :: found else found

/-- The class is no caller, whatever its text says: it has no module, or is itself below a
directory of exposed classes. -/
def isSkipped (c : Catalog) (options : ExposeOptions) (u : SourceUnit) : Bool :=
  u.module == Module.unknown || Exposed.isBelow c options.dir u.path

/-- The references of all callers, with one check before each class. Classes whose text cannot be
read have none. -/
def collect (c : Catalog) (d : Disk) (options : ExposeOptions) (exposed : Exposed) :
    List SourceUnit → Budget → List CallerLink → TextCache →
      Except CallerError (List CallerLink) × TextCache
  | [], _, found, cache => (.ok found, cache)
  | u :: rest, budget, found, cache =>
    match budget.check with
    | .error i => (.error (.interrupted i), cache)
    | .ok budget' =>
      if isSkipped c options u then collect c d options exposed rest budget' found cache
      else
        match c.text d u.name cache with
        | (.error _, cache') => collect c d options exposed rest budget' found cache'
        | (.ok t, cache') =>
          match linksIn t (candidates exposed u) with
          | .error api => (.error (.illegible api), cache')
          | .ok links => collect c d options exposed rest budget' (found ++ links) cache'

/-- Adds a reference to the index. -/
def addLink (index : CallerIndex) (l : CallerLink) : CallerIndex where
  targets := index.targets.add l.caller l.apiModule l.api
  sources := index.sources.add l.api l.callerModule l.caller
  callers := index.callers.insert l.callerModule
    (SortedSet.add ((index.callers.find? l.callerModule).getD SortedMap.empty) l.caller)

/-- The index without references: every module of the catalog has no callers. -/
def blank (modules : List Text) : CallerIndex :=
  ⟨SortedMap.empty, SortedMap.empty, SortedMap.ofList (modules.map fun m => (m, SortedMap.empty))⟩

/-- The index of the references to exposed classes, in a catalog whose classes can be looked for. -/
def build (x : Extractor) (d : Disk) (options : ExposeOptions) (exposed : Exposed) (budget : Budget)
    (cache : TextCache) : Except CallerError CallerIndex × TextCache :=
  match collect x.toCatalog d options exposed x.list budget [] cache with
  | (.error e, cache') => (.error e, cache')
  | (.ok links, cache') => (.ok (links.foldl addLink (blank x.modules)), cache')

/-- The callers of a module in order. -/
def callersOf (index : CallerIndex) (module : Text) : List Text :=
  ((index.callers.find? module).getD SortedMap.empty).keys

/-- The index as JSON. -/
def toJson (index : CallerIndex) : Json :=
  .obj [("dependencies_to", index.targets.toJson), ("dependencies_from", index.sources.toJson),
    ("module_callers", .obj (index.callers.toList.map fun e => (e.1, .texts e.2.keys)))]

end CallerIndex

end ClassAtlas
