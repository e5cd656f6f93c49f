import ClassAtlas.Catalog.Basic
import ClassAtlas.Json.Basic
import ClassAtlas.Text.Case

namespace ClassAtlas

/-- A table and the class that stands for it. -/
structure Table where
  name : Text
  repository : Text
  className : Text
  deriving DecidableEq, Repr

/-- The tables of a module. -/
structure ModuleTables where
  module : Text
  tables : List Table
  deriving DecidableEq, Repr

namespace Table

/-- Puts an underscore between a lower-case letter and an upper-case letter behind it. -/
def divide : Text → Text
  | [] => []
  | [a] => [a]
  | a :: b :: rest =>
    if Text.isLower a && Text.isUpper b then a :: 95 :: divide (b :: rest) else a :: divide (b :: rest)

/-- A name in lower case with underscores between its words. -/
def snakeCase (t : Text) : Text := Case.lowerText (divide t)

/-- The ending of the classes that stand for tables. -/
def ending : Text := "Repository"

/-- The entity that the simple name of a class is a repository of. -/
def entity? (simple : Text) : Option Text :=
  if simple.endsWith ending then
    let entity := simple.dropTail ending
    if entity.isEmpty || entity.contains Text.newline then none else some entity
  else none

/-- The directory of repositories, if none is given. -/
def defaultDir : Text := "infra"

/-- The table of a class. -/
def ofUnit? (c : Catalog) (dir : Text) (u : SourceUnit) : Option (Text × Table) :=
  if (c.directories u.path).contains dir then
    let simple := ClassName.simple u.name
    (entity? simple).map fun entity => (u.module, ⟨snakeCase entity, simple, u.name⟩)
  else none

/-- The tables of a catalog by module, and within a module by name and class. -/
def scan (c : Catalog) (dir : Text) : List ModuleTables :=
  let found := c.list.filterMap (ofUnit? c (if dir.isEmpty then defaultDir else dir))
  (sortDistinct (found.map Prod.fst)).map fun module =>
    ⟨module, sortBy (fun t => (t.name, t.className)) ((found.filter (·.1 == module)).map Prod.snd)⟩

/-- A table as JSON. -/
def toJson (t : Table) : Json :=
  .obj [("name", .str t.name), ("repository", .str t.repository), ("class", .str t.className)]

end Table

/-- The tables of a module as JSON. -/
def ModuleTables.toJson (m : ModuleTables) : Json :=
  .obj [("module", .str m.module), ("tables", .arr (m.tables.map (·.toJson)))]

end ClassAtlas
