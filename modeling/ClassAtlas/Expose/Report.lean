import ClassAtlas.Expose.Callers

namespace ClassAtlas

/-- Classes of one module. -/
structure ModuleClasses where
  module : Text
  classes : List Text
  deriving DecidableEq, Repr

/-- A class and the classes that it is linked with, by module. -/
structure ClassEntry where
  name : Text
  links : List ModuleClasses
  deriving DecidableEq, Repr

/-- The report on one module. The two numbers count modules. -/
structure ModuleReport where
  module : Text
  dependenciesTo : Int
  dependedBy : Int
  exposed : List ClassEntry
  callers : List ClassEntry
  deriving DecidableEq, Repr

/-- The report on all modules. -/
structure ExposeReport where
  showDependency : Bool
  modules : List ModuleReport
  deriving DecidableEq, Repr

namespace ExposeReport

/-- An entry with its links. -/
def entryOf (index : NameIndex) (name : Text) : ClassEntry :=
  ⟨name, (index.groups name).map fun g => ⟨g.1, g.2⟩⟩

/-- The number of different modules that entries are linked with. -/
def linkedModules (entries : List ClassEntry) : Nat :=
  (sortDistinct (entries.flatMap fun e => e.links.map (·.module))).length

/-- The report on a module without regard to callers. -/
def plainModule (exposed : Exposed) (module : Text) : ModuleReport :=
  ⟨module, 0, 0, ((exposed.find? module).getD []).map fun name => ⟨name, []⟩, []⟩

/-- The report on a module with its callers. -/
def linkedModule (exposed : Exposed) (index : CallerIndex) (module : Text) : ModuleReport :=
  let apis := ((exposed.find? module).getD []).map (entryOf index.sources)
  let callers := (index.callersOf module).map (entryOf index.targets)
  ⟨module, linkedModules callers, linkedModules apis, apis, callers⟩

/-- The report without callers, or with those of an index. -/
def build (exposed : Exposed) (index : Option CallerIndex) : ExposeReport :=
  match index with
  | none => ⟨false, exposed.keys.map (plainModule exposed)⟩
  | some i =>
    ⟨true, (sortDistinct (exposed.keys ++ i.callers.keys)).map (linkedModule exposed i)⟩

/-- The report on a catalog whose classes can be looked for. -/
def analyze (x : Extractor) (d : Disk) (options : ExposeOptions) (showDependency : Bool)
    (budget : Budget) (cache : TextCache) : Except CallerError ExposeReport × TextCache :=
  let exposed := Exposed.scan x.toCatalog options
  if showDependency then
    match CallerIndex.build x d options exposed budget cache with
    | (.error e, cache') => (.error e, cache')
    | (.ok index, cache') => (.ok (build exposed (some index)), cache')
  else (.ok (build exposed none), cache)

end ExposeReport

/-- Classes of a module as JSON. -/
def ModuleClasses.toJson (m : ModuleClasses) : Json :=
  .obj [("module", .str m.module), ("classes", .texts m.classes)]

/-- An entry as JSON; a class without links has no such member. -/
def ClassEntry.toJson (e : ClassEntry) : Json :=
  .ofGroups [[("class", .str e.name)],
    if e.links.isEmpty then [] else [("links", .arr (e.links.map (·.toJson)))]]

/-- The report on a module as JSON; without callers there is no such member. -/
def ModuleReport.toJson (m : ModuleReport) : Json :=
  .ofGroups [[("module", .str m.module), ("dependencies_to", .int m.dependenciesTo),
    ("depended_by", .int m.dependedBy), ("exposed", .arr (m.exposed.map (·.toJson)))],
    if m.callers.isEmpty then [] else [("callers", .arr (m.callers.map (·.toJson)))]]

/-- The report as JSON. -/
def ExposeReport.toJson (r : ExposeReport) : Json :=
  .obj [("show_dependency", .bool r.showDependency), ("modules", .arr (r.modules.map (·.toJson)))]

end ClassAtlas
