import ClassAtlas.Expose.Report
import ClassAtlas.Graph.Diff
import ClassAtlas.Impact.Analysis
import ClassAtlas.Tables
import ClassAtlas.Trace.Match

namespace ClassAtlas

/-- Fills a list of texts; null stands for the empty list. -/
def fillNames : Json.Filler (List Text) := GraphDocument.fillList [] Json.fillText

/-- Reads a list of values; null stands for the empty list. -/
def listOf? {α : Type} (blank : α) (item : Json.Filler α) (j : Json) : Option (List α) :=
  GraphDocument.fillList blank item [] j

namespace TraceMatch

/-- A match before anything is read into it. -/
def unread : TraceMatch := ⟨[], [], 0, [], [], [], [], [], []⟩

/-- Fills a match from JSON. -/
def fill : Json.Filler TraceMatch :=
  Json.fillRecord (Json.named [
    ("class_chain", Json.part (·.chain) (fun m v => { m with chain := v }) fillNames),
    ("matched_class", Json.part (·.className) (fun m v => { m with className := v }) Json.fillText),
    ("line_number", Json.part (·.line) (fun m v => { m with line := v }) Json.fillInt),
    ("line_text", Json.part (·.lineText) (fun m v => { m with lineText := v }) Json.fillText),
    ("method_name", Json.part (·.method) (fun m v => { m with method := v }) Json.fillText),
    ("module", Json.part (·.module) (fun m v => { m with module := v }) Json.fillText),
    ("pattern", Json.part (·.pattern) (fun m v => { m with pattern := v }) Json.fillText),
    ("raw_argument", Json.part (·.rawArgument) (fun m v => { m with rawArgument := v })
      Json.fillText),
    ("resolved_argument", Json.part (·.resolvedArgument)
      (fun m v => { m with resolvedArgument := v }) Json.fillText)])

/-- Reads a match from JSON. -/
def ofJson? (j : Json) : Option TraceMatch := fill unread j

end TraceMatch

namespace ModuleGroup

/-- Fills a group of matches from JSON. -/
def fill : Json.Filler ModuleGroup :=
  Json.fillRecord (Json.named [
    ("module", Json.part (·.module) (fun g v => { g with module := v }) Json.fillText),
    ("matches", Json.part (·.found) (fun g v => { g with found := v })
      (GraphDocument.fillList TraceMatch.unread TraceMatch.fill))])

/-- Reads groups of matches from JSON. -/
def listOfJson? (j : Json) : Option (List ModuleGroup) := listOf? ⟨[], []⟩ fill j

end ModuleGroup

namespace ExposeReport

/-- Fills the links of a class into a module from JSON. -/
def fillLinks : Json.Filler ModuleClasses :=
  Json.fillRecord (Json.named [
    ("module", Json.part (·.module) (fun m v => { m with module := v }) Json.fillText),
    ("classes", Json.part (·.classes) (fun m v => { m with classes := v }) fillNames)])

/-- Fills a class with its links from JSON. -/
def fillEntry : Json.Filler ClassEntry :=
  Json.fillRecord (Json.named [
    ("class", Json.part (·.name) (fun e v => { e with name := v }) Json.fillText),
    ("links", Json.part (·.links) (fun e v => { e with links := v })
      (GraphDocument.fillList ⟨[], []⟩ fillLinks))])

/-- Fills the report on a module from JSON. -/
def fillModule : Json.Filler ModuleReport :=
  Json.fillRecord (Json.named [
    ("module", Json.part (·.module) (fun m v => { m with module := v }) Json.fillText),
    ("dependencies_to", Json.part (·.dependenciesTo) (fun m v => { m with dependenciesTo := v })
      Json.fillInt),
    ("depended_by", Json.part (·.dependedBy) (fun m v => { m with dependedBy := v }) Json.fillInt),
    ("exposed", Json.part (·.exposed) (fun m v => { m with exposed := v })
      (GraphDocument.fillList ⟨[], []⟩ fillEntry)),
    ("callers", Json.part (·.callers) (fun m v => { m with callers := v })
      (GraphDocument.fillList ⟨[], []⟩ fillEntry))])

/-- Reads the report on exposed classes from JSON. -/
def ofJson? (j : Json) : Option ExposeReport :=
  Json.fillRecord (Json.named [
    ("show_dependency", Json.part (·.showDependency) (fun r v => { r with showDependency := v })
      Json.fillBool),
    ("modules", Json.part (·.modules) (fun r v => { r with modules := v })
      (GraphDocument.fillList ⟨[], 0, 0, [], []⟩ fillModule))]) ⟨false, []⟩ j

end ExposeReport

namespace ModuleTables

/-- Fills a table from JSON. -/
def fillTable : Json.Filler Table :=
  Json.fillRecord (Json.named [
    ("name", Json.part (·.name) (fun t v => { t with name := v }) Json.fillText),
    ("repository", Json.part (·.repository) (fun t v => { t with repository := v }) Json.fillText),
    ("class", Json.part (·.className) (fun t v => { t with className := v }) Json.fillText)])

/-- Fills the tables of a module from JSON. -/
def fill : Json.Filler ModuleTables :=
  Json.fillRecord (Json.named [
    ("module", Json.part (·.module) (fun m v => { m with module := v }) Json.fillText),
    ("tables", Json.part (·.tables) (fun m v => { m with tables := v })
      (GraphDocument.fillList ⟨[], [], []⟩ fillTable))])

/-- Reads tables by module from JSON. -/
def listOfJson? (j : Json) : Option (List ModuleTables) := listOf? ⟨[], []⟩ fill j

end ModuleTables

namespace ChangedFile

/-- A file before anything is read into it. -/
def unread : ChangedFile := plain [] [] (.other [])

/-- Fills the status of a file from JSON. -/
def fillStatus : Json.Filler FileStatus :=
  fun old j => (Json.fillText old.label j).map FileStatus.ofLabel

/-- Fills a changed file from JSON. -/
def fill : Json.Filler ChangedFile :=
  Json.fillRecord (Json.named [
    ("path", Json.part (·.path) (fun f v => { f with path := v }) Json.fillText),
    ("orig_path", Json.part (·.oldPath) (fun f v => { f with oldPath := v }) Json.fillText),
    ("status", Json.part (·.status) (fun f v => { f with status := v }) fillStatus),
    ("lines_added", Json.part (·.linesAdded) (fun f v => { f with linesAdded := v }) Json.fillInt),
    ("lines_removed", Json.part (·.linesRemoved) (fun f v => { f with linesRemoved := v })
      Json.fillInt),
    ("class", Json.part (·.className) (fun f v => { f with className := v }) Json.fillText),
    ("module", Json.part (·.module) (fun f v => { f with module := v }) Json.fillText),
    ("source", Json.part (·.isSource) (fun f v => { f with isSource := v }) Json.fillBool)])

/-- Reads changed files from JSON. -/
def listOfJson? (j : Json) : Option (List ChangedFile) := listOf? unread fill j

end ChangedFile

namespace ImpactReport

/-- Fills an impacted module from JSON. -/
def fillModule : Json.Filler ImpactedModule :=
  Json.fillRecord (Json.named [
    ("module", Json.part (·.module) (fun m v => { m with module := v }) Json.fillText),
    ("distance", Json.part (·.distance) (fun m v => { m with distance := v }) Json.fillInt),
    ("through", Json.part (·.through) (fun m v => { m with through := v }) Json.fillText),
    ("evidence", Json.part (·.evidence) (fun m v => { m with evidence := v })
      (GraphDocument.fillList ⟨[], []⟩ GraphDocument.fillPair))])

/-- Reads the report on an impact from JSON. -/
def ofJson? (j : Json) : Option ImpactReport :=
  Json.fillRecord (Json.named [
    ("files", Json.part (·.files) (fun r v => { r with files := v })
      (GraphDocument.fillList ChangedFile.unread ChangedFile.fill)),
    ("changed_modules", Json.part (·.changedModules) (fun r v => { r with changedModules := v })
      fillNames),
    ("changed_classes", Json.part (·.changedClasses) (fun r v => { r with changedClasses := v })
      fillNames),
    ("affected_classes", Json.part (·.affectedClasses) (fun r v => { r with affectedClasses := v })
      fillNames),
    ("impacted_modules", Json.part (·.impactedModules) (fun r v => { r with impactedModules := v })
      (GraphDocument.fillList ⟨[], 0, [], []⟩ fillModule))]) ⟨[], [], [], [], []⟩ j

end ImpactReport

namespace GraphDiff

/-- Fills a number from JSON. -/
def fillRatio : Json.Filler Binary
  | old, .null => some old
  | _, .num literal => Binary.ofLiteral? literal
  | _, _ => none

/-- Fills the size of a difference from JSON. -/
def fillSummary : Json.Filler DiffSummary :=
  Json.fillRecord (Json.named [
    ("total_changes", Json.part (·.totalChanges) (fun s v => { s with totalChanges := v })
      Json.fillInt),
    ("modules_affected", Json.part (·.modulesAffected) (fun s v => { s with modulesAffected := v })
      Json.fillInt),
    ("change_ratio", Json.part (·.changeRatio) (fun s v => { s with changeRatio := v })
      fillRatio)])

/-- Fills a move from JSON. -/
def fillMove : Json.Filler ClassMove :=
  Json.fillRecord (Json.named [
    ("class", Json.part (·.name) (fun m v => { m with name := v }) Json.fillText),
    ("from_module", Json.part (·.source) (fun m v => { m with source := v }) Json.fillText),
    ("to_module", Json.part (·.target) (fun m v => { m with target := v }) Json.fillText)])

/-- Fills a list of pairs from JSON. -/
def fillPairs : Json.Filler (List ClassPair) :=
  GraphDocument.fillList ⟨[], []⟩ GraphDocument.fillPair

/-- Reads a difference from JSON. -/
def ofJson? (j : Json) : Option GraphDiff :=
  Json.fillRecord (Json.named [
    ("base_snapshot_id", Json.part (·.baseId) (fun d v => { d with baseId := v }) Json.fillText),
    ("target_snapshot_id", Json.part (·.targetId) (fun d v => { d with targetId := v })
      Json.fillText),
    ("classes_added", Json.part (·.classesAdded) (fun d v => { d with classesAdded := v })
      fillNames),
    ("classes_removed", Json.part (·.classesRemoved) (fun d v => { d with classesRemoved := v })
      fillNames),
    ("classes_moved", Json.part (·.classesMoved) (fun d v => { d with classesMoved := v })
      (GraphDocument.fillList ⟨[], [], []⟩ fillMove)),
    ("edges_added", Json.part (·.edgesAdded) (fun d v => { d with edgesAdded := v }) fillPairs),
    ("edges_removed", Json.part (·.edgesRemoved) (fun d v => { d with edgesRemoved := v })
      fillPairs),
    ("module_edges_added", Json.part (·.moduleEdgesAdded)
      (fun d v => { d with moduleEdgesAdded := v }) fillPairs),
    ("module_edges_removed", Json.part (·.moduleEdgesRemoved)
      (fun d v => { d with moduleEdgesRemoved := v }) fillPairs),
    ("summary", Json.part (·.summary) (fun d v => { d with summary := v }) fillSummary)])
    ⟨[], [], [], [], [], [], [], [], [], ⟨0, 0, Binary.zero⟩⟩ j

end GraphDiff

end ClassAtlas
