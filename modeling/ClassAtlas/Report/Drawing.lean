import ClassAtlas.Report.Decode
import ClassAtlas.Report.Output
import ClassAtlas.Report.Shapes
import ClassAtlas.Report.Views

namespace ClassAtlas

/-- The kinds of reports. -/
inductive ReportKind where
  | matched
  | expose
  | tables
  | impact
  | snapshots
  | diff
  deriving DecidableEq, Repr

namespace ReportKind

/-- The kind of a name. -/
def ofName? (name : Text) : Option ReportKind :=
  List.lookup name
    [(("matches" : Text), matched), ("expose", expose), ("tables", tables), ("impact", impact),
      ("snapshots", snapshots), ("diff", diff)]

/-- The shape of a report. -/
def shape : ReportKind → Shape
  | matched => .matchGroups
  | expose => .exposeReport
  | tables => .tableGroups
  | impact => .impactReport
  | snapshots => .snapshotInfos
  | diff => .graphDiff

/-- The lines of a report; nothing if the data does not have its form. -/
def lines? (data : Json) (showChain : Bool) : ReportKind → Option (List Text)
  | matched => (ModuleGroup.listOfJson? data).map fun groups => View.matched groups showChain
  | expose => (ExposeReport.ofJson? data).map View.expose
  | tables => (ModuleTables.listOfJson? data).map View.tables
  | impact => (ImpactReport.ofJson? data).map View.impact
  | snapshots => (listOf? SnapshotInfo.unread SnapshotInfo.fill data).map View.snapshots
  | diff => (GraphDiff.ofJson? data).map View.diff

/-- What is written for a report. -/
def writes? (k : ReportKind) (data : Json) (showChain asJson : Bool) : Option (List Text) :=
  if asJson then (k.shape.conform data).map Output.ofJson
  else (k.lines? data showChain).map Output.ofLines

end ReportKind

end ClassAtlas
