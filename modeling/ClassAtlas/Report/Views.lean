import ClassAtlas.Expose.Report
import ClassAtlas.Graph.Diff
import ClassAtlas.Impact.Analysis
import ClassAtlas.Snapshot.Info
import ClassAtlas.Tables
import ClassAtlas.Time.Civil
import ClassAtlas.Trace.Match

namespace ClassAtlas.View

/-- The line that a module begins with. -/
def header (module : Text) : Text := "[Module: " ++ module ++ "]"

/-- A line for one item. -/
def item (t : Text) : Text := "  - " ++ t

/-- A pair of names with an arrow between them. -/
def arrow (source target : Text) : Text := source ++ " -> " ++ target

/-- A pair of classes that an edge rests on. -/
def evidence (p : ClassPair) : Text :=
  "      " ++ arrow (ClassName.simple p.source) (ClassName.simple p.target)

/-- What is shown where there are no modules. -/
def noModules : List Text := ["No modules to display."]

/-- The place of a match, with its argument if there is one. -/
def matchLine (m : TraceMatch) : Text :=
  let site := ClassName.simple m.className ++ "." ++ m.method
  item (if m.hasArgument then arrow site m.shownArgument else site)

/-- The way from a start to a match. -/
def chainLine (chain : List Text) : Text :=
  "    via " ++ Text.join " -> " (chain.map ClassName.simple)

/-- The lines of a match. The chain is shown if it has more than one class. -/
def matchLines (showChain : Bool) (m : TraceMatch) : List Text :=
  matchLine m :: if showChain && 1 < m.chain.length then [chainLine m.chain] else []

/-- Matches by module. -/
def matched (groups : List ModuleGroup) (showChain : Bool) : List Text :=
  if groups.isEmpty then ["No matches found"]
  else
    [] :: groups.flatMap fun g => header g.module :: g.found.flatMap (matchLines showChain) ++ [[]]

/-- The links of a class into one module. -/
def linkLine (l : ModuleClasses) : Text :=
  "      - " ++ l.module ++ ": " ++ Text.join ", " (l.classes.map ClassName.simple)

/-- The lines of a class with its links under a heading. -/
def entryLines (heading : Text) (showLinks : Bool) (e : ClassEntry) : List Text :=
  item e.name ::
    if showLinks && !e.links.isEmpty then heading :: e.links.map linkLine else []

/-- The numbers of modules that a module depends on and is depended on by. -/
def dependencyCounts (m : ModuleReport) : Text :=
  " (Dependencies to: " ++ Decimal.ofInt m.dependenciesTo ++ ", Depended by: " ++
    Decimal.ofInt m.dependedBy ++ ")"

/-- The lines of a module in the report on exposed classes. -/
def exposeLines (showDependency : Bool) (m : ModuleReport) : List Text :=
  [] :: (header m.module ++ if showDependency then dependencyCounts m else []) ::
    m.exposed.flatMap (entryLines "    Depended by:" showDependency) ++
    m.callers.flatMap (entryLines "    Dependencies to:" true)

/-- The report on exposed classes. -/
def expose (r : ExposeReport) : List Text :=
  if r.modules.isEmpty then noModules
  else r.modules.flatMap (exposeLines r.showDependency) ++ [[]]

/-- A table and its repository. -/
def tableLine (t : Table) : Text := item (t.name ++ " (" ++ t.repository ++ ")")

/-- Tables by module. -/
def tables (modules : List ModuleTables) : List Text :=
  if modules.isEmpty then ["No repository classes found."]
  else (modules.flatMap fun m => [] :: header m.module :: m.tables.map tableLine) ++ [[]]

/-- The lines of an edge between modules. -/
def moduleEdgeLines (showEvidence : Bool) (e : ModuleEdge) : List Text :=
  ("  -> " ++ e.target ++ " (" ++ Decimal.ofNat e.evidence.length ++ " class edges)") ::
    if showEvidence then e.evidence.map evidence else []

/-- The lines of a module in the module graph. -/
def moduleLines (g : ModuleGraph) (showEvidence : Bool) (module : Text) : List Text :=
  let edges := g.edgesFrom module
  [] :: header module ::
    if edges.isEmpty then ["  (no dependencies)"] else edges.flatMap (moduleEdgeLines showEvidence)

/-- The module graph. -/
def modules (g : ModuleGraph) (showEvidence : Bool) : List Text :=
  if g.modules.isEmpty then noModules
  else g.modules.flatMap (moduleLines g showEvidence) ++ [[]]

/-- The path of a changed file; of a renamed one both paths. -/
def changedPath (f : ChangedFile) : Text :=
  if f.status == .renamed && !f.oldPath.isEmpty then arrow f.oldPath f.path else f.path

/-- A changed file. -/
def fileLine (f : ChangedFile) : Text :=
  "  " ++ f.status.mark ++ " " ++ changedPath f ++ " (+" ++ Decimal.ofInt f.linesAdded ++ " -" ++
    Decimal.ofInt f.linesRemoved ++ ") [" ++ f.module ++ "]"

/-- The changed modules. -/
def changedModules (modules : List Text) : Text :=
  "Changed modules: " ++ Text.join ", " (if modules.isEmpty then ["none"] else modules)

/-- The lines of an impacted module. -/
def impactedLines (m : ImpactedModule) : List Text :=
  item (m.module ++ " (distance " ++ Decimal.ofInt m.distance ++ ", via " ++ m.through ++ ")") ::
    m.evidence.map evidence

/-- The impacted modules, if there are any. -/
def impactedModules (modules : List ImpactedModule) : List Text :=
  if modules.isEmpty then ["  none"] else modules.flatMap impactedLines

/-- A line that counts something. -/
def countLine (what : Text) (n : Nat) : Text := what ++ ": " ++ Decimal.ofNat n

/-- The report on an impact. -/
def impact (r : ImpactReport) : List Text :=
  countLine "Changed files" r.files.length :: r.files.map fileLine ++
    [] :: changedModules r.changedModules :: "Impacted modules:" ::
    impactedModules r.impactedModules ++ [countLine "Affected classes" r.affectedClasses.length]

/-- The label of a snapshot; a dash stands for none. -/
def shownLabel (label : Text) : Text := if label.isEmpty then "-" else label

/-- The label of a snapshot in a column that is 16 runes wide. -/
def labelColumn (label : Text) : Text :=
  (shownLabel label).padRight (Utf8.count (shownLabel label)) 16

/-- A snapshot. -/
def snapshotLine (i : SnapshotInfo) : Text :=
  i.id ++ "  " ++ Timestamp.text i.createdAt ++ "  " ++ labelColumn i.label ++ " " ++
    Decimal.ofInt i.classes ++ " classes, " ++ Decimal.ofInt i.edges ++ " edges, " ++
    Decimal.ofInt i.modules ++ " modules"

/-- Snapshots as given. -/
def snapshots (infos : List SnapshotInfo) : List Text :=
  if infos.isEmpty then ["No snapshots found."] else infos.map snapshotLine

/-- A line for something that came, went or changed. -/
def changeLine (sign kind name : Text) : Text := sign ++ " " ++ kind ++ " " ++ name

/-- A line for a pair that came or went. -/
def pairLine (sign kind : Text) (p : ClassPair) : Text :=
  changeLine sign kind (arrow p.source p.target)

/-- A line for a class that moved. -/
def moveLine (m : ClassMove) : Text :=
  changeLine "~" "class" (m.name ++ " (" ++ arrow m.source m.target ++ ")")

/-- A ratio in percent, to the nearest whole number. -/
def percent (ratio : Binary) : Text :=
  match ratio.times? 100 with
  | some b => b.wholeText
  | none => if ratio.negative then "-Inf" else "+Inf"

/-- The size of a difference. -/
def diffSummary (s : DiffSummary) : Text :=
  Decimal.ofInt s.totalChanges ++ " changes across " ++ Decimal.ofInt s.modulesAffected ++
    " modules (" ++ percent s.changeRatio ++ "% of classes)"

/-- The difference between two graphs. -/
def diff (d : GraphDiff) : List Text :=
  ("Diff " ++ arrow d.baseId d.targetId) ::
    if d.isEmpty then ["No changes."]
    else
      d.classesAdded.map (changeLine "+" "class") ++ d.classesRemoved.map (changeLine "-" "class") ++
        d.classesMoved.map moveLine ++
        d.edgesAdded.map (pairLine "+" "edge") ++ d.edgesRemoved.map (pairLine "-" "edge") ++
        d.moduleEdgesAdded.map (pairLine "+" "module edge") ++
        d.moduleEdgesRemoved.map (pairLine "-" "module edge") ++
        [[], diffSummary d.summary]

end ClassAtlas.View
