import ClassAtlas.Catalog.Scan
import ClassAtlas.Graph.Build
import ClassAtlas.Settings.Basic

namespace ClassAtlas

/-- Why an analysis failed. Where a class cannot be looked for the program breaks off. -/
inductive AnalysisError where
  | settings (cause : SettingsError)
  | indexing (root : Text) (cause : ScanError)
  | illegible
  | building (cause : BuildError)
  deriving DecidableEq, Repr

namespace AnalysisError

/-- The wording of a failed analysis. Where the program breaks off, it is the cause that it names. -/
def message : AnalysisError → Text
  | .settings cause => cause.message
  | .indexing root cause => "index " ++ root ++ ": " ++ cause.message
  | .illegible => "error parsing regexp: invalid UTF-8"
  | .building cause => "build graph: " ++ cause.message

/-- The interruption behind a failure, if there is one. -/
def interruption? : AnalysisError → Option Interruption
  | .indexing _ (.interrupted i) => some i
  | .building (.cancelled i) => some i
  | _ => none

end AnalysisError

/-- An analysed project. -/
structure Analysis where
  settings : Settings
  extractor : Extractor
  build : Build

namespace Analysis

/-- The catalog of the classes. -/
def catalog (a : Analysis) : Catalog := a.extractor.toCatalog

/-- The class graph. -/
def graph (a : Analysis) : ClassGraph := a.build.graph

/-- The texts read last. -/
def cache (a : Analysis) : TextCache := a.build.cache

/-- How settings ask for a scan. -/
def scanOptions (s : Settings) : ScanOptions where
  extension := ScanOptions.dotted s.extension
  ignored := s.ignoreDirs.getD []
  cacheSize := s.cacheSize

/-- Analyses the tree below a root at a point in time. -/
def run (settings : Settings) (d : Disk) (budget : Budget) (now : Int) (root : Text) :
    Except AnalysisError Analysis := do
  let (catalog, cache) ←
    (Catalog.scan d (scanOptions settings) budget root).mapError (.indexing root)
  match Extractor.of? catalog with
  | none => throw .illegible
  | some extractor =>
    let build := Build.run extractor d {} budget now cache
    match build.failure with
    | some cause => throw (.building cause)
    | none => return ⟨settings, extractor, build⟩

end Analysis

end ClassAtlas
