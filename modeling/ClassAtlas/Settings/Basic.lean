import ClassAtlas.Disk.Basic
import ClassAtlas.Json.Basic
import ClassAtlas.Settings.DotEnv
import ClassAtlas.Settings.Uri
import ClassAtlas.Text.Quoted
import ClassAtlas.Yaml.Value

namespace ClassAtlas

/-- Where and how to export a graph. -/
structure DatabaseSettings where
  uri : Text := []
  username : Text := "neo4j"
  password : Text := []
  database : Text := "neo4j"
  batchSize : Int := 500
  deriving DecidableEq, Repr

/-- How to watch for changes. Times are in nanoseconds. -/
structure WatchSettings where
  debounce : Int := 500000000
  minInterval : Int := 2000000000
  ignorePatterns : Option (List Text) := some ["*.swp", "*~", ".#*"]
  deriving DecidableEq, Repr

/-- The settings of an analysis. A list may be missing, which differs from an empty one. -/
structure Settings where
  extension : Text := ".java"
  ignoreDirs : Option (List Text) :=
    some [".git", ".idea", ".modtrace", "build", "node_modules", "target"]
  patterns : Option (List Text) := some ["client.post"]
  entrySubdir : Text := "application"
  entryDepth : Int := 4
  exposeDir : Text := "expose"
  exposeExcludeSuffixes : Option (List Text) := some ["Dto", "Input", "Output"]
  infraDir : Text := "infra"
  cacheSize : Int := 4096
  snapshotsDir : Text := []
  neo4j : DatabaseSettings := {}
  watch : WatchSettings := {}
  deriving DecidableEq, Repr

/-- Why settings are refused. -/
inductive SettingsError where
  | reading (path : Text) (cause : DiskError)
  | tooLarge (path : Text)
  | parsing (path : Text)
  | loading (path : Text)
  | notInteger (name value : Text)
  | notDuration (name value : Text)
  | failed (field tag : Text)
  deriving DecidableEq, Repr

namespace Settings

/-- The size that a file of settings must not exceed. -/
def maxFileSize : Nat := 1048576

/-- What every environment variable of the settings begins with. -/
def variableLead : Text := "MODTRACE_"

/-- The name of the file of settings at the root of a project. -/
def fileName : Text := "modtrace.config.yaml"

end Settings

/-- What the wording of invalid settings begins with. -/
def SettingsError.lead : Text := "invalid configuration: "

/-- The wording of refused settings. -/
def SettingsError.message : SettingsError → Text
  | .reading path cause => "reading " ++ path ++ ": " ++ cause.message
  | .tooLarge path => lead ++ path ++ " exceeds " ++ Decimal.ofNat Settings.maxFileSize ++ " bytes"
  | .parsing path => lead ++ "parsing " ++ path
  | .loading path => "loading " ++ path
  | .notInteger name value =>
    lead ++ Settings.variableLead ++ name ++ "=" ++ Quoted.encode value ++ " is not an integer"
  | .notDuration name value =>
    lead ++ Settings.variableLead ++ name ++ "=" ++ Quoted.encode value ++ " is not a duration"
  | .failed field tag => lead ++ "AnalysisConfig." ++ field ++ " failed " ++ Quoted.encode tag

/-- The settings themselves are invalid, and not only out of reach. -/
def SettingsError.isInvalid : SettingsError → Bool
  | .reading _ _ | .loading _ => false
  | _ => true

namespace Settings

/-- Fills the place of the snapshots. -/
def fillSnapshots : Yaml.Filler Text :=
  Yaml.fillRecord (Yaml.named [("dir", Yaml.part id (fun _ v => v) Yaml.fillText)])

/-- Fills the settings of the export. -/
def fillDatabase : Yaml.Filler DatabaseSettings :=
  Yaml.fillRecord (Yaml.named [
    ("uri", Yaml.part (·.uri) (fun d v => { d with uri := v }) Yaml.fillText),
    ("username", Yaml.part (·.username) (fun d v => { d with username := v }) Yaml.fillText),
    ("password", Yaml.part (·.password) (fun d v => { d with password := v }) Yaml.fillText),
    ("database", Yaml.part (·.database) (fun d v => { d with database := v }) Yaml.fillText),
    ("batch_size", Yaml.part (·.batchSize) (fun d v => { d with batchSize := v }) Yaml.fillInt)])

/-- Fills the settings of the watch. -/
def fillWatch : Yaml.Filler WatchSettings :=
  Yaml.fillRecord (Yaml.named [
    ("debounce", Yaml.part (·.debounce) (fun w v => { w with debounce := v }) Yaml.fillDuration),
    ("min_interval", Yaml.part (·.minInterval) (fun w v => { w with minInterval := v })
      Yaml.fillDuration),
    ("ignore_patterns", Yaml.part (·.ignorePatterns) (fun w v => { w with ignorePatterns := v })
      Yaml.fillTexts)])

/-- Fills the settings. -/
def fill : Yaml.Filler Settings :=
  Yaml.fillRecord (Yaml.named [
    ("extension", Yaml.part (·.extension) (fun s v => { s with extension := v }) Yaml.fillText),
    ("ignore_dirs", Yaml.part (·.ignoreDirs) (fun s v => { s with ignoreDirs := v })
      Yaml.fillTexts),
    ("patterns", Yaml.part (·.patterns) (fun s v => { s with patterns := v }) Yaml.fillTexts),
    ("entry_subdir", Yaml.part (·.entrySubdir) (fun s v => { s with entrySubdir := v })
      Yaml.fillText),
    ("entry_depth", Yaml.part (·.entryDepth) (fun s v => { s with entryDepth := v }) Yaml.fillInt),
    ("expose_dir", Yaml.part (·.exposeDir) (fun s v => { s with exposeDir := v }) Yaml.fillText),
    ("expose_exclude_suffixes", Yaml.part (·.exposeExcludeSuffixes)
      (fun s v => { s with exposeExcludeSuffixes := v }) Yaml.fillTexts),
    ("infra_dir", Yaml.part (·.infraDir) (fun s v => { s with infraDir := v }) Yaml.fillText),
    ("cache_size", Yaml.part (·.cacheSize) (fun s v => { s with cacheSize := v }) Yaml.fillInt),
    ("snapshots", Yaml.part (·.snapshotsDir) (fun s v => { s with snapshotsDir := v })
      fillSnapshots),
    ("neo4j", Yaml.part (·.neo4j) (fun s v => { s with neo4j := v }) fillDatabase),
    ("watch", Yaml.part (·.watch) (fun s v => { s with watch := v }) fillWatch)])

/-- The settings with those of a YAML text over them. -/
def overlay? (s : Settings) (t : Text) : Option Settings :=
  match Yaml.document? t with
  | none => none
  | some none => some s
  | some (some n) => fill s n

/-- The settings with those of a file over them. -/
def overlayFile (s : Settings) (d : Disk) (path : Text) : Except SettingsError Settings :=
  match d.nodeAt true path with
  | .error fault => .error (.reading path ⟨"stat", path, fault⟩)
  | .ok n =>
    if maxFileSize < n.size then .error (.tooLarge path)
    else
      match d.readFile path with
      | .error e => .error (.reading path e)
      | .ok t =>
        match s.overlay? t with
        | none => .error (.parsing path)
        | some s => .ok s

/-- The parts of a list that are separated by commas, without blanks around them; empty ones are
left out. -/
def splitList (t : Text) : List Text := ((t.split 44).map Blank.trim).filter (!·.isEmpty)

/-- The value of a variable of the settings. -/
def fromEnv? (env : SortedMap Text Text) (name : Text) : Option Text := env.find? (variableLead ++ name)

/-- The settings with the texts and lists of environment variables over them. -/
def applyTexts (env : SortedMap Text Text) (s : Settings) : Settings :=
  let text (name : Text) (old : Text) : Text := ((fromEnv? env name).map Blank.trim).getD old
  let list (name : Text) (old : Option (List Text)) : Option (List Text) :=
    match fromEnv? env name with
    | some v => some (splitList v)
    | none => old
  { s with
    extension := text "EXTENSION" s.extension
    ignoreDirs := list "IGNORE_DIRS" s.ignoreDirs
    patterns := list "PATTERNS" s.patterns
    entrySubdir := text "ENTRY_SUBDIR" s.entrySubdir
    exposeDir := text "EXPOSE_DIR" s.exposeDir
    exposeExcludeSuffixes := list "EXPOSE_EXCLUDE_SUFFIXES" s.exposeExcludeSuffixes
    infraDir := text "INFRA_DIR" s.infraDir
    snapshotsDir := text "SNAPSHOT_DIR" s.snapshotsDir
    neo4j := { s.neo4j with
      uri := text "NEO4J_URI" s.neo4j.uri
      username := text "NEO4J_USER" s.neo4j.username
      password := text "NEO4J_PASSWORD" s.neo4j.password
      database := text "NEO4J_DATABASE" s.neo4j.database } }

/-- A setting that is read from an environment variable and may be refused. -/
structure NumberVariable where
  name : Text
  read : Text → Option Int
  refused : Text → SettingsError
  set : Settings → Int → Settings

/-- A variable that holds an integer. -/
def integerVariable (name : Text) (set : Settings → Int → Settings) : NumberVariable :=
  ⟨name, fun v => Decimal.int64? (Blank.trim v), .notInteger name, set⟩

/-- A variable that holds a span of time. -/
def durationVariable (name : Text) (set : Settings → Int → Settings) : NumberVariable :=
  ⟨name, fun v => (Duration.parse (Blank.trim v)).toOption, .notDuration name, set⟩

/-- The variables that hold numbers, in the order in which they are read. -/
def numberVariables : List NumberVariable :=
  [integerVariable "ENTRY_DEPTH" fun s n => { s with entryDepth := n },
   integerVariable "CACHE_SIZE" fun s n => { s with cacheSize := n },
   integerVariable "NEO4J_BATCH_SIZE" fun s n => { s with neo4j := { s.neo4j with batchSize := n } },
   durationVariable "WATCH_DEBOUNCE" fun s n => { s with watch := { s.watch with debounce := n } },
   durationVariable "WATCH_MIN_INTERVAL" fun s n =>
     { s with watch := { s.watch with minInterval := n } }]

/-- Applies variables that hold numbers up to the first that is refused. -/
def applyNumbers (env : SortedMap Text Text) : List NumberVariable → Settings → Settings × Option SettingsError
  | [], s => (s, none)
  | v :: rest, s =>
    match fromEnv? env v.name with
    | none => applyNumbers env rest s
    | some t =>
      match v.read t with
      | none => (s, some (v.refused t))
      | some n => applyNumbers env rest (v.set s n)

/-- The settings with environment variables over them, up to the first that is refused. -/
def applyEnv (env : SortedMap Text Text) (s : Settings) : Settings × Option SettingsError :=
  applyNumbers env numberVariables (applyTexts env s)

/-- A rule for one setting: its name, and the tag of what it fails. -/
structure Check where
  field : Text
  failed : Option Text

/-- The first tag whose condition does not hold. -/
def firstFailed (conditions : List (Text × Bool)) : Option Text :=
  (conditions.find? fun c => !c.2).map Prod.fst

/-- The rule for the name of a directory. -/
def directoryCheck (field t : Text) : Check :=
  ⟨field, firstFailed [("required", !t.isEmpty), ("excludesall", !t.contains Text.slash && !t.contains 92)]⟩

/-- The rule that the items of a list are not empty. -/
def itemChecks (field : Text) (items : List Text) : List Check :=
  items.zipIdx.map fun (t, i) =>
    ⟨field ++ "[" ++ Decimal.ofNat i ++ "]", firstFailed [("required", !t.isEmpty)]⟩

/-- All rules, in their order. -/
def checks (s : Settings) : List Check :=
  [⟨"Extension", firstFailed [("required", !s.extension.isEmpty), ("startswith", s.extension.startsWith ".")]⟩] ++
  itemChecks "IgnoreDirs" (s.ignoreDirs.getD []) ++
  [⟨"Patterns", firstFailed [("required", s.patterns.isSome), ("min", !(s.patterns.getD []).isEmpty)]⟩] ++
  itemChecks "Patterns" (s.patterns.getD []) ++
  [directoryCheck "EntrySubdir" s.entrySubdir,
   ⟨"EntryDepth", firstFailed [("gte", 1 ≤ s.entryDepth), ("lte", s.entryDepth ≤ 64)]⟩,
   directoryCheck "ExposeDir" s.exposeDir,
   directoryCheck "InfraDir" s.infraDir,
   ⟨"CacheSize", firstFailed [("gte", 1 ≤ s.cacheSize)]⟩,
   ⟨"Neo4j.URI", firstFailed [("uri", s.neo4j.uri.isEmpty || Uri.isValid s.neo4j.uri)]⟩,
   ⟨"Neo4j.BatchSize", firstFailed [("gte", 1 ≤ s.neo4j.batchSize), ("lte", s.neo4j.batchSize ≤ 100000)]⟩,
   ⟨"Watch.Debounce", firstFailed [("gte", 0 ≤ s.watch.debounce)]⟩,
   ⟨"Watch.MinInterval", firstFailed [("gte", 0 ≤ s.watch.minInterval)]⟩]

/-- The first rule that the settings break. -/
def invalid? (s : Settings) : Option SettingsError :=
  s.checks.findSome? fun c => c.failed.map (.failed c.field)

/-- What loading settings gives: the settings or why there are none, and the environment, to which
a file of variables may have added some. -/
structure Loaded where
  result : Except SettingsError Settings
  env : SortedMap Text Text

/-- Adds the variables of the file `.env` of a directory to the environment, if there is one. -/
def loadDotEnv (d : Disk) (dir : Text) (env : SortedMap Text Text) :
    Except SettingsError (SortedMap Text Text) :=
  let path := Path.join [dir, ".env"]
  match d.nodeAt true path with
  | .error .missing => .ok env
  | _ =>
    match (d.readFile path).toOption.bind DotEnv.read? with
    | none => .error (.loading path)
    | some found => .ok (DotEnv.overlay env found)

/-- Applies the environment and checks the settings. -/
def finish (env : SortedMap Text Text) (s : Settings) : Except SettingsError Settings :=
  match applyEnv env s with
  | (_, some e) => .error e
  | (s, none) =>
    match s.invalid? with
    | some e => .error e
    | none => .ok s

/-- The file of settings of a project, if it is there. -/
def projectFile (d : Disk) (root : Text) : Text :=
  if root.isEmpty then []
  else
    let path := Path.join [root, fileName]
    match d.nodeAt true path with
    | .error .missing => []
    | _ => path

/-- Loads the settings of a project: standard values, the file, the variables. Without a path the
file of the project is taken if it is there; an empty root has no files. -/
def load (d : Disk) (env : SortedMap Text Text) (root path : Text) : Loaded :=
  let file := if path.isEmpty then projectFile d root else path
  match (if file.isEmpty then .ok {} else overlayFile {} d file) with
  | .error e => ⟨.error e, env⟩
  | .ok s =>
    match (if root.isEmpty then .ok env else loadDotEnv d root env) with
    | .error e => ⟨.error e, env⟩
    | .ok env => ⟨finish env s, env⟩

/-- A list as JSON; a missing one is null. -/
def listJson (l : Option (List Text)) : Json := Json.optional Json.texts l

/-- The settings as JSON. -/
def toJson (s : Settings) : Json :=
  .obj [("extension", .str s.extension), ("ignore_dirs", listJson s.ignoreDirs),
    ("patterns", listJson s.patterns), ("entry_subdir", .str s.entrySubdir),
    ("entry_depth", .int s.entryDepth), ("expose_dir", .str s.exposeDir),
    ("expose_exclude_suffixes", listJson s.exposeExcludeSuffixes), ("infra_dir", .str s.infraDir),
    ("cache_size", .int s.cacheSize), ("snapshots_dir", .str s.snapshotsDir),
    ("neo4j", .obj [("uri", .str s.neo4j.uri), ("username", .str s.neo4j.username),
      ("password", .str s.neo4j.password), ("database", .str s.neo4j.database),
      ("batch_size", .int s.neo4j.batchSize)]),
    ("watch", .obj [("debounce_ns", .int s.watch.debounce),
      ("min_interval_ns", .int s.watch.minInterval),
      ("ignore_patterns", listJson s.watch.ignorePatterns)])]

end Settings

end ClassAtlas
