import ClassAtlas.Cli.Run
import ClassAtlas.Snapshot.File
import Std.Time.DateTime.Timestamp

open ClassAtlas

namespace CommandLine

/-- The bytes of a text as a string; bytes that are no text become replacement characters. -/
def toString (t : Text) : String := String.fromUTF8? (ByteArray.mk (Utf8.scrub t).toArray) |>.getD ""

/-- Reads a file, if there is one. -/
def readBytes? (path : String) : IO (Option Text) := do
  try return some (← IO.FS.readBinFile path).toList
  catch _ => return none

/-- A path that leads nowhere. -/
def nowhere : Text := "/dev/null/nowhere"

/-- Where a link leads to that is no link to a file. -/
def linkTarget (path : String) : IO Text := do
  try return Text.ofString (← IO.FS.realPath path).toString
  catch _ => return nowhere

/-- The disk with one more place that may not be read. -/
def withheld (place : List Text) (d : Disk) : Disk := { d with unreadable := place :: d.unreadable }

/-- Reads what lies below a directory. A link to a file counts as the file; other links stay. -/
partial def readBelow (path : String) (d : Disk) : IO Disk := do
  let listed ← try pure (some (← (← IO.FS.realPath path).readDir)) catch _ => pure none
  let some entries := listed | return withheld (Path.segments (Text.ofString path)) d
  let mut d := d
  for entry in entries do
    let child := path ++ "/" ++ entry.fileName
    let place := Path.segments (Text.ofString child)
    match (← entry.path.symlinkMetadata).type with
    | .dir => d ← readBelow child (d.addDirectory place)
    | .file =>
      match ← readBytes? child with
      | some content => d := d.put place (.file content)
      | none => d := withheld place (d.put place (.file []))
    | _ =>
      match ← readBytes? child with
      | some content => d := d.put place (.file content)
      | none => d := d.put place (.link (← linkTarget child))
  return d

/-- Reads what stands at an absolute path. -/
def readAt (path : String) (d : Disk) : IO Disk := do
  let place := Path.segments (Text.ofString path)
  match ← readBytes? path with
  | some content => return d.put place (.file content)
  | none =>
    try readBelow path (d.addDirectories place)
    catch _ => return d

/-- The variables that the program looks at. -/
def knownVariables : List String :=
  (["EXTENSION", "IGNORE_DIRS", "PATTERNS", "ENTRY_SUBDIR", "ENTRY_DEPTH", "EXPOSE_DIR",
    "EXPOSE_EXCLUDE_SUFFIXES", "INFRA_DIR", "CACHE_SIZE", "SNAPSHOT_DIR", "NEO4J_URI", "NEO4J_USER",
    "NEO4J_PASSWORD", "NEO4J_DATABASE", "NEO4J_BATCH_SIZE", "WATCH_DEBOUNCE",
    "WATCH_MIN_INTERVAL"].map ("MODTRACE_" ++ ·))

/-- The environment of the program. -/
def environment : IO (SortedMap Text Text) := do
  let mut env := SortedMap.empty
  for name in knownVariables do
    match ← IO.getEnv name with
    | some value => env := env.insert (Text.ofString name) (Text.ofString value)
    | none => pure ()
  return env

/-- The paths that a command line may look at: the root, and all its words and values. -/
def pathsOf (line : List Text) : List Text :=
  match Invocation.read line with
  | .ok (.run _ arguments) =>
    (if (arguments.values.text? "root").isSome then [] else [Path.here]) ++ arguments.words ++
      arguments.values.filterMap fun
        | (_, .text t) => some t
        | _ => none
  | _ => []

/-- Reads all that a command line may look at. -/
def readDisk (workdir : Text) (line : List Text) : IO Disk := do
  let mut d := (Disk.blank workdir).addDirectories (Path.segments workdir)
  for path in pathsOf line do
    d ← readAt (toString (Path.absolute workdir path)) d
  return d

/-- The stores of snapshots that were read with the disk. -/
def storesOn (d : Disk) : SortedMap (List Text) SnapshotStore :=
  SortedMap.ofList (d.nodes.toList.filterMap fun
    | (place, .file content) =>
      if place.getLast? == some SnapshotStore.fileName then
        some (place.dropLast, SnapshotStore.ofText content)
      else none
    | _ => none)

/-- Writes the stores of snapshots. -/
def writeStores (stores : SortedMap (List Text) SnapshotStore) : IO Unit := do
  for (place, store) in stores.toList do
    let dir := toString (Watch.pathOf place)
    IO.FS.createDirAll dir
    IO.FS.writeBinFile (dir ++ "/" ++ toString SnapshotStore.fileName)
      (ByteArray.mk store.toText.toArray)

/-- Writes a text. -/
def write (stream : IO.FS.Stream) (t : Text) : IO Unit := do
  stream.write (ByteArray.mk t.toArray)
  stream.flush

/-- The time in milliseconds. -/
def currentTime : IO Int := do return (← Std.Time.Timestamp.now).toMillisecondsSinceUnixEpoch.val

/-- Runs a command line once. -/
def runOnce (workdir : Text) (line : List Text) : IO (Cli.Ending × Disk) := do
  let d ← readDisk workdir line
  let input ← if line.contains "-" then (← IO.getStdin).readToEnd else pure ""
  let (ending, s) :=
    Cli.run line (Text.ofString input) .unlimited ⟨d, ← environment, ← currentTime, storesOn d⟩
  writeStores s.stores
  write (← IO.getStdout) (Output.text ending.output)
  match ending.error with
  | some message => write (← IO.getStderr) ("Error: " ++ message ++ "\n")
  | none => pure ()
  return (ending, d)

/-- Looks at the files again and again, and runs the command line anew after changes. -/
partial def follow (workdir : Text) (line : List Text) (o : WatchOptions) (old : Disk) : IO Unit := do
  IO.sleep 500
  let new ← readDisk workdir line
  if Watch.isWorthReport o (← currentTime) old new then
    let (_, seen) ← runOnce workdir line
    follow workdir line o seen
  else follow workdir line o new

end CommandLine

/-- Runs the program. -/
def main (arguments : List String) : IO UInt32 := do
  let workdir := Text.ofString (← IO.currentDir).toString
  let line := arguments.map Text.ofString
  let (ending, d) ← CommandLine.runOnce workdir line
  match ending.watching with
  | some o => CommandLine.follow workdir line o d
  | none => pure ()
  return ending.code.toUInt32
