import ClassAtlas.Collection.SortedMap
import ClassAtlas.Path

namespace ClassAtlas

/-- What stands at a path. -/
inductive Node where
  | file (content : Text)
  | directory
  | link (target : Text)
  deriving DecidableEq, Repr

namespace Node

/-- The node is a directory itself, not a link to one. -/
def isDirectory : Node → Bool
  | .directory => true
  | _ => false

/-- The size of a node as far as it counts: only files have contents. -/
def size : Node → Nat
  | .file content => content.length
  | _ => 0

end Node

/-- The nodes of a disk by their paths, the directory that relative paths start from, and the places
that may not be read. -/
structure Disk where
  nodes : SortedMap (List Text) Node
  workdir : Text
  /-- A file here keeps its content to itself, and a directory the list of its entries. Paths lead
  through such a directory all the same. -/
  unreadable : List (List Text)

/-- Why the disk refuses an operation. -/
inductive DiskFault where
  | missing
  | notDirectory
  | isDirectory
  | tooManyLinks
  | present
  | denied
  deriving DecidableEq, Repr

namespace DiskFault

/-- The wording of a fault. -/
def message : DiskFault → Text
  | .missing => "no such file or directory"
  | .notDirectory => "not a directory"
  | .isDirectory => "is a directory"
  | .tooManyLinks => "too many levels of symbolic links"
  | .present => "file exists"
  | .denied => "permission denied"

end DiskFault

/-- A refused operation: what was tried, at which path, and why it failed. -/
structure DiskError where
  operation : Text
  path : Text
  fault : DiskFault
  deriving DecidableEq, Repr

/-- The wording of a refused operation. -/
def DiskError.message (e : DiskError) : Text := e.operation ++ " " ++ e.path ++ ": " ++ e.fault.message

namespace Disk

/-- A disk with nothing on it. -/
def blank (workdir : Text) : Disk := ⟨SortedMap.empty, workdir, []⟩

/-- The node at a list of segments; at the top there is always a directory. -/
def node? (d : Disk) (spot : List Text) : Option Node :=
  if spot.isEmpty then some .directory else d.nodes.find? spot

/-- The segments of a path, seen from the working directory if it is relative. -/
def locate (d : Disk) (path : Text) : List Text :=
  if Path.isAbsolute path then Path.segments path else Path.segments d.workdir ++ Path.segments path

/-- Follows `todo` from the directory `spot`. A link at the end is followed only if `follow` says so;
what comes of following a link says `through`, by the place it is seen from and the segments to go. -/
def walk (d : Disk) (follow : Bool) (through : List Text → List Text → Except DiskFault (List Text)) :
    List Text → List Text → Except DiskFault (List Text)
  | spot, [] => .ok spot
  | spot, segment :: rest =>
    match d.node? spot with
    | some .directory =>
      if segment == Path.here then walk d follow through spot rest
      else if segment == Path.up then walk d follow through spot.dropLast rest
      else
        match d.node? (spot ++ [segment]) with
        | none => .error .missing
        | some (.link target) =>
          if rest.isEmpty && !follow then .ok (spot ++ [segment])
          else through (if Path.isAbsolute target then [] else spot) (Path.segments target ++ rest)
        | some _ => walk d follow through (spot ++ [segment]) rest
    | _ => .error .notDirectory

/-- Follows a path from a directory, through at most `links` links. -/
def walkTo (d : Disk) (follow : Bool) : Nat → List Text → List Text → Except DiskFault (List Text)
  | 0 => d.walk follow fun _ _ => .error .tooManyLinks
  | links + 1 => d.walk follow (walkTo d follow links)

/-- The number of links that one path may lead through. -/
def maxLinks : Nat := 40

/-- The place that a path leads to. -/
def resolve (d : Disk) (follow : Bool) (path : Text) : Except DiskFault (List Text) :=
  if path.isEmpty then .error .missing else d.walkTo follow maxLinks [] (d.locate path)

/-- The node that a path leads to. -/
def nodeAt (d : Disk) (follow : Bool) (path : Text) : Except DiskFault Node := do
  let place ← d.resolve follow path
  match d.node? place with
  | none => .error .missing
  | some n => .ok n

/-- A place may be read. -/
def isReadable (d : Disk) (place : List Text) : Bool := !d.unreadable.contains place

/-- The node that a path leads to, opened for reading. -/
def openAt (d : Disk) (path : Text) : Except DiskFault Node := do
  let place ← d.resolve true path
  match d.node? place with
  | none => .error .missing
  | some n => if d.isReadable place then .ok n else .error .denied

/-- The contents of the file at a path. -/
def readFile (d : Disk) (path : Text) : Except DiskError Text :=
  match d.openAt path with
  | .error e => .error ⟨"open", path, e⟩
  | .ok (.file content) => .ok content
  | .ok _ => .error ⟨"read", path, .isDirectory⟩

/-- An entry below a directory, by its path from there. -/
abbrev Entry := List Text × Node

/-- Everything below a directory, in the order of a walk. -/
def below (d : Disk) (top : List Text) : List Entry :=
  d.nodes.toList.filterMap fun (place, n) =>
    if top.isPrefixOf place && place.length != top.length then some (place.drop top.length, n) else none

/-- The entries of a directory, by name; none if they may not be listed. -/
def entries (d : Disk) (top : List Text) : List (Text × Node) :=
  if d.isReadable top then
    (d.below top).filterMap fun
      | ([name], n) => some (name, n)
      | _ => none
  else []

/-- Leaves out what lies below an entry that is pruned; the entry itself stays. -/
def prune (pruned : Entry → Bool) : Option (List Text) → List Entry → List Entry
  | _, [] => []
  | hidden, e :: rest =>
    if (match hidden with | none => false | some top => top.isPrefixOf e.1) then
      prune pruned hidden rest
    else if pruned e then e :: prune pruned (some e.1) rest
    else e :: prune pruned none rest

/-- Every leading part of a list, from the shortest nonempty one to the list itself. -/
def leadingParts (place : List Text) : List (List Text) :=
  (List.range place.length).map fun n => place.take (n + 1)

/-- Puts a directory at a place that is free. -/
def addDirectory (d : Disk) (place : List Text) : Disk :=
  match d.node? place with
  | some _ => d
  | none => { d with nodes := d.nodes.insert place .directory }

/-- Makes a place and all directories above it. -/
def addDirectories (d : Disk) (place : List Text) : Disk := (leadingParts place).foldl addDirectory d

/-- Puts a node at a place, with the directories above it. -/
def put (d : Disk) (place : List Text) (n : Node) : Disk :=
  let d' := d.addDirectories place.dropLast
  { d' with nodes := d'.nodes.insert place n }

/-- The place where a file of this path is written: links are followed as far as they lead. -/
def placeForWriting (d : Disk) (path : Text) : List Text :=
  match d.resolve true path with
  | .ok place => place
  | .error _ =>
    let place := d.locate path
    match d.walkTo true maxLinks [] place.dropLast, place.getLast? with
    | .ok above, some name => above ++ [name]
    | _, _ => place

/-- Writes a file, with the directories above it. -/
def writeFile (d : Disk) (path content : Text) : Disk :=
  d.put (d.placeForWriting path) (.file content)

/-- Removes what stands at a path, and everything below it. -/
def remove (d : Disk) (path : Text) : Disk :=
  match d.resolve false path with
  | .error _ => d
  | .ok place =>
    { d with
      nodes := d.nodes.filter fun p _ => !place.isPrefixOf p
      unreadable := d.unreadable.filter fun p => !place.isPrefixOf p }

/-- Moves what stands at a path, with everything below it, to another path. -/
def rename (d : Disk) (old new : Text) : Disk :=
  match d.resolve false old with
  | .error _ => d
  | .ok source =>
    let target := d.placeForWriting new
    let moved := d.nodes.toList.filter fun (place, _) => source.isPrefixOf place
    let stays (place : List Text) : Bool := !source.isPrefixOf place && !target.isPrefixOf place
    let carried (place : List Text) : List Text := target ++ place.drop source.length
    let cleared : Disk :=
      { d with
        nodes := d.nodes.filter fun place _ => stays place
        unreadable := d.unreadable.filter stays ++ (d.unreadable.filter source.isPrefixOf).map carried }
    moved.foldl (fun d (place, n) => { d with nodes := d.nodes.insert (carried place) n })
      (cleared.addDirectories target.dropLast)

/-- Makes the directory at a path, whose parent is a directory. -/
def makeDirectory (d : Disk) (path : Text) : Except DiskError Disk :=
  let place := d.locate path
  match d.walkTo true maxLinks [] place.dropLast, place.getLast? with
  | .ok above, some name =>
    match d.node? above, d.node? (above ++ [name]) with
    | some .directory, none => .ok (d.addDirectory (above ++ [name]))
    | some .directory, some _ => .error ⟨"mkdir", path, .present⟩
    | _, _ => .error ⟨"mkdir", path, .notDirectory⟩
  | .error e, _ => .error ⟨"mkdir", path, e⟩
  | .ok _, none => .error ⟨"mkdir", path, .present⟩

/-- Makes sure that a path is a directory. What stands in the way is named by its own path. -/
def ensureGo (d : Disk) : Nat → Text → Except DiskError Disk
  | 0, _ => .ok d
  | fuel + 1, path =>
    match d.nodeAt true path with
    | .ok .directory => .ok d
    | .ok _ => .error ⟨"mkdir", path, .notDirectory⟩
    | .error _ =>
      match path.cutAtLast? Text.slash with
      | none => d.makeDirectory path
      | some ([], _) => d.makeDirectory path
      | some (above, _) => do (← d.ensureGo fuel above).makeDirectory path

/-- Makes sure that a path is a directory, with all directories above it. -/
def ensureDirectory (d : Disk) (path : Text) : Except DiskError Disk :=
  d.ensureGo (path.length + 1) (Path.clean path)

end Disk

end ClassAtlas
