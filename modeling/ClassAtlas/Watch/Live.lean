import ClassAtlas.Disk.Basic
import ClassAtlas.Watch.Change

namespace ClassAtlas

/-- Why a watch does not start. -/
inductive WatchError where
  | root (path : Text) (fault : DiskFault)
  | denied (path : Text)
  | alreadyStarted
  deriving DecidableEq, Repr

/-- The wording of a watch that does not start. -/
def WatchError.message : WatchError → Text
  | .root path fault => "watch " ++ path ++ ": " ++ (DiskError.mk "lstat" path fault).message
  | .denied path => "watch " ++ path ++ ": " ++ DiskFault.denied.message
  | .alreadyStarted => "watcher already started"

/-- What to watch. -/
structure WatchOptions where
  root : Text
  patterns : List Text
  extension : Text

/-- A change that is made to a tree. -/
inductive TreeEdit where
  | write (path content : Text)
  | directory (path : Text)
  | link (path target : Text)
  | remove (path : Text)
  | rename (old new : Text)
  deriving DecidableEq, Repr

namespace Watch

/-- The directories at and below the root that are watched, as seen from the root at the place `top`. -/
def watched (o : WatchOptions) (d : Disk) (top : List Text) : List (List Text) :=
  if d.node? top != some .directory then []
  else
    let isLeft (e : Disk.Entry) : Bool := isIgnored o.root o.patterns (Path.join (o.root :: e.1))
    let entries := Disk.prune isLeft none (d.below top)
    [] :: (entries.filter fun e => e.2 == .directory && !isLeft e).map Prod.fst

/-- The directories below the root that are watched, by their paths. -/
def directories (o : WatchOptions) (d : Disk) : List Text :=
  match d.resolve false o.root with
  | .error _ => []
  | .ok top => (watched o d top).map fun rel => if rel.isEmpty then o.root else Path.join (o.root :: rel)

/-- The watch can start: there is something at its root, and every directory to watch may be read. -/
def start (o : WatchOptions) (d : Disk) : Except WatchError Unit :=
  match d.resolve false o.root with
  | .error fault => .error (.root o.root fault)
  | .ok top =>
    if (d.node? top).isNone then .error (.root o.root .missing)
    else if (watched o d top).all fun rel => d.isReadable (top ++ rel) then .ok ()
    else .error (.denied o.root)

/-- Starts a watch that was started before. -/
def startAgain (o : WatchOptions) (d : Disk) : Except WatchError Unit := do
  start o d
  throw .alreadyStarted

/-- Everything at and below a path, by path. -/
def subtree (d : Disk) (path : Text) : List Text :=
  match d.resolve false path with
  | .error _ => []
  | .ok top => path :: (d.below top).map fun e => Path.join (path :: e.1)

/-- The changes that an edit makes at a point in time. -/
def changesOf (now : Int) (d : Disk) : TreeEdit → List FileChange
  | .write path _ => [⟨path, if (d.nodeAt false path).toOption.isSome then .write else .create, now⟩]
  | .directory path => if (d.nodeAt false path).toOption.isSome then [] else [⟨path, .create, now⟩]
  | .link path _ => [⟨path, .create, now⟩]
  | .remove path => (subtree d path).reverse.map fun p => ⟨p, .remove, now⟩
  | .rename old new => [⟨old, .rename, now⟩, ⟨new, .create, now⟩]

/-- Puts an edit into effect. -/
def apply (d : Disk) : TreeEdit → Disk
  | .write path content => d.writeFile path content
  | .directory path => d.addDirectories (d.placeForWriting path)
  | .link path target => d.put (d.locate path) (.link target)
  | .remove path => d.remove path
  | .rename old new => d.rename old new

/-- The changes in watched directories that are not ignored. -/
def noticed (o : WatchOptions) (watched : List Text) (changes : List FileChange) : List FileChange :=
  changes.filter fun c => watched.contains (Path.parent c.path) && !isIgnored o.root o.patterns c.path

/-- Makes edits one after another, each at a later time: the changes that they make, and the disk after
them. -/
def makeEdits (now : Int) : List TreeEdit → Disk → List FileChange × Disk
  | [], d => ([], d)
  | e :: rest, d =>
    let (more, d') := makeEdits (now + 1) rest (apply d e)
    (changesOf now d e ++ more, d')

/-- The path of a place. -/
def pathOf (place : List Text) : Text := Path.ofSegments true place

/-- The changes that lead from one disk to another, noticed at a point in time. -/
def between (now : Int) (old new : Disk) : List FileChange :=
  let gone := old.nodes.toList.filter fun (place, _) => !new.nodes.contains place
  let made := new.nodes.toList.filterMap fun (place, n) =>
    match old.nodes.find? place with
    | none => some ⟨pathOf place, .create, now⟩
    | some before => if before == n then none else some ⟨pathOf place, .write, now⟩
  gone.map (fun (place, _) => ⟨pathOf place, .remove, now⟩) ++ made

/-- The change of a disk is one to hand on. -/
def isWorthReport (o : WatchOptions) (now : Int) (old new : Disk) : Bool :=
  let watched := directories o old ++ directories o new
  !(relevant o.extension (dedupe (noticed o watched (between now old new)))).isEmpty

/-- The paths that a batch of edits hands on, sorted, and the disk after them. -/
def batch (o : WatchOptions) (now : Int) (d : Disk) (edits : List TreeEdit) : List Text × Disk :=
  let (changes, d') := makeEdits now edits d
  let found := relevant o.extension (dedupe (noticed o (directories o d) changes))
  (sortDistinct (found.map (·.path)), d')

/-- The paths handed on by each of several batches. -/
def batches (o : WatchOptions) (now : Int) : List (List TreeEdit) → Disk → List (List Text) × Disk
  | [], d => ([], d)
  | edits :: rest, d =>
    let (paths, d) := batch o now d edits
    let (more, d) := batches o (now + edits.length) rest d
    (paths :: more, d)

end Watch

end ClassAtlas
