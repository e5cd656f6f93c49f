import ClassAtlas.Impact.Patch
import ClassAtlas.Json.Basic

namespace ClassAtlas

/-- What happened to a file. -/
inductive FileStatus where
  | added
  | deleted
  | modified
  | renamed
  | other (label : Text)
  deriving DecidableEq, Repr

namespace FileStatus

/-- The name of a status. -/
def label : FileStatus → Text
  | .added => "added"
  | .deleted => "deleted"
  | .modified => "modified"
  | .renamed => "renamed"
  | .other t => t

/-- The status of a name. -/
def ofLabel (t : Text) : FileStatus :=
  if t == "added" then .added
  else if t == "deleted" then .deleted
  else if t == "modified" then .modified
  else if t == "renamed" then .renamed
  else .other t

/-- The letter that stands for a status. -/
def mark : FileStatus → Text
  | .added => "A"
  | .deleted => "D"
  | .modified => "M"
  | .renamed => "R"
  | .other _ => []

end FileStatus

/-- A changed file, with the class and the module that it belongs to. -/
structure ChangedFile where
  path : Text
  oldPath : Text
  status : FileStatus
  linesAdded : Int
  linesRemoved : Int
  className : Text
  module : Text
  isSource : Bool
  deriving DecidableEq, Repr

namespace ChangedFile

/-- A file of which only the path and the status are known. -/
def plain (path oldPath : Text) (status : FileStatus) : ChangedFile :=
  ⟨path, oldPath, status, 0, 0, [], [], false⟩

/-- A name of a patch as a path: without the letter of the side it is on, and clean. -/
def cleanName (name : Text) : Text :=
  if name == Patch.nowhere then [] else Path.clean (Text.dropLead (Text.dropLead name "a/") "b/")

/-- The number of lines in the hunks of a file that start with a byte. -/
def countLines (hunks : List Text) (mark : UInt8) : Nat :=
  (hunks.flatMap fun body => body.lines.filter fun line => line.head? == some mark).length

/-- The change that a file of a patch describes. -/
def ofPatch (f : FilePatch) : ChangedFile :=
  let old := cleanName f.before
  let new := cleanName f.after
  let file :=
    if f.before == Patch.nowhere then plain new [] .added
    else if f.after == Patch.nowhere then plain old [] .deleted
    else if old != new then plain new old .renamed
    else plain new [] .modified
  { file with linesAdded := countLines f.hunks 43, linesRemoved := countLines f.hunks 45 }

/-- The changed files of a patch, or nothing if the patch is not well-formed. -/
def ofPatchText? (t : Text) : Option (List ChangedFile) := (Patch.files? t).map (·.map ofPatch)

/-- The file as JSON. -/
def toJson (f : ChangedFile) : Json :=
  .ofGroups [[("path", .str f.path)], Json.nonempty "orig_path" f.oldPath,
    [("status", .str f.status.label), ("lines_added", .int f.linesAdded),
      ("lines_removed", .int f.linesRemoved)],
    Json.nonempty "class" f.className,
    [("module", .str f.module), ("source", .bool f.isSource)]]

end ChangedFile

end ClassAtlas
