import ClassAtlas.Path
import ClassAtlas.Text.Case
import ClassAtlas.Watch.Glob

namespace ClassAtlas

/-- What happened to a file. -/
inductive ChangeKind where
  | create
  | write
  | remove
  | rename
  | unknown
  deriving DecidableEq, Repr

namespace ChangeKind

/-- The name of a kind. -/
def label : ChangeKind → Text
  | .create => "create"
  | .write => "write"
  | .remove => "remove"
  | .rename => "rename"
  | .unknown => "unknown"

/-- The kind of a number. -/
def ofNumber : Int → ChangeKind := numbered [.create, .write, .remove, .rename] .unknown

end ChangeKind

/-- A change to a file, and when it was noticed. -/
structure FileChange where
  path : Text
  kind : ChangeKind
  time : Int
  deriving DecidableEq, Repr

namespace Watch

/-- The patterns of what is not watched, unless others are given. -/
def standardPatterns : List Text := [".git", ".idea", "build", "target", "*.swp", "*.tmp"]

/-- A path is not watched if its base name fits a pattern, or if a segment of it, as seen from the
root, is equal to one. -/
def isIgnored (root : Text) (patterns : List Text) (path : Text) : Bool :=
  let segments := ((Path.relative? root path).getD path).split Text.slash
  patterns.any fun p => Glob.matchesName p (Path.base path) || segments.contains p

/-- Puts a change in the place of an earlier one for its path, or at the end. -/
def record (c : FileChange) : List FileChange → List FileChange
  | [] => [c]
  | first :: rest => if first.path == c.path then c :: rest else first :: record c rest

/-- The last change for each path, in the order in which the paths first came. -/
def dedupe (changes : List FileChange) : List FileChange := changes.foldl (fun out c => record c out) []

/-- A change matters if it is to a source file, or takes away what may be a directory. -/
def isRelevant (extension : Text) (c : FileChange) : Bool :=
  let found := Path.extension c.path
  Case.equalFolded found extension || ((c.kind == .remove || c.kind == .rename) && found.isEmpty)

/-- The changes that matter. -/
def relevant (extension : Text) (changes : List FileChange) : List FileChange :=
  changes.filter (isRelevant extension)

end Watch

end ClassAtlas
