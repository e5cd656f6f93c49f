import ClassAtlas.Catalog.Scan

namespace ClassAtlas

/-- The roots that a service accepts; without allowed directories every place is accepted. -/
structure RootPolicy where
  allowed : List Text := []
  requireAbsolute : Bool := false
  deriving DecidableEq, Repr

/-- Why a root is refused. -/
inductive RootRefusal where
  | empty
  | traversal
  | relative
  | notAllowed
  deriving DecidableEq, Repr

/-- The wording of a refusal. -/
def RootRefusal.message : RootRefusal → Text
  | .empty => RootError.empty.message
  | .traversal => "path contains traversal sequences"
  | .relative => "project root must be absolute path"
  | .notAllowed => "project root is not allowed"

namespace RootPolicy

/-- A clean path is a directory or lies below it. -/
def isWithin (top path : Text) : Bool := path == top || path.startsWith (top ++ "/")

/-- The place of a clean path is accepted. -/
def admits (p : RootPolicy) (path : Text) : Bool :=
  p.allowed.isEmpty || p.allowed.any fun top => isWithin (Path.clean top) path

/-- The absolute path of a root, if it is accepted. -/
def resolve (p : RootPolicy) (workdir root : Text) : Except RootRefusal Text :=
  if (Blank.trim root).isEmpty then .error .empty
  else if (root.split Text.slash).contains Path.up then .error .traversal
  else if p.requireAbsolute && !Path.isAbsolute root then .error .relative
  else
    let path := Path.absolute workdir root
    if p.admits path then .ok path else .error .notAllowed

end RootPolicy

end ClassAtlas
