import ClassAtlas.Path

namespace ClassAtlas

namespace ClassName

/-- The part of a class name behind its last dot. -/
def simple (name : Text) : Text :=
  match name.cutAtLast? Text.dot with
  | none => name
  | some (_, tail) => tail

/-- The part of a class name before its last dot; empty if there is no dot. -/
def package (name : Text) : Text :=
  match name.cutAtLast? Text.dot with
  | none => []
  | some (head, _) => head

end ClassName

namespace Module

/-- The module of a path outside the source tree. -/
def unknown : Text := "unknown"

/-- The first segment of `path` as seen from `root`. -/
def ofPath (root path : Text) : Text :=
  match Path.relative? root path with
  | none => unknown
  | some rel =>
    if rel == Path.here || rel.isEmpty || rel == Path.up || rel.startsWith "../" then unknown
    else
      let first := rel.takeWhile (· != Text.slash)
      if first.isEmpty then unknown else first

end Module

end ClassAtlas
