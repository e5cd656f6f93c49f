import ClassAtlas.Text.Basic

namespace ClassAtlas.Path

/-- The path starts at the root of the disk. -/
def isAbsolute : Text → Bool
  | 47 :: _ => true
  | _ => false

/-- The segment that stays where it is. -/
def here : Text := "."

/-- The segment that goes up to the parent. -/
def up : Text := ".."

/-- The nonempty segments of a path. -/
def segments (p : Text) : List Text := (p.split Text.slash).filter (!·.isEmpty)

/-- Adds a segment to cleaned segments, which are listed from the last to the first. A segment
that goes up cancels the one before it, and above the root of the disk there is nothing. -/
def push (rooted : Bool) (stack : List Text) (segment : Text) : List Text :=
  if segment == here then stack
  else if segment == up then
    match stack with
    | [] => if rooted then [] else [up]
    | last :: lower => if last == up then up :: stack else lower
  else segment :: stack

/-- The segments of a path after cleaning. -/
def cleanSegments (p : Text) : List Text :=
  ((segments p).foldl (push (isAbsolute p)) []).reverse

/-- Writes down cleaned segments. -/
def ofSegments (rooted : Bool) (parts : List Text) : Text :=
  if rooted then Text.slash :: Text.join [Text.slash] parts
  else if parts.isEmpty then here
  else Text.join [Text.slash] parts

/-- The shortest path that is lexically the same. -/
def clean (p : Text) : Text := ofSegments (isAbsolute p) (cleanSegments p)

/-- Puts paths behind one another and cleans the result; empty paths do not count. -/
def join (parts : List Text) : Text :=
  match parts.filter (!·.isEmpty) with
  | [] => []
  | given => clean (Text.join [Text.slash] given)

/-- Everything before the last segment, cleaned. -/
def parent (p : Text) : Text :=
  match p.cutAtLast? Text.slash with
  | none => here
  | some (head, _) => clean (head ++ [Text.slash])

/-- The last segment of a path. -/
def base (p : Text) : Text :=
  if p.isEmpty then here
  else match (segments p).getLast? with
    | none => [Text.slash]
    | some last => last

/-- The part of the last segment from its last dot on. -/
def extension (p : Text) : Text :=
  let last := (p.split Text.slash).getLast?.getD []
  match last.cutAtLast? Text.dot with
  | none => []
  | some (_, tail) => Text.dot :: tail

/-- Drops the segments that two lists have in common at the start. -/
def dropCommon : List Text → List Text → List Text × List Text
  | a :: as, b :: bs => if a == b then dropCommon as bs else (a :: as, b :: bs)
  | as, bs => (as, bs)

/-- The path that leads from `root` to `target`. There is none between an absolute and a relative
path, nor when `root` leaves through an unknown parent where `target` does not. -/
def relative? (root target : Text) : Option Text :=
  let source := clean root
  let goal := clean target
  if source == goal then some here
  else if isAbsolute source != isAbsolute goal then none
  else
    let down := if isAbsolute goal then segments goal else goal.split Text.slash
    let start := if source == here then [] else segments source
    match dropCommon start down with
    | (first :: more, next :: rest) =>
      if first == up then none
      else some (Text.join [Text.slash] ((first :: more).map (fun _ => up) ++ next :: rest))
    | (above, below) => some (Text.join [Text.slash] (above.map (fun _ => up) ++ below))

/-- The path as seen from a working directory. -/
def absolute (workdir p : Text) : Text :=
  if isAbsolute p then clean p else join [workdir, p]

end ClassAtlas.Path
