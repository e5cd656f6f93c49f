import ClassAtlas.Source.Scan
import ClassAtlas.Text.Blank

namespace ClassAtlas.Source

/-- The name that a line declares as the package, if the line is a package declaration. It ends
at the first semicolon or at the end of the line. -/
def packageOfLine? (line : Text) : Option Text :=
  (Text.after? (Blank.trim line) "package ").map fun rest => Blank.trim (rest.takeWhile (· != 59))

/-- The package of a source text: the first line that declares one decides. -/
def package (t : Text) : Text := (t.lines.findSome? packageOfLine?).getD []

/-- A byte of an imported name. -/
def isNameByte (b : UInt8) : Bool := Text.isWord b || b == Text.dot

/-- An import statement at the start of a text: the keyword, gaps, a name and a semicolon. -/
def importAt? (_ : Option UInt8) (t : Text) : Option (Text × Nat) := do
  let afterKeyword ← t.after? "import"
  let afterGap ← Scan.gaps? afterKeyword
  let (name, afterName) ← Scan.run? isNameByte afterGap
  let rest ← Scan.byte? 59 afterName
  return (name, t.length - rest.length)

/-- The imported names of a source text, in source order. -/
def imports (t : Text) : List Text := Scan.all importAt? t

end ClassAtlas.Source
