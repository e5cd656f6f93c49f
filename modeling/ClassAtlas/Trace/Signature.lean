import ClassAtlas.Source.Scan
import ClassAtlas.Text.Blank

namespace ClassAtlas.Signature

/-- A type without arguments, or with arguments up to the first closing bracket. -/
def type? (t : Text) : Option Text := do
  let (_, rest) ← Scan.run? Text.isWord t
  match rest with
  | 60 :: inner =>
    let (_, close) ← Scan.run? (· != 62) inner
    Scan.byte? 62 close
  | _ => some rest

/-- A name in front of an opening parenthesis. -/
def name? (t : Text) : Option Text := do
  let (name, rest) ← Scan.run? Text.isWord t
  let _ ← Scan.byte? 40 (Scan.gaps rest)
  return name

/-- A type, gaps, and the name of the method. -/
def typeAndName? (t : Text) : Option Text := do
  let afterType ← type? t
  name? (← Scan.gaps? afterType)

/-- The keywords that open a signature with visibility. -/
def visibilities : List Text := ["public", "private", "protected"]

/-- A signature with visibility at the start of a text. The word `static` is a modifier if a type
and a name follow it, and may otherwise be the type. -/
def visibleAt? (t : Text) : Option Text := do
  let afterKeyword ← visibilities.findSome? t.after?
  let rest ← Scan.gaps? afterKeyword
  match (do typeAndName? (← Scan.gaps? (← rest.after? "static"))) with
  | some name => some name
  | none => typeAndName? rest

/-- First words of statements that look like signatures. -/
def statementWords : List Text := ["return", "new", "throw", "else", "case"]

/-- Names that stand before a parenthesis without being methods. -/
def controlWords : List Text := ["if", "while", "for", "switch", "catch"]

/-- A signature without visibility: two words and an opening parenthesis. -/
def plain? (t : Text) : Option Text := do
  let (first, rest) ← Scan.run? Text.isWord (Scan.gaps t)
  let name ← name? (← Scan.gaps? rest)
  if statementWords.contains first || controlWords.contains name then none else some name

/-- The method that a line declares. -/
def ofLine? (line : Text) : Option Text :=
  let t := Blank.trim line
  match Scan.first? visibleAt? t with
  | some name => some name
  | none => plain? t

/-- The name for a line outside every method. -/
def unknown : Text := "unknown"

/-- The method around the last of the given lines. -/
def enclosing (lines : List Text) : Text := (lines.reverse.findSome? ofLine?).getD unknown

/-- The method around the line with the given index; an index behind the last line stands for it. -/
def methodAt (lines : List Text) (index : Int) : Text :=
  if index < 0 then unknown else enclosing (lines.take (index.toNat + 1))

end ClassAtlas.Signature
