import ClassAtlas.Text.Utf8

namespace ClassAtlas

/-- A token of YAML. -/
inductive YamlToken where
  | streamEnd
  | version (major minor : Nat)
  | tagHandle (handle lead : Text)
  | documentStart
  | documentEnd
  | blockSequenceStart
  | blockMappingStart
  | blockEnd
  | flowSequenceStart
  | flowSequenceEnd
  | flowMappingStart
  | flowMappingEnd
  | blockEntry
  | flowEntry
  | key
  | value
  | alias (name : Text)
  | anchor (name : Text)
  | tag (handle rest : Text)
  | scalar (content : Text) (plain : Bool)
  deriving DecidableEq, Repr

namespace Yaml

/-- A character that may stand in a document. -/
def isAllowed (c : Nat) : Bool :=
  c == 9 || c == 10 || c == 13 || (32 ≤ c && c ≤ 126) || c == 0x85 || (0xA0 ≤ c && c ≤ 0xD7FF) ||
    (0xE000 ≤ c && c ≤ 0xFFFD) || (0x10000 ≤ c && c ≤ 0x10FFFF)

/-- The character that may mark the start of a line. -/
def byteOrderMark : Nat := 0xFEFF

/-- The character of a rune; a stray byte is none. -/
def character? : Rune → Option Nat
  | .scalar c => if isAllowed c then some c else none
  | .stray _ => none

/-- The characters of a text; nothing if it is not well-formed or holds control characters. -/
def characters? (t : Text) : Option (List Nat) := (Utf8.runes t).mapM character?

/-- A line end. -/
def isBreak (c : Nat) : Bool := c == 10 || c == 13 || c == 0x85 || c == 0x2028 || c == 0x2029

/-- A space or a tab. -/
def isBlank (c : Nat) : Bool := c == 32 || c == 9

/-- A blank or a line end. -/
def isGap (c : Nat) : Bool := isBlank c || isBreak c

/-- A letter, a digit, a dash or an underscore. -/
def isNameChar (c : Nat) : Bool :=
  (48 ≤ c && c ≤ 57) || (65 ≤ c && c ≤ 90) || (97 ≤ c && c ≤ 122) || c == 95 || c == 45

/-- Characters as a text. -/
def textOf (cs : List Nat) : Text := cs.flatMap Utf8.encode

/-- A place in a document: the characters from there on, and where it is. -/
structure Cursor where
  rest : List Nat
  line : Nat
  column : Nat
  index : Nat
  deriving DecidableEq, Repr

namespace Cursor

/-- The start of a document. -/
def start (cs : List Nat) : Cursor := ⟨cs, 0, 0, 0⟩

/-- The next character. -/
def peek (c : Cursor) : Option Nat := c.rest.head?

/-- The next character is this one. -/
def sees (c : Cursor) (x : Nat) : Bool := c.peek == some x

/-- There is nothing more. -/
def atEnd (c : Cursor) : Bool := c.rest.isEmpty

/-- `n` characters ahead there is a gap or the end. -/
def gapAt (c : Cursor) (n : Nat) : Bool := ((c.rest[n]?).map isGap).getD true

/-- The next character is a line end. -/
def atBreak (c : Cursor) : Bool := (c.peek.map isBreak).getD false

/-- The next character is a blank. -/
def atBlank (c : Cursor) : Bool := (c.peek.map isBlank).getD false

/-- Goes over `n` characters of one line. -/
def skip (c : Cursor) (n : Nat) : Cursor := ⟨c.rest.drop n, c.line, c.column + n, c.index + n⟩

/-- Goes over the characters of one line that pass a test. -/
def skipWhile (c : Cursor) (p : Nat → Bool) : Cursor := c.skip (c.rest.takeWhile p).length

/-- Goes over a line end. -/
def skipBreak (c : Cursor) : Cursor :=
  match c.rest with
  | 13 :: 10 :: rest => ⟨rest, c.line + 1, 0, c.index + 2⟩
  | _ :: rest => ⟨rest, c.line + 1, 0, c.index + 1⟩
  | [] => c

/-- What a line end stands for: a newline, unless it is one of the separators of Unicode. -/
def breakText (c : Cursor) : Text :=
  match c.rest with
  | x :: _ => if x == 0x2028 || x == 0x2029 then Utf8.encode x else [10]
  | [] => []

/-- Goes over the rest of a line. -/
def skipLine (c : Cursor) : Cursor := c.skipWhile (!isBreak ·)

/-- The next characters are these. -/
def startsWith (c : Cursor) (cs : List Nat) : Bool := cs.isPrefixOf c.rest

/-- A line of three dashes begins here. -/
def atDocumentStart (c : Cursor) : Bool := c.column == 0 && c.startsWith [45, 45, 45] && c.gapAt 3

/-- A line of three dots begins here. -/
def atDocumentEnd (c : Cursor) : Bool := c.column == 0 && c.startsWith [46, 46, 46] && c.gapAt 3

/-- One document ends or another begins here. -/
def atMarker (c : Cursor) : Bool := c.atDocumentStart || c.atDocumentEnd

end Cursor

end Yaml

end ClassAtlas
