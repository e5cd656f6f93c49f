import ClassAtlas.Collection.SortedMap
import ClassAtlas.Source.Scan
import ClassAtlas.Source.Word

namespace ClassAtlas

namespace Comment

/-- Where the reader of a source text is. -/
inductive Place where
  | code
  | literal (close : UInt8)
  | line
  | block
  deriving DecidableEq, Repr

/-- Removes comments behind what is already kept, which is held in reverse. -/
def stripGo : Place → Text → Text → Text
  | .block, kept, [] => (32 :: kept).reverse
  | _, kept, [] => kept.reverse
  | .code, kept, c :: rest =>
    if c == 47 then
      match rest with
      | [] => (c :: kept).reverse
      | d :: rest' =>
        if d == 47 then stripGo .line kept rest'
        else if d == 42 then stripGo .block kept rest'
        else stripGo .code (c :: kept) (d :: rest')
    else if c == 34 || c == 39 then stripGo (.literal c) (c :: kept) rest
    else stripGo .code (c :: kept) rest
  | .literal close, kept, c :: rest =>
    if c == 92 then
      match rest with
      | d :: rest' => stripGo (.literal close) (d :: c :: kept) rest'
      | [] => (c :: kept).reverse
    else if c == close || c == 10 then stripGo .code (c :: kept) rest
    else stripGo (.literal close) (c :: kept) rest
  | .line, kept, c :: rest =>
    if c == 10 then stripGo .code (c :: kept) rest else stripGo .line kept rest
  | .block, kept, c :: rest =>
    if c == 42 then
      match rest with
      | [] => (32 :: kept).reverse
      | d :: rest' =>
        if d == 47 then stripGo .code (32 :: kept) rest' else stripGo .block kept (d :: rest')
    else if c == 10 then stripGo .block (c :: kept) rest
    else stripGo .block kept rest

/-- At the end of a text only a block comment adds to what is kept. It has not ended and leaves its space. -/
theorem stripGo_nil (place : Place) (kept : Text) :
    stripGo place kept [] = if place = .block then (32 :: kept).reverse else kept.reverse := by
  cases place <;> simp [stripGo]

/-- The text without its comments. Newlines stay, a block comment leaves a space, and quotes
protect what looks like a comment inside a literal. -/
def strip (t : Text) : Text := stripGo .code [] t

end Comment

/-- The string constants that a file declares, by name. -/
abbrev Declarations := SortedMap Text Text

namespace Declarations

/-- The rest of a string literal up to its closing quote, with escapes as written. -/
def literal? : Text → Option (Text × Text)
  | [] => none
  | c :: rest =>
    if c == 34 then some ([], rest)
    else if c == 92 then
      match rest with
      | [] => none
      | d :: rest' =>
        if d == 10 then none
        else (literal? rest').map fun (body, following) => (c :: d :: body, following)
    else (literal? rest).map fun (body, following) => (c :: body, following)

/-- A first byte of a name. -/
def isNameStart (b : UInt8) : Bool := Text.isLetter b || b == 95

/-- Steps over type arguments, if there are any. -/
def typeArguments? : Text → Option Text
  | 60 :: inner => Scan.byte? 62 (inner.dropWhile fun b => b != 62 && b != 59)
  | t => some t

/-- Steps over pairs of square brackets. -/
def arrayMarks : Text → Text
  | 91 :: 93 :: rest => arrayMarks rest
  | t => t

/-- A name that starts with a letter or an underscore. -/
def name? (t : Text) : Option (Text × Text) :=
  match t with
  | [] => none
  | c :: _ => if isNameStart c then Scan.run? Text.isWord t else none

/-- A declaration at the start of a text that is at the edge of a word. -/
def declarationAt? (previous : Option UInt8) (t : Text) : Option ((Text × Text) × Nat) := do
  let start ← t.head?
  if !isNameStart start || Word.inWord previous then none
  else
    let afterType ← typeArguments? (t.dropWhile fun b => Text.isWord b || b == Text.dot)
    let (name, afterName) ← name? (← Scan.gaps? (arrayMarks afterType))
    let afterEquals ← Scan.byte? 61 (Scan.gaps afterName)
    let afterQuote ← Scan.byte? 34 (Scan.gaps afterEquals)
    let (value, afterValue) ← literal? afterQuote
    let rest ← Scan.byte? 59 (Scan.gaps afterValue)
    return ((name, value), t.length - rest.length)

/-- Adds a declaration unless its name is already declared. -/
def declare (found : Declarations) (name value : Text) : Declarations :=
  if found.contains name then found else found.insert name value

/-- The string constants of a source text. -/
def ofText (t : Text) : Declarations :=
  (Scan.all declarationAt? (Comment.strip t)).foldl (fun found d => found.declare d.1 d.2)
    SortedMap.empty

end Declarations

end ClassAtlas
