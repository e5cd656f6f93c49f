import ClassAtlas.Text.Decimal
import ClassAtlas.Text.Utf8

namespace ClassAtlas

/-- A JSON value. -/
inductive Json where
  | null
  | bool (value : Bool)
  | num (literal : Text)
  | str (value : Text)
  | arr (items : List Json)
  | obj (members : List (Text × Json))
  deriving Inhabited

namespace Json

/-- A whole number. -/
def int (n : Int) : Json := .num (Decimal.ofInt n)

/-- A natural number. -/
def nat (n : Nat) : Json := .num (Decimal.ofNat n)

/-- A list of texts. -/
def texts (ts : List Text) : Json := .arr (ts.map .str)

/-- A value, or null where there is none. -/
def optional {α : Type} (f : α → Json) : Option α → Json
  | none => .null
  | some a => f a

/-- A member that is left out when its text is empty. -/
def nonempty (name t : Text) : List (Text × Json) := if t.isEmpty then [] else [(name, .str t)]

/-- An object from groups of members. -/
def ofGroups (groups : List (List (Text × Json))) : Json := .obj groups.flatten

/-- A `\u` escape of a code unit. -/
def unitEscape (code : Nat) : Text := "\\u" ++ Decimal.hex 4 code

/-- A rune inside a string literal. Quotes, backslashes and control characters are escaped, and so
are the characters that have a meaning in HTML, the two Unicode line ends, and stray bytes. -/
def escapeRune : Rune → Text
  | .stray _ => unitEscape Utf8.replacement
  | .scalar c =>
    if c == 34 then "\\\""
    else if c == 92 then "\\\\"
    else if c == 8 then "\\b"
    else if c == 12 then "\\f"
    else if c == 10 then "\\n"
    else if c == 13 then "\\r"
    else if c == 9 then "\\t"
    else if c < 32 || c == 60 || c == 62 || c == 38 || c == 0x2028 || c == 0x2029 then unitEscape c
    else Utf8.encode c

/-- A string literal. -/
def quoted (t : Text) : Text := 34 :: (Utf8.runes t).flatMap escapeRune ++ [34]

mutual

/-- The text of a value without blanks. -/
def compact : Json → Text
  | .null => "null"
  | .bool b => if b then "true" else "false"
  | .num literal => literal
  | .str t => quoted t
  | .arr items => 91 :: compactItems items ++ [93]
  | .obj members => 123 :: compactMembers members ++ [125]

/-- The items of an array with commas between them. -/
def compactItems : List Json → Text
  | [] => []
  | [item] => compact item
  | item :: more => compact item ++ 44 :: compactItems more

/-- The members of an object with commas between them. -/
def compactMembers : List (Text × Json) → Text
  | [] => []
  | [(name, value)] => quoted name ++ 58 :: compact value
  | (name, value) :: more => quoted name ++ 58 :: compact value ++ 44 :: compactMembers more

end

/-- A new line at a depth of indentation, two spaces for each level. -/
def freshLine (depth : Nat) : Text := 10 :: List.replicate (2 * depth) 32

mutual

/-- The text of a value on several lines. -/
def indented (depth : Nat) : Json → Text
  | .null => "null"
  | .bool b => if b then "true" else "false"
  | .num literal => literal
  | .str t => quoted t
  | .arr [] => "[]"
  | .arr items => 91 :: indentedItems (depth + 1) items ++ freshLine depth ++ [93]
  | .obj [] => [123, 125]
  | .obj members => 123 :: indentedMembers (depth + 1) members ++ freshLine depth ++ [125]

/-- The items of an array, each on a new line. -/
def indentedItems (depth : Nat) : List Json → Text
  | [] => []
  | [item] => freshLine depth ++ indented depth item
  | item :: more => freshLine depth ++ indented depth item ++ 44 :: indentedItems depth more

/-- The members of an object, each on a new line. -/
def indentedMembers (depth : Nat) : List (Text × Json) → Text
  | [] => []
  | [(name, value)] => freshLine depth ++ quoted name ++ ": " ++ indented depth value
  | (name, value) :: more =>
    freshLine depth ++ quoted name ++ ": " ++ indented depth value ++
      44 :: indentedMembers depth more

end

/-- A whole document: the value on several lines and a final newline. -/
def document (j : Json) : Text := indented 0 j ++ [10]

end Json

end ClassAtlas
