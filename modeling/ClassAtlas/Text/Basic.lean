namespace ClassAtlas

/-- The value that has a number, counted from zero; all other numbers have the value `other`. -/
def numbered {α : Type} (values : List α) (other : α) (number : Int) : α :=
  if number < 0 then other else (values[number.toNat]?).getD other

/-- A text is a list of bytes. -/
abbrev Text := List UInt8

namespace Text

/-- The UTF-8 bytes of a string. -/
def ofString (s : String) : Text := s.toUTF8.data.toList

instance : Coe String Text := ⟨ofString⟩

/-- The newline byte. -/
def newline : UInt8 := 10

/-- The tab byte. -/
def tab : UInt8 := 9

/-- The carriage return byte. -/
def carriageReturn : UInt8 := 13

/-- The space byte. -/
def space : UInt8 := 32

/-- The slash byte, which divides the segments of a path. -/
def slash : UInt8 := 47

/-- The dot byte, which divides the parts of a class name. -/
def dot : UInt8 := 46

/-- The double quote byte. -/
def quote : UInt8 := 34

/-- The backslash byte. -/
def backslash : UInt8 := 92

/-- `t` begins with `lead`. -/
def startsWith (t lead : Text) : Bool := lead.isPrefixOf t

/-- `t` ends with `tail`. -/
def endsWith (t tail : Text) : Bool := tail.isSuffixOf t

/-- What follows `lead` at the start of `t`, if `t` begins with it. -/
def after? (t : Text) : Text → Option Text
  | [] => some t
  | b :: lead =>
    match t with
    | [] => none
    | c :: rest => if c == b then after? rest lead else none

/-- Removes `lead` once from the start of `t`; a text that does not begin with it stays. -/
def dropLead (t lead : Text) : Text :=
  if t.startsWith lead then t.drop lead.length else t

/-- Removes `tail` once from the end of `t`; a text that does not end with it stays. -/
def dropTail (t tail : Text) : Text :=
  if t.endsWith tail then t.take (t.length - tail.length) else t

/-- `part` occurs in `t` at some position. -/
def includes : Text → Text → Bool
  | [], part => part.isEmpty
  | b :: rest, part => part.isPrefixOf (b :: rest) || includes rest part

/-- Splits `t` around the first occurrence of `part`. -/
def cutGo (part : Text) : Text → Text → Option (Text × Text)
  | passed, [] => if part.isEmpty then some (passed.reverse, []) else none
  | passed, b :: rest =>
    match after? (b :: rest) part with
    | some following => some (passed.reverse, following)
    | none => cutGo part (b :: passed) rest

/-- What stands before and after the first occurrence of `part`. -/
def cut? (t part : Text) : Option (Text × Text) := cutGo part [] t

/-- What stands before and after the first byte `b`. -/
def cutAt? (t : Text) (b : UInt8) : Option (Text × Text) :=
  match t.span (· != b) with
  | (_, []) => none
  | (head, _ :: rest) => some (head, rest)

/-- What stands before and after the last byte `b`. -/
def cutAtLast? (t : Text) (b : UInt8) : Option (Text × Text) :=
  match t.reverse.span (· != b) with
  | (_, []) => none
  | (tail, _ :: head) => some (head.reverse, tail.reverse)

/-- The pieces of `t` between the bytes `sep`; a text without one is a single piece. -/
def split (t : Text) (sep : UInt8) : List Text :=
  t.foldr (fun b pieces =>
    if b == sep then [] :: pieces
    else match pieces with
      | [] => [[b]]
      | piece :: more => (b :: piece) :: more) [[]]

/-- The lines of `t`, without their newlines. -/
def lines (t : Text) : List Text := t.split newline

/-- Joins texts with `sep` between neighbours. -/
def join (sep : Text) (pieces : List Text) : Text := (pieces.intersperse sep).flatten

/-- Replaces every occurrence of the nonempty text `old`, found from the left, by `new`. -/
def replaceGo (old new : Text) : Nat → Text → Text → Text
  | 0, done, t => done.reverse ++ t
  | _ + 1, done, [] => done.reverse
  | fuel + 1, done, b :: rest =>
    match after? (b :: rest) old with
    | some following => replaceGo old new fuel (new.reverse ++ done) following
    | none => replaceGo old new fuel (b :: done) rest

/-- Replaces every occurrence of the nonempty text `old` by `new`. -/
def replace (t old new : Text) : Text := replaceGo old new t.length [] t

/-- A line feed that follows a carriage return swallows it. -/
def unixLines (t : Text) : Text := t.replace [carriageReturn, newline] [newline]

/-- `n` copies of `t` in a row. -/
def times (t : Text) (n : Nat) : Text := (List.replicate n t).flatten

/-- Fills up `t` on the right with spaces to `width`, where `size` is its own width. -/
def padRight (t : Text) (size width : Nat) : Text := t ++ List.replicate (width - size) space

/-- A decimal digit. -/
def isDigit (b : UInt8) : Bool := 48 ≤ b && b ≤ 57

/-- An upper-case letter of ASCII. -/
def isUpper (b : UInt8) : Bool := 65 ≤ b && b ≤ 90

/-- A lower-case letter of ASCII. -/
def isLower (b : UInt8) : Bool := 97 ≤ b && b ≤ 122

/-- A letter of ASCII. -/
def isLetter (b : UInt8) : Bool := isUpper b || isLower b

/-- A word byte: a letter or digit of ASCII, or an underscore. -/
def isWord (b : UInt8) : Bool := isLetter b || isDigit b || b == 95

/-- The blanks that separate the tokens of source code: tab, newline, form feed, carriage
return and space, but not the vertical tab. -/
def isGap (b : UInt8) : Bool := b == 32 || b == 9 || b == 10 || b == 12 || b == 13

/-- An upper-case letter of ASCII becomes its lower-case letter; other bytes stay. -/
def lowerByte (b : UInt8) : UInt8 := if isUpper b then b + 32 else b

/-- Maps the ASCII letters of a text to lower case. -/
def lowerAscii (t : Text) : Text := t.map lowerByte

end Text

end ClassAtlas
