import ClassAtlas.Collection.SortedMap
import ClassAtlas.Text.Blank
import ClassAtlas.Text.Utf8

namespace ClassAtlas.DotEnv

/-- A blank within a line. -/
def isGap (b : UInt8) : Bool := b == 32 || b == 9 || (11 ≤ b && b ≤ 13)

/-- Removes blanks within a line from the front; the blanks U+0085 and U+00A0 count too. -/
def trimGap : Text → Text
  | [] => []
  | a :: rest =>
    if isGap a then trimGap rest
    else match rest with
      | b :: rest' => if Blank.isDouble a b then trimGap rest' else a :: b :: rest'
      | [] => [a]

/-- Removes blanks within a line from the end of a reversed text. -/
def trimGapBack : Text → Text
  | [] => []
  | a :: rest =>
    if isGap a then trimGapBack rest
    else match rest with
      | b :: rest' => if Blank.isDouble b a then trimGapBack rest' else a :: b :: rest'
      | [] => [a]

/-- Removes blanks within a line from both ends. -/
def trimBoth (t : Text) : Text := (trimGapBack (trimGap t).reverse).reverse

/-- The start of the next statement, behind blanks and comments. -/
def nextStatement : Nat → Text → Text
  | 0, _ => []
  | fuel + 1, t =>
    match Blank.trimStart t with
    | 35 :: rest => nextStatement fuel (rest.dropWhile (· != Text.newline))
    | rest => rest

/-- A byte that may stand in a name, each byte taken as the code point of its value. -/
def isNameByte (b : UInt8) : Bool :=
  Text.isLetter b || Text.isDigit b || b == 95 || b == 46 || isGap b || b == 0x85 || b == 0xA0 ||
    b == 0xAA || b == 0xB5 || b == 0xBA || b == 0xB2 || b == 0xB3 || b == 0xB9 ||
    (0xBC ≤ b && b ≤ 0xBE) || (0xC0 ≤ b && b != 0xD7 && b != 0xF7)

/-- Leaves out the word `export` in front of a name. -/
def dropExport (t : Text) : Text :=
  match t.after? "export" with
  | none => t
  | some rest => if (trimGap rest).length < rest.length then trimGap rest else t

/-- The name of a statement and what follows it. A statement without a sign of equality or a colon
has no name and is its own value, which must not be empty; a name must not hold other
characters. -/
def name? (t : Text) : Option (Text × Text) :=
  let t := dropExport (trimGap t)
  let (name, rest) := t.span fun b => b != 61 && b != 58 && isNameByte b
  match rest with
  | [] => if t.isEmpty then none else some ([], t)
  | sign :: value => if sign == 61 || sign == 58 then some (Blank.trimEnd name, trimGap value) else none

/-- A byte of the name of a variable that is referred to. -/
def isReferenceByte (b : UInt8) : Bool := Text.isUpper b || Text.isDigit b || b == 95

/-- Drops a byte from the front if it is there. -/
def skip (b : UInt8) : Text → Text
  | [] => []
  | a :: rest => if a == b then rest else a :: rest

/-- Replaces references such as `$NAME` and `${NAME}` by the values of variables. A backslash in
front of a dollar sign takes away its meaning. -/
def expand (vars : SortedMap Text Text) : Nat → Text → Text
  | 0, t => t
  | fuel + 1, t =>
    match t with
    | [] => []
    | 92 :: 36 :: rest =>
      let tail := skip 125 ((skip 123 (skip 40 rest)).dropWhile isReferenceByte)
      36 :: rest.take (rest.length - tail.length) ++ expand vars fuel tail
    | 36 :: rest =>
      let (name, tail) := (skip 123 (skip 40 rest)).span isReferenceByte
      let tail := skip 125 tail
      (if name.isEmpty then 36 :: rest.take (rest.length - tail.length)
        else (vars.find? name).getD []) ++ expand vars fuel tail
    | b :: rest => b :: expand vars fuel rest

/-- Resolves the escapes for line ends. -/
def lineEscapes : Text → Text
  | 92 :: b :: rest =>
    if b == 110 then Text.newline :: lineEscapes rest
    else if b == 114 then 13 :: lineEscapes rest
    else 92 :: b :: lineEscapes rest
  | b :: rest => b :: lineEscapes rest
  | [] => []

/-- Drops backslashes, except those in front of a dollar sign. -/
def dropBackslashes : Text → Text
  | 92 :: 36 :: rest => 92 :: 36 :: dropBackslashes rest
  | 92 :: b :: rest => b :: dropBackslashes rest
  | b :: rest => b :: dropBackslashes rest
  | [] => []

/-- The value in quotation marks: what stands before the closing mark, and what follows it. A mark
behind a backslash does not close. -/
def closing? (mark : UInt8) : UInt8 → Text → Option (Text × Text)
  | _, [] => none
  | before, b :: rest =>
    if b == mark && before != 92 then some ([], rest)
    else (closing? mark b rest).map fun (inner, tail) => (b :: inner, tail)

/-- Drops all marks from the front and the end. -/
def trimMarks (mark : UInt8) (t : Text) : Text :=
  ((t.dropWhile (· == mark)).reverse.dropWhile (· == mark)).reverse

/-- The start of a comment behind a value: a number sign behind a blank. -/
def beforeComment : Text → Text
  | [] => []
  | a :: 35 :: rest => if isGap a then [a] else a :: beforeComment (35 :: rest)
  | a :: b :: 35 :: rest => if Blank.isDouble a b then [a, b] else a :: beforeComment (b :: 35 :: rest)
  | a :: rest => a :: beforeComment rest

/-- The value of a statement and what follows it. -/
def value? (vars : SortedMap Text Text) (t : Text) : Option (Text × Text) :=
  match t with
  | [] => some ([], [])
  | mark :: rest =>
    if mark == 34 || mark == 39 then
      (closing? mark mark rest).map fun (inner, tail) =>
        let value := trimMarks mark inner
        let value := if mark == 34 then
            let plain := dropBackslashes (lineEscapes value)
            expand vars (plain.length + 1) plain
          else value
        (value, tail)
    else
      let (line, tail) := t.span fun b => b != Text.newline && b != 13
      let trimmed := trimBoth (beforeComment (Utf8.scrub line))
      some (expand vars (trimmed.length + 1) trimmed, tail)

/-- Reads statement after statement. -/
def collect : Nat → Text → SortedMap Text Text → Option (SortedMap Text Text)
  | 0, _, vars => some vars
  | fuel + 1, t, vars =>
    let t := nextStatement (t.length + 1) t
    if t.isEmpty then some vars
    else do
      let (name, rest) ← name? t
      let (value, rest) ← value? vars rest
      collect fuel rest (vars.insert name value)

/-- The variables of a file; of two with one name the later counts. -/
def read? (t : Text) : Option (SortedMap Text Text) :=
  let t := t.replace "\r\n" "\n"
  collect (t.length + 1) t SortedMap.empty

/-- A variable that can be set: it has a name, and no zero byte in its value. -/
def isSettable (name value : Text) : Bool := !name.isEmpty && !value.contains 0

/-- Adds the variables of a file to those that are already set, which keep their values. -/
def overlay (vars found : SortedMap Text Text) : SortedMap Text Text :=
  found.toList.foldl (fun vars e =>
    if !isSettable e.1 e.2 || vars.contains e.1 then vars else vars.insert e.1 e.2) vars

end ClassAtlas.DotEnv
