import ClassAtlas.Json.Basic

namespace ClassAtlas.Json

/-- Steps over blanks between tokens. -/
def skipBlanks (t : Text) : Text := t.dropWhile fun b => b == 32 || b == 9 || b == 10 || b == 13

/-- Reads four hexadecimal digits. -/
def unit? : Text → Option (Nat × Text)
  | a :: b :: c :: d :: rest => do
    let a ← Decimal.hexValue? a
    let b ← Decimal.hexValue? b
    let c ← Decimal.hexValue? c
    let d ← Decimal.hexValue? d
    return (((a * 16 + b) * 16 + c) * 16 + d, rest)
  | _ => none

/-- The bytes of an escaped code unit and what follows. Two halves of a surrogate pair give one
code point, a lone half gives the replacement character. -/
def unitText (code : Nat) (rest : Text) : Text × Text :=
  if 0xD800 ≤ code && code < 0xE000 then
    let lone := (Utf8.encode Utf8.replacement, rest)
    if code < 0xDC00 then
      match rest with
      | 92 :: 117 :: more =>
        match unit? more with
        | some (low, rest') =>
          if 0xDC00 ≤ low && low < 0xE000 then
            (Utf8.encode (0x10000 + (code - 0xD800) * 1024 + (low - 0xDC00)), rest')
          else lone
        | none => lone
      | _ => lone
    else lone
  else (Utf8.encode code, rest)

/-- The byte that a one-letter escape stands for. -/
def simpleEscape? (b : UInt8) : Option UInt8 :=
  if b == 34 || b == 92 || b == 47 then some b
  else if b == 98 then some 8
  else if b == 102 then some 12
  else if b == 110 then some 10
  else if b == 114 then some 13
  else if b == 116 then some 9
  else none

/-- Reads the rest of a string literal behind the bytes already read, which are held in reverse. -/
def stringGo : Nat → Text → Text → Option (Text × Text)
  | 0, _, _ => none
  | _ + 1, _, [] => none
  | fuel + 1, acc, c :: rest =>
    if c == 34 then some (Utf8.scrub acc.reverse, rest)
    else if c < 32 then none
    else if c == 92 then
      match rest with
      | [] => none
      | e :: more =>
        if e == 117 then
          match unit? more with
          | none => none
          | some (code, following) =>
            let (bytes, following') := unitText code following
            stringGo fuel (bytes.reverse ++ acc) following'
        else match simpleEscape? e with
          | none => none
          | some b => stringGo fuel (b :: acc) more
    else stringGo fuel (c :: acc) rest

/-- Reads the rest of a string literal behind its opening quote. -/
def string? (t : Text) : Option (Text × Text) := stringGo (t.length + 1) [] t

/-- Reads digits, at least one. -/
def digits? (t : Text) : Option (Text × Text) :=
  match t.span Text.isDigit with
  | ([], _) => none
  | (ds, rest) => some (ds, rest)

/-- Reads the whole part of a number: a zero alone, or digits that do not start with a zero. -/
def whole? : Text → Option (Text × Text)
  | 48 :: rest => some ([48], rest)
  | t => digits? t

/-- Reads the fraction of a number, if there is one. -/
def fraction? : Text → Option (Text × Text)
  | 46 :: rest => (digits? rest).map fun (ds, more) => (46 :: ds, more)
  | t => some ([], t)

/-- Reads the exponent of a number, if there is one. -/
def exponent? : Text → Option (Text × Text)
  | [] => some ([], [])
  | c :: rest =>
    if c == 101 || c == 69 then
      match rest with
      | [] => none
      | s :: more =>
        if s == 43 || s == 45 then (digits? more).map fun (ds, r) => (c :: s :: ds, r)
        else (digits? rest).map fun (ds, r) => (c :: ds, r)
    else some ([], c :: rest)

/-- Splits off a minus sign, if there is one. -/
def splitMinus : Text → Text × Text
  | 45 :: rest => ([45], rest)
  | t => ([], t)

/-- Reads a number and keeps it as it is written. -/
def number? (t : Text) : Option (Text × Text) := do
  let (w, rest) ← whole? (splitMinus t).2
  let (f, rest) ← fraction? rest
  let (e, rest) ← exponent? rest
  return ((splitMinus t).1 ++ w ++ f ++ e, rest)

mutual

/-- Reads a value. -/
def value? : Nat → Text → Option (Json × Text)
  | 0, _ => none
  | fuel + 1, t =>
    match skipBlanks t with
    | [] => none
    | c :: rest =>
      if c == 34 then (string? rest).map fun (s, r) => (.str s, r)
      else if c == 91 then
        match skipBlanks rest with
        | 93 :: r => some (.arr [], r)
        | r => (items? fuel [] r).map fun (xs, r') => (.arr xs, r')
      else if c == 123 then
        match skipBlanks rest with
        | 125 :: r => some (.obj [], r)
        | r => (members? fuel [] r).map fun (ms, r') => (.obj ms, r')
      else if c == 116 then (Text.after? rest "rue").map fun r => (.bool true, r)
      else if c == 102 then (Text.after? rest "alse").map fun r => (.bool false, r)
      else if c == 110 then (Text.after? rest "ull").map fun r => (.null, r)
      else (number? (c :: rest)).map fun (n, r) => (.num n, r)

/-- Reads the items of an array up to its closing bracket. -/
def items? : Nat → List Json → Text → Option (List Json × Text)
  | 0, _, _ => none
  | fuel + 1, acc, t =>
    match value? fuel t with
    | none => none
    | some (item, rest) =>
      match skipBlanks rest with
      | 44 :: r => items? fuel (item :: acc) r
      | 93 :: r => some ((item :: acc).reverse, r)
      | _ => none

/-- Reads the members of an object up to its closing bracket. -/
def members? : Nat → List (Text × Json) → Text → Option (List (Text × Json) × Text)
  | 0, _, _ => none
  | fuel + 1, acc, t =>
    match skipBlanks t with
    | 34 :: rest =>
      match string? rest with
      | none => none
      | some (name, r) =>
        match skipBlanks r with
        | 58 :: r' =>
          match value? fuel r' with
          | none => none
          | some (v, r'') =>
            match skipBlanks r'' with
            | 44 :: following => members? fuel ((name, v) :: acc) following
            | 125 :: following => some (((name, v) :: acc).reverse, following)
            | _ => none
        | _ => none
    | _ => none

end

/-- Reads one value from the front of a text and returns what follows it. -/
def readFront? (t : Text) : Option (Json × Text) := value? (t.length + 2) t

/-- Reads a text that holds one value and nothing else. -/
def read? (t : Text) : Option Json :=
  match readFront? t with
  | some (j, rest) => if (skipBlanks rest).isEmpty then some j else none
  | none => none

end ClassAtlas.Json
