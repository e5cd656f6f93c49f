import ClassAtlas.Text.Decimal
import ClassAtlas.Text.Printable

namespace ClassAtlas.Quoted

/-- The one-letter escapes of control characters. -/
def controlEscapes : List (Nat × UInt8) :=
  [(7, 97), (8, 98), (12, 102), (10, 110), (13, 114), (9, 116), (11, 118)]

/-- A rune inside double quotes. -/
def encodeRune : Rune → Text
  | .stray b => "\\x" ++ Decimal.hex 2 b.toNat
  | .scalar c =>
    if c == 34 || c == 92 then [92, c.toUInt8]
    else if Printable.isPrintable c then Utf8.encode c
    else match controlEscapes.lookup c with
      | some letter => [92, letter]
      | none =>
        if c < 32 || c == 127 then "\\x" ++ Decimal.hex 2 c
        else if c < 0x10000 then "\\u" ++ Decimal.hex 4 c
        else "\\U" ++ Decimal.hex 8 c

/-- The text in double quotes. -/
def encode (t : Text) : Text := 34 :: (Utf8.runes t).flatMap encodeRune ++ [34]

/-- Reads a number of hexadecimal digits. -/
def hexDigits? : Nat → Nat → Text → Option (Nat × Text)
  | 0, value, t => some (value, t)
  | _ + 1, _, [] => none
  | n + 1, value, b :: rest =>
    match Decimal.hexValue? b with
    | none => none
    | some digit => hexDigits? n (value * 16 + digit) rest

/-- Reads two more octal digits behind a first one. -/
def octal? (first : UInt8) : Text → Option (Nat × Text)
  | b :: c :: rest =>
    if 48 ≤ b && b ≤ 55 && 48 ≤ c && c ≤ 55 then
      let n := ((first.toNat - 48) * 8 + (b.toNat - 48)) * 8 + (c.toNat - 48)
      if n ≤ 255 then some (n, rest) else none
    else none
  | _ => none

/-- A code point that is no surrogate. -/
def isScalar (code : Nat) : Bool := code < 0xD800 || (0xE000 ≤ code && code < 0x110000)

/-- The bytes of an escape behind its backslash, and what follows. -/
def escape? : Text → Option (Text × Text)
  | [] => none
  | e :: rest =>
    match controlEscapes.find? (·.2 == e) with
    | some (code, _) => some ([code.toUInt8], rest)
    | none =>
      if e == 120 then (hexDigits? 2 0 rest).map fun (n, r) => ([n.toUInt8], r)
      else if e == 117 || e == 85 then
        match hexDigits? (if e == 117 then 4 else 8) 0 rest with
        | none => none
        | some (n, r) => if isScalar n then some (Utf8.encode n, r) else none
      else if 48 ≤ e && e ≤ 55 then (octal? e rest).map fun (n, r) => ([n.toUInt8], r)
      else if e == 92 || e == 34 then some ([e], rest)
      else none

/-- Reads a quoted text behind its opening quote, which must end with the closing quote. -/
def decodeGo : Nat → Text → Text → Option Text
  | 0, _, _ => none
  | _ + 1, _, [] => none
  | fuel + 1, acc, c :: rest =>
    if c == 34 then (if rest.isEmpty then some acc.reverse else none)
    else if c == 10 then none
    else if c == 92 then
      match escape? rest with
      | none => none
      | some (bytes, following) => decodeGo fuel (bytes.reverse ++ acc) following
    else decodeGo fuel (c :: acc) rest

/-- A raw text between backquotes, without carriage returns. -/
def raw? (t : Text) : Option Text :=
  match t.getLast? with
  | some 96 =>
    let body := t.dropLast
    if body.contains 96 then none else some (body.filter (· != 13))
  | _ => none

/-- A single rune between single quotes. -/
def single? (t : Text) : Option Text :=
  match t with
  | 92 :: 39 :: [39] => some [39]
  | 92 :: rest =>
    match escape? rest with
    | some (bytes, [39]) => if rest.head? == some 34 then none else some bytes
    | _ => none
  | _ =>
    match Utf8.next? t with
    | some (.scalar c, [39]) => if c == 39 || c == 10 then none else some (Utf8.encode c)
    | _ => none

/-- The text that a quoted text stands for, in double quotes, single quotes or backquotes. Between
quotes the replacement character stands for every stray byte, unless the quotes are backquotes. -/
def decode? : Text → Option Text
  | 34 :: rest =>
    let inner := Utf8.scrub rest
    decodeGo (inner.length + 1) [] inner
  | 96 :: rest => raw? rest
  | 39 :: rest => single? (Utf8.scrub rest)
  | _ => none

end ClassAtlas.Quoted
