import ClassAtlas.Text.Decimal

namespace ClassAtlas.Literal

/-- A digit of any base. -/
def digit? (b : UInt8) : Option Nat :=
  let c := Text.lowerByte b
  if Text.isDigit c then some (c.toNat - 48)
  else if Text.isLower c then some (c.toNat - 87)
  else none

/-- The base of a number without sign, and its digits. A leading zero alone stands for base eight. -/
def base (t : Text) : Nat × Text :=
  match t with
  | 48 :: b :: c :: rest =>
    let mark := Text.lowerByte b
    if mark == 98 then (2, c :: rest)
    else if mark == 111 then (8, c :: rest)
    else if mark == 120 then (16, c :: rest)
    else (8, b :: c :: rest)
  | 48 :: rest => (8, rest)
  | _ => (10, t)

/-- The value of digits, with underscores passed over. A value past 64 bits ends the reading. -/
def valueOf (base : Nat) : Nat → Text → Except Decimal.Fault Nat
  | n, [] => .ok n
  | n, b :: rest =>
    if b == 95 then valueOf base n rest
    else match digit? b with
      | none => .error .malformed
      | some d =>
        if base ≤ d then .error .malformed
        else if 1 <<< 64 ≤ n * base + d then .error .outOfRange
        else valueOf base (n * base + d) rest

/-- Every underscore stands behind a digit and before another one. -/
def underscoresFit : Bool → Text → Bool
  | _, [] => true
  | behindDigit, 95 :: rest =>
    behindDigit && (match rest with | [] => false | b :: _ => b != 95) && underscoresFit false rest
  | _, _ :: rest => underscoresFit true rest

/-- The number has a letter that marks its base. -/
def hasMark : Text → Bool
  | 48 :: b :: _ => [98, 111, 120].contains (Text.lowerByte b)
  | _ => false

/-- The value of a number without sign. -/
def unsigned (t : Text) : Except Decimal.Fault Nat := do
  if t.isEmpty then throw .malformed
  let (base, digits) := base t
  let n ← valueOf base 0 digits
  if underscoresFit (hasMark t) (if hasMark t then t.drop 2 else t) then return n
  else throw .malformed

/-- Reads a signed 64-bit number. -/
def signed (t : Text) : Except Decimal.Fault Int := do
  let (negative, body) := match t with
    | 45 :: r => (true, r)
    | 43 :: r => (false, r)
    | _ => (false, t)
  let n ← unsigned body
  if negative then (if n ≤ 1 <<< 63 then return -(n : Int) else throw .outOfRange)
  else if n < 1 <<< 63 then return n else throw .outOfRange

end ClassAtlas.Literal
