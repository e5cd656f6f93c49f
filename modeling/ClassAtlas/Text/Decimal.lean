import ClassAtlas.Text.Basic

namespace ClassAtlas.Decimal

/-- The digit of a number below ten. -/
def digit (n : Nat) : UInt8 := (48 + n % 10).toUInt8

/-- Puts the digits of `n` in front of `acc`. -/
def digitsGo : Nat → Nat → Text → Text
  | 0, _, acc => acc
  | fuel + 1, n, acc =>
    if n < 10 then digit n :: acc else digitsGo fuel (n / 10) (digit n :: acc)

/-- A natural number in decimal. -/
def ofNat (n : Nat) : Text := digitsGo (n + 1) n []

/-- An integer in decimal, with a minus sign if it is negative. -/
def ofInt : Int → Text
  | .ofNat n => ofNat n
  | .negSucc n => 45 :: ofNat (n + 1)

/-- `n` in decimal with leading zeros up to `width` digits. -/
def padded (width n : Nat) : Text :=
  let t := ofNat n
  List.replicate (width - t.length) 48 ++ t

/-- The number that a list of digits stands for. -/
def valueOf (digits : Text) : Nat := digits.foldl (fun n b => n * 10 + (b.toNat - 48)) 0

/-- Reads digits, at least one and nothing else. -/
def nat? (t : Text) : Option Nat :=
  if !t.isEmpty && t.all Text.isDigit then some (valueOf t) else none

/-- Why a text is no 64-bit number. -/
inductive Fault where
  | malformed
  | outOfRange
  deriving DecidableEq, Repr

/-- Splits off a sign; tells whether it is a minus. -/
def splitSign : Text → Bool × Text
  | 45 :: rest => (true, rest)
  | 43 :: rest => (false, rest)
  | t => (false, t)

/-- Reads an optional sign and digits as a signed number of `bits` bits. -/
def signed (bits : Nat) (t : Text) : Except Fault Int :=
  match nat? (splitSign t).2 with
  | none => .error .malformed
  | some n =>
    let bound := 1 <<< (bits - 1)
    if (splitSign t).1 then (if n ≤ bound then .ok (-(n : Int)) else .error .outOfRange)
    else if n < bound then .ok n else .error .outOfRange

/-- Reads a signed 64-bit number, or nothing. -/
def int64? (t : Text) : Option Int := (signed 64 t).toOption

/-- A lower-case hexadecimal digit. -/
def hexDigit (n : Nat) : UInt8 := if n % 16 < 10 then (48 + n % 16).toUInt8 else (87 + n % 16).toUInt8

/-- `n` in hexadecimal with exactly `width` digits. -/
def hex (width n : Nat) : Text :=
  (List.range width).reverse.map fun i => hexDigit (n >>> (4 * i))

/-- The value of a hexadecimal digit of either case. -/
def hexValue? (b : UInt8) : Option Nat :=
  if Text.isDigit b then some (b.toNat - 48)
  else if 97 ≤ b && b ≤ 102 then some (b.toNat - 87)
  else if 65 ≤ b && b ≤ 70 then some (b.toNat - 55)
  else none

end ClassAtlas.Decimal
