import ClassAtlas.Number.Binary

namespace ClassAtlas

/-- Why a text is no span of time. -/
inductive DurationError where
  | malformed
  | missingUnit
  | unknownUnit (name : Text)
  deriving DecidableEq, Repr

namespace Duration

/-- A byte in quotation marks: what is not printable ASCII is written in hexadecimal. -/
def quoteByte (b : UInt8) : Text :=
  if 0x80 ≤ b || b < 0x20 then "\\x" ++ Decimal.hex 2 b.toNat
  else if b == 34 || b == 92 then [92, b]
  else [b]

/-- A text in quotation marks. -/
def quote (t : Text) : Text := 34 :: t.flatMap quoteByte ++ [34]

end Duration

/-- The wording of a refused span of time. -/
def DurationError.message (e : DurationError) (source : Text) : Text :=
  match e with
  | .malformed => "time: invalid duration " ++ Duration.quote source
  | .missingUnit => "time: missing unit in duration " ++ Duration.quote source
  | .unknownUnit name =>
    "time: unknown unit " ++ Duration.quote name ++ " in duration " ++ Duration.quote source

namespace Duration

/-- The nanoseconds of a unit. -/
def unit? (name : Text) : Option Nat :=
  if name == "ns" then some 1
  else if name == "us" || name == "µs" || name == "μs" then some 1000
  else if name == "ms" then some 1000000
  else if name == "s" then some 1000000000
  else if name == "m" then some 60000000000
  else if name == "h" then some 3600000000000
  else none

/-- The bound of the sums, one more than the greatest span of time. -/
def bound : Nat := 1 <<< 63

/-- The digits of a fraction that count: their value and their number. Digits that would make the
value too great are passed over. -/
def fraction (digits : Text) : Nat × Nat :=
  let step (acc : Nat × Nat × Bool) (b : UInt8) : Nat × Nat × Bool :=
    let (value, count, full) := acc
    if full || (bound - 1) / 10 < value then (value, count, true)
    else
      let next := value * 10 + (b.toNat - 48)
      if bound < next then (value, count, true) else (next, count + 1, false)
  let (value, count, _) := digits.foldl step (0, 0, false)
  (value, count)

/-- The whole nanoseconds of a fraction of a unit, in the arithmetic of double precision. -/
def fractionNanos (value count unit : Nat) : Nat :=
  let found : Option Nat := do
    let (n, d) := (← Binary.ofRatio? false value 1).ratio
    let (n', d') := (← Binary.ofRatio? false unit (Nat.pow 10 count)).ratio
    let (num, den) := (← Binary.ofRatio? false (n * n') (d * d')).ratio
    return num / den
  found.getD 0

/-- A number of units in nanoseconds: `whole` is the part before the point and `digits` are those
behind it. -/
def amount (whole : Nat) (digits : Text) (unit : Nat) : Except DurationError Nat :=
  if bound < whole || bound / unit < whole then .error .malformed
  else
    let (value, count) := fraction digits
    let nanos := whole * unit + (if value == 0 then 0 else fractionNanos value count unit)
    if bound < nanos then .error .malformed else .ok nanos

/-- Adds up the parts of a span of time. -/
def sumParts : Nat → Nat → Text → Except DurationError Nat
  | 0, _, _ => .error .malformed
  | fuel + 1, sum, t =>
    if t.isEmpty then .ok sum
    else
      let (whole, rest) := t.span Text.isDigit
      let (digits, hasPoint, rest) := match rest with
        | 46 :: r => ((r.span Text.isDigit).1, true, (r.span Text.isDigit).2)
        | _ => ([], false, rest)
      if whole.isEmpty && (!hasPoint || digits.isEmpty) then .error .malformed
      else if bound < Decimal.valueOf whole then .error .malformed
      else
        let (name, rest) := rest.span fun b => b != 46 && !Text.isDigit b
        if name.isEmpty then .error .missingUnit
        else match unit? name with
          | none => .error (.unknownUnit name)
          | some unit => do
            let part ← amount (Decimal.valueOf whole) digits unit
            let sum := (sum + part) % (1 <<< 64)
            if bound < sum then .error .malformed else sumParts fuel sum rest

/-- Reads a span of time. -/
def parse (t : Text) : Except DurationError Int := do
  let (negative, body) := match t with
    | 45 :: r => (true, r)
    | 43 :: r => (false, r)
    | _ => (false, t)
  if body == "0" then return 0
  if body.isEmpty then throw .malformed
  let sum ← sumParts (body.length + 1) 0 body
  if negative then return -(sum : Int)
  if bound ≤ sum then throw .malformed
  return sum

end Duration

end ClassAtlas
