import ClassAtlas.Text.Basic

namespace ClassAtlas.Base64

/-- The value of a letter. -/
def value? (b : UInt8) : Option Nat :=
  if Text.isUpper b then some (b.toNat - 65)
  else if Text.isLower b then some (b.toNat - 71)
  else if Text.isDigit b then some (b.toNat + 4)
  else if b == 43 then some 62
  else if b == 47 then some 63
  else none

/-- The bytes of values of six bits each. -/
def bytes : List Nat → Text
  | a :: b :: c :: d :: rest =>
    let n := ((a * 64 + b) * 64 + c) * 64 + d
    (n / 65536).toUInt8 :: (n / 256 % 256).toUInt8 :: (n % 256).toUInt8 :: bytes rest
  | [a, b, c] =>
    let n := (a * 64 + b) * 64 + c
    [(n / 1024).toUInt8, (n / 4 % 256).toUInt8]
  | [a, b] => [((a * 64 + b) / 16).toUInt8]
  | _ => []

/-- The bytes of a text; what is no letter is skipped. -/
def decode (t : Text) : Text := bytes (t.filterMap value?)

/-- The bytes of a text in groups of four letters, the last one filled up with equals signs.
Line ends are skipped, and nothing else is. -/
def decode? (t : Text) : Option Text :=
  let letters := t.filter fun b => b != 10 && b != 13
  let (body, padding) := letters.span (· != 61)
  if letters.length % 4 == 0 && padding.length ≤ 2 && padding.all (· == 61) then
    (body.mapM value?).map bytes
  else none

end ClassAtlas.Base64
