import ClassAtlas.Text.Decimal

namespace ClassAtlas

/-- The number `±mantissa · 2^exponent`. -/
structure Binary where
  negative : Bool
  mantissa : Nat
  exponent : Int
  deriving DecidableEq, Repr

namespace Binary

/-- Zero. -/
def zero : Binary := ⟨false, 0, 0⟩

/-- The least exponent. -/
def minExponent : Int := -1074

/-- The greatest exponent. -/
def maxExponent : Int := 971

/-- The nearest whole number to a quotient; halfway between two it is the even one. -/
def roundDiv (num den : Nat) : Nat :=
  let q := num / den
  let twice := 2 * (num % den)
  if den < twice || (twice == den && q % 2 == 1) then q + 1 else q

/-- The numerator and denominator of `num / den` divided by `2^e`. -/
def scale (num den : Nat) (e : Int) : Nat × Nat :=
  if e < 0 then (num <<< e.natAbs, den) else (num, den <<< e.natAbs)

/-- The nearest number to `num / den`; none if that is out of range. -/
def ofRatio? (negative : Bool) (num den : Nat) : Option Binary :=
  if num == 0 then some ⟨negative, 0, 0⟩
  else
    let low := max minExponent ((num.log2 : Int) - den.log2 - 53)
    let (n, d) := scale num den low
    let e := if 1 <<< 53 ≤ n / d then low + 1 else low
    let (n, d) := scale num den e
    let m := roundDiv n d
    let (m, e) := if m == 1 <<< 53 then (1 <<< 52, e + 1) else (m, e)
    if maxExponent < e then none else some ⟨negative, m, e⟩

/-- The nearest number to the quotient of two counts; zero if the second one is zero. -/
def ofCounts (num den : Nat) : Binary :=
  if den == 0 then zero else (ofRatio? false num den).getD zero

/-- The exact value of the absolute number as a quotient. -/
def ratio (b : Binary) : Nat × Nat :=
  if b.exponent < 0 then (b.mantissa, 1 <<< b.exponent.natAbs)
  else (b.mantissa <<< b.exponent.natAbs, 1)

/-- The nearest number to `factor` times the number. -/
def times? (b : Binary) (factor : Nat) : Option Binary :=
  let (n, d) := b.ratio
  ofRatio? b.negative (n * factor) d

/-- Reads a decimal literal of JSON. -/
def ofLiteral? (t : Text) : Option Binary :=
  let (negative, t) := match t with
    | 45 :: r => (true, r)
    | _ => (false, t)
  let (mantissa, expo) := t.span fun b => b != 101 && b != 69
  let (whole, fraction) := mantissa.span (· != 46)
  let digits := Decimal.valueOf (whole ++ fraction.drop 1)
  let shift : Int := (Decimal.int64? (expo.drop 1)).getD 0 - (fraction.drop 1).length
  if digits == 0 then some ⟨negative, 0, 0⟩
  else if 400 + t.length < shift.natAbs then (if shift < 0 then some ⟨negative, 0, 0⟩ else none)
  else if shift < 0 then ofRatio? negative digits (Nat.pow 10 shift.natAbs)
  else ofRatio? negative (digits * Nat.pow 10 shift.natAbs) 1

/-- The whole number nearest to the number, with its sign; halfway between two the even one. -/
def wholeText (b : Binary) : Text :=
  let (n, d) := b.ratio
  (if b.negative then [45] else []) ++ Decimal.ofNat (roundDiv n d)

/-- The half-open or closed interval of values that round to a positive number, scaled by four:
its ends over a common denominator, and whether the ends belong to it. -/
structure Interval where
  low : Nat
  value : Nat
  high : Nat
  den : Nat
  closed : Bool

/-- The values that round to the number. -/
def interval (b : Binary) : Interval :=
  let below := if b.mantissa == 1 <<< 52 && minExponent < b.exponent then 1 else 2
  let (n, d) := scale 1 4 (-b.exponent)
  ⟨(4 * b.mantissa - below) * n, 4 * b.mantissa * n, (4 * b.mantissa + 2) * n, d, b.mantissa % 2 == 0⟩

/-- The decimal `c · 10^e` lies in the interval. -/
def Interval.holds (i : Interval) (c : Nat) (e : Int) : Bool :=
  let (l, m, r) :=
    if e < 0 then
      let s := Nat.pow 10 e.natAbs
      (i.low * s, c * i.den, i.high * s)
    else (i.low, c * Nat.pow 10 e.natAbs * i.den, i.high)
  if i.closed then l ≤ m && m ≤ r else l < m && m < r

/-- The greatest `e` with `10^e ≤ value`, from a bound downwards. -/
def magnitudeGo (i : Interval) : Nat → Int → Int
  | 0, e => e
  | fuel + 1, e =>
    let fits := if e < 0 then i.den ≤ i.value * Nat.pow 10 e.natAbs else Nat.pow 10 e.natAbs * i.den ≤ i.value
    if fits then e else magnitudeGo i fuel (e - 1)

/-- The decimal with the fewest digits that rounds to the number, from `n` digits on: its digits
and the exponent of the last one. Of two with the same number of digits the nearer one is taken. -/
def shortestGo (i : Interval) (top : Int) : Nat → Nat → Nat × Int
  | 0, _ => (0, 0)
  | fuel + 1, n =>
    let e := top - n
    let (num, den) :=
      if e < 0 then (i.value * Nat.pow 10 e.natAbs, i.den) else (i.value, i.den * Nat.pow 10 e.natAbs)
    let c := num / den
    let lower := i.holds c e && c != 0
    let upper := i.holds (c + 1) e
    if lower && (!upper || 2 * (num % den) ≤ den) then (c, e)
    else if upper then (c + 1, e)
    else shortestGo i top fuel (n + 1)

/-- Drops zeros at the end of the digits. -/
def trimZeros : Nat → Nat → Int → Nat × Int
  | 0, c, e => (c, e)
  | fuel + 1, c, e => if c % 10 == 0 && c != 0 then trimZeros fuel (c / 10) (e + 1) else (c, e)

/-- The number in JSON: the fewest digits that read back, without exponent from 1e-6 up to 1e21. -/
def text (b : Binary) : Text :=
  let sign : Text := if b.negative then [45] else []
  if b.mantissa == 0 then sign ++ [48]
  else
    let i := b.interval
    let top := magnitudeGo i 700 309
    let (c, e) := shortestGo i top 20 0
    let (c, e) := trimZeros 20 c e
    let digits := Decimal.ofNat c
    let point : Int := digits.length + e
    if -6 < point && point ≤ 21 then
      if 0 ≤ e then sign ++ digits ++ List.replicate e.natAbs 48
      else if 0 < point then sign ++ digits.take point.natAbs ++ 46 :: digits.drop point.natAbs
      else sign ++ [48, 46] ++ List.replicate point.natAbs 48 ++ digits
    else
      let expo := point - 1
      let tail : Text := if digits.length == 1 then [] else 46 :: digits.drop 1
      sign ++ digits.take 1 ++ tail ++ [101] ++
        (if expo < 0 then [45] else [43]) ++ Decimal.ofNat expo.natAbs

end Binary

end ClassAtlas
