import ClassAtlas.Text.Decimal

namespace ClassAtlas

/-- A day of the calendar. -/
structure CivilDate where
  year : Int
  month : Nat
  day : Nat
  deriving DecidableEq, Repr

namespace CivilDate

/-- The days of 400 years, after which the calendar repeats. -/
def daysOfEra : Int := 146097

/-- The date of a day that is counted from the first of January 1970. The years of the reckoning
begin in March, so that a leap day ends its year. -/
def ofDay (day : Int) : CivilDate :=
  let shifted := day + 719468
  let era := shifted.fdiv daysOfEra
  let dayOfEra := (shifted - era * daysOfEra).toNat
  let yearOfEra := (dayOfEra - dayOfEra / 1460 + dayOfEra / 36524 - dayOfEra / 146096) / 365
  let dayOfYear := dayOfEra - (365 * yearOfEra + yearOfEra / 4 - yearOfEra / 100)
  let slot := (5 * dayOfYear + 2) / 153
  let month := if slot < 10 then slot + 3 else slot - 9
  ⟨yearOfEra + era * 400 + (if month ≤ 2 then 1 else 0), month,
    dayOfYear - (153 * slot + 2) / 5 + 1⟩

end CivilDate

namespace Timestamp

/-- A year with at least four digits. -/
def yearText (year : Int) : Text :=
  if year < 0 then 45 :: Decimal.padded 4 year.natAbs else Decimal.padded 4 year.natAbs

/-- The text of a time in UTC, to the second. -/
def text (millis : Int) : Text :=
  let seconds := millis.fdiv 1000
  let day := seconds.fdiv 86400
  let rest := (seconds - day * 86400).toNat
  let date := CivilDate.ofDay day
  yearText date.year ++ "-" ++ Decimal.padded 2 date.month ++ "-" ++ Decimal.padded 2 date.day ++
    "T" ++ Decimal.padded 2 (rest / 3600) ++ ":" ++ Decimal.padded 2 (rest / 60 % 60) ++ ":" ++
    Decimal.padded 2 (rest % 60) ++ "Z"

end Timestamp

end ClassAtlas
