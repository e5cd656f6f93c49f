import ClassAtlas.Text.Decimal

namespace ClassAtlas

/-- What a request asks for. Of several parameters of one name the first counts. -/
structure Target where
  path : Text
  parameters : List (Text × Text)
  deriving DecidableEq, Repr

namespace Target

/-- Replaces percent escapes, and plus signs if they stand for blanks; nothing if an escape is not
well-formed. -/
def unescape? (plusIsBlank : Bool) : Text → Option Text
  | [] => some []
  | 37 :: a :: b :: rest => do
    let high ← Decimal.hexValue? a
    let low ← Decimal.hexValue? b
    return (16 * high + low).toUInt8 :: (← unescape? plusIsBlank rest)
  | 37 :: _ => none
  | b :: rest => do
    let rest ← unescape? plusIsBlank rest
    return (if plusIsBlank && b == 43 then Text.space else b) :: rest

/-- A parameter: a name, and a value behind an equals sign. -/
def parameter? (t : Text) : Option (Text × Text) :=
  if t.isEmpty || t.contains 59 then none
  else do
    let (name, value) := (t.cutAt? 61).getD (t, [])
    return (← unescape? true name, ← unescape? true value)

/-- Reads a target. Parameters that are not well-formed are left out; such a path stays as it is. -/
def parse (t : Text) : Target :=
  let (path, query) := (t.cutAt? 63).getD (t, [])
  ⟨(unescape? false path).getD path, (query.split 38).filterMap parameter?⟩

/-- The value of a parameter; empty if there is none. -/
def value (t : Target) (name : Text) : Text := (t.parameters.lookup name).getD []

end Target

end ClassAtlas
