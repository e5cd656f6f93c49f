import ClassAtlas.Text.Case

namespace ClassAtlas.Suggestion

/-- The next row of a table of distances, without its first entry: from a text that ends in `b` to
every beginning of another one. The row before it is for the text without `b`, and `last` is the
entry made last. -/
def nextRow (b : UInt8) : Text → List Nat → Nat → List Nat
  | c :: t, diagonal :: above :: row, last =>
    let cost := if b == c then diagonal else 1 + min diagonal (min above last)
    cost :: nextRow b t (above :: row) cost
  | _, _, _ => []

/-- The last row of the table of distances from `s`. -/
def rows (t : Text) : Text → List Nat → List Nat
  | [], row => row
  | b :: s, row =>
    let first := row.headD 0 + 1
    rows t s (first :: nextRow b t row first)

/-- The number of bytes to insert, remove or replace to get from one text to another. -/
def distance (s t : Text) : Nat := (rows t s (List.range (t.length + 1))).getLastD 0

/-- The distance up to which a name is close. -/
def closeness : Nat := 2

/-- The name may have been meant. -/
def isMeant (typed name : Text) : Bool :=
  let typed := Case.lowerText typed
  let name := Case.lowerText name
  distance typed name ≤ closeness || name.startsWith typed

/-- The names that may have been meant. -/
def among (names : List Text) (typed : Text) : List Text := names.filter (isMeant typed)

end ClassAtlas.Suggestion
