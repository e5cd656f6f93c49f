import ClassAtlas.Collection.SortedMap
import ClassAtlas.Json.Basic

namespace ClassAtlas.Output

/-- Lines as writes, one for each line. -/
def ofLines (lines : List Text) : List Text := lines.map (· ++ [Text.newline])

/-- A JSON document as a single write. -/
def ofJson (j : Json) : List Text := [j.document]

/-- The text of all writes. -/
def text (writes : List Text) : Text := writes.flatten

/-- The text that a receiver takes that fails after `limit` writes, and whether it failed. -/
def deliver (limit : Option Nat) (writes : List Text) : Text × Bool :=
  match limit with
  | none => (text writes, false)
  | some n => (text (writes.take n), decide (n < writes.length))

/-- Output is coloured on a terminal only, unless an option or a variable refuses it. -/
def isColored (refused : Bool) (env : SortedMap Text Text) (terminal : Bool) : Bool :=
  !refused && ((env.find? "NO_COLOR").getD []).isEmpty && terminal

end ClassAtlas.Output
