import ClassAtlas.Text.Basic

namespace ClassAtlas.Truth

/-- The words for true. -/
def yes : List Text := ["1", "t", "T", "TRUE", "true", "True"]

/-- The words for false. -/
def no : List Text := ["0", "f", "F", "FALSE", "false", "False"]

/-- Reads a truth value. -/
def read? (t : Text) : Option Bool :=
  if yes.contains t then some true else if no.contains t then some false else none

end ClassAtlas.Truth
