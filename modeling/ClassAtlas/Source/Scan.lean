import ClassAtlas.Text.Basic

namespace ClassAtlas.Scan

variable {α : Type}

/-- A recogniser looks at the byte before a position and at the text from there on. -/
abbrev Recogniser (α : Type) := Option UInt8 → Text → Option (α × Nat)

/-- All occurrences behind the next `skip` bytes. -/
def allFrom (recognise : Recogniser α) : Nat → Option UInt8 → Text → List α
  | _, _, [] => []
  | skip + 1, _, b :: rest => allFrom recognise skip (some b) rest
  | 0, previous, b :: rest =>
    match recognise previous (b :: rest) with
    | some (found, width) => found :: allFrom recognise (width - 1) (some b) rest
    | none => allFrom recognise 0 (some b) rest

/-- All occurrences in a text, from left to right. -/
def all (recognise : Recogniser α) (t : Text) : List α := allFrom recognise 0 none t

/-- The first thing found by a recogniser that takes no notice of what comes before. -/
def first? (recognise : Text → Option α) : Text → Option α
  | [] => recognise []
  | b :: rest =>
    match recognise (b :: rest) with
    | some found => some found
    | none => first? recognise rest

/-- Takes the longest run of bytes with a property, which may not be empty. -/
def run? (holds : UInt8 → Bool) (t : Text) : Option (Text × Text) :=
  match t.span holds with
  | ([], _) => none
  | (found, rest) => some (found, rest)

/-- Steps over at least one gap. -/
def gaps? (t : Text) : Option Text := (run? Text.isGap t).map Prod.snd

/-- Steps over any gaps. -/
def gaps (t : Text) : Text := t.dropWhile Text.isGap

/-- Steps over one given byte. -/
def byte? (b : UInt8) : Text → Option Text
  | [] => none
  | c :: rest => if c == b then some rest else none

end ClassAtlas.Scan
