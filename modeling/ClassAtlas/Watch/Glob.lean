import ClassAtlas.Text.Utf8

namespace ClassAtlas

/-- A part of a pattern. -/
inductive GlobPart where
  | star
  | any
  | literal (byte : UInt8)
  | oneOf (negated : Bool) (ranges : List (Nat × Nat))
  deriving DecidableEq, Repr

namespace Glob

/-- Reads an end of a range in a class: a character that is no dash and no closing bracket, or any
character behind a backslash. More must follow it. -/
def bound? (t : Text) : Option (Nat × Text) := do
  let t ← match t with
    | [] => none
    | 92 :: rest => some rest
    | b :: rest => if b == 45 || b == 93 then none else some (b :: rest)
  match Utf8.next? t with
  | some (.scalar c, rest) => if rest.isEmpty then none else some (c, rest)
  | _ => none

/-- Reads the ranges of a class up to its closing bracket. -/
def ranges? : Nat → List (Nat × Nat) → Text → Option (List (Nat × Nat) × Text)
  | 0, _, _ => none
  | fuel + 1, found, t =>
    match t with
    | [] => none
    | b :: rest =>
      if b == 93 && !found.isEmpty then some (found.reverse, rest)
      else do
        let (low, rest) ← bound? t
        match rest with
        | 45 :: more =>
          let (high, rest) ← bound? more
          ranges? fuel ((low, high) :: found) rest
        | _ => ranges? fuel ((low, low) :: found) rest

/-- Reads the parts of a pattern; nothing if it is not well-formed. -/
def partsGo : Nat → Text → Option (List GlobPart)
  | 0, _ => none
  | fuel + 1, t =>
    match t with
    | [] => some []
    | 42 :: rest => (partsGo fuel rest).map (.star :: ·)
    | 63 :: rest => (partsGo fuel rest).map (.any :: ·)
    | [92] => none
    | 92 :: b :: rest => (partsGo fuel rest).map (.literal b :: ·)
    | 91 :: rest => do
      let (negated, rest) := match rest with
        | 94 :: r => (true, r)
        | r => (false, r)
      let (found, rest) ← ranges? (rest.length + 1) [] rest
      return .oneOf negated found :: (← partsGo fuel rest)
    | b :: rest => (partsGo fuel rest).map (.literal b :: ·)

/-- The parts of a pattern. -/
def parts? (pattern : Text) : Option (List GlobPart) := partsGo (pattern.length + 1) pattern

/-- What may remain of a text behind a star. -/
def behindStar : Text → List Text
  | [] => [[]]
  | b :: rest => (b :: rest) :: if b == Text.slash then [] else behindStar rest

/-- What remains of a text behind a single part. -/
def behind? (p : GlobPart) (t : Text) : Option Text :=
  match p, t with
  | .literal b, c :: rest => if b == c then some rest else none
  | .any, c :: rest => if c == Text.slash then none else (Utf8.next? (c :: rest)).map Prod.snd
  | .oneOf negated ranges, t =>
    match Utf8.next? t with
    | none => none
    | some (r, rest) =>
      let code := Utf8.code r
      if (ranges.any fun (low, high) => low ≤ code && code ≤ high) != negated then some rest else none
  | _, _ => none

/-- The parts make up the whole text. -/
def fits : List GlobPart → Text → Bool
  | [], t => t.isEmpty
  | .star :: rest, t => (behindStar t).any (fits rest)
  | p :: rest, t =>
    match behind? p t with
    | none => false
    | some t => fits rest t

/-- The pattern is well-formed and fits the whole name. -/
def matchesName (pattern name : Text) : Bool :=
  match parts? pattern with
  | none => false
  | some parts => fits parts name

end Glob

end ClassAtlas
