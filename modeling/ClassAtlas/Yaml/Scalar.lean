import ClassAtlas.Yaml.Token
import ClassAtlas.Text.Decimal

namespace ClassAtlas.Yaml

/-- The gap between two words of a scalar: blanks, or line ends of which the first stands apart. -/
structure Fold where
  spaces : Text
  first : Option Text
  others : Text
  deriving DecidableEq, Repr

namespace Fold

/-- No gap. -/
def none : Fold := ⟨[], Option.none, []⟩

/-- What a gap becomes. -/
def text (f : Fold) : Text :=
  match f.first with
  | Option.none => f.spaces
  | some b => if b == [10] then (if f.others.isEmpty then [32] else f.others) else b ++ f.others

/-- Reads a gap. In a plain scalar a tab must not stand where the indentation is expected. -/
def read (indent : Option Int) : Nat → Cursor → Fold → Option (Fold × Cursor)
  | 0, c, f => some (f, c)
  | fuel + 1, c, f =>
    if c.atBlank then
      let misplaced := match indent with
        | some n => f.first.isSome && (c.column : Int) < n && c.sees 9
        | Option.none => false
      if misplaced then Option.none
      else
        let f := if f.first.isSome then f else { f with spaces := f.spaces ++ textOf (c.rest.take 1) }
        read indent fuel (c.skip 1) f
    else if c.atBreak then
      let f := if f.first.isSome then { f with others := f.others ++ c.breakText }
        else ⟨[], some c.breakText, []⟩
      read indent fuel c.skipBreak f
    else some (f, c)

end Fold

/-- A character that ends a plain scalar within brackets or braces. -/
def isFlowIndicator (c : Nat) : Bool :=
  c == 44 || c == 63 || c == 91 || c == 93 || c == 123 || c == 125

/-- The word of a plain scalar at the front of some characters. -/
def plainWord (inFlow : Bool) : List Nat → List Nat
  | [] => []
  | c :: rest =>
    let gapNext := (rest.head?.map isGap).getD true
    if isGap c || (c == 58 && gapNext) || (inFlow && isFlowIndicator c) then []
    else c :: plainWord inFlow rest

/-- Reads a plain scalar: its text, and whether line ends follow it. -/
def readPlain (inFlow : Bool) (indent : Int) :
    Nat → Cursor → Text → Fold → Option (Text × Bool × Cursor)
  | 0, c, t, f => some (t, f.first.isSome, c)
  | fuel + 1, c, t, f =>
    if c.atMarker || c.sees 35 then some (t, f.first.isSome, c)
    else
      let word := plainWord inFlow c.rest
      let c := c.skip word.length
      let (t, f) := if word.isEmpty then (t, f) else (t ++ f.text ++ textOf word, Fold.none)
      if !c.atBlank && !c.atBreak then some (t, f.first.isSome, c)
      else
        match Fold.read (some indent) (c.rest.length + 1) c f with
        | none => none
        | some (f, c) =>
          if !inFlow && (c.column : Int) < indent then some (t, f.first.isSome, c)
          else readPlain inFlow indent fuel c t f

/-- The character that an escape of one letter stands for. -/
def escape? (c : Nat) : Option Nat :=
  [(48, 0), (97, 7), (98, 8), (116, 9), (9, 9), (110, 10), (118, 11), (102, 12), (114, 13), (101, 27),
    (32, 32), (34, 34), (39, 39), (92, 92), (78, 0x85), (95, 0xA0), (76, 0x2028), (80, 0x2029)].lookup c

/-- The number of hexadecimal digits behind an escape letter. -/
def escapeLength? (c : Nat) : Option Nat :=
  if c == 120 then some 2 else if c == 117 then some 4 else if c == 85 then some 8 else none

/-- The value of hexadecimal digits. -/
def hexCode? (cs : List Nat) : Option Nat :=
  cs.foldlM (fun n c => if 128 ≤ c then none else (Decimal.hexValue? c.toUInt8).map (n * 16 + ·)) 0

/-- Reads an escape behind its backslash: the character and the number of characters read. -/
def readEscape? (cs : List Nat) : Option (Nat × Nat) :=
  match cs with
  | [] => none
  | c :: rest =>
    match escapeLength? c with
    | none => (escape? c).map fun x => (x, 1)
    | some n => do
      let digits := rest.take n
      if digits.length != n then none
      let code ← hexCode? digits
      if (0xD800 ≤ code && code ≤ 0xDFFF) || 0x10FFFF < code then none
      return (code, n + 1)

/-- How the word of a quoted scalar ended. -/
inductive WordEnd where
  | gap
  | foldedBreak
  deriving DecidableEq, Repr

/-- Reads a word of a quoted scalar. A backslash at the end of a line joins it with the next. -/
def readWord (quote : Nat) : Nat → Cursor → Text → Option (Text × WordEnd × Cursor)
  | 0, _, _ => none
  | fuel + 1, c, t =>
    match c.rest with
    | [] => some (t, .gap, c)
    | x :: rest =>
      if isGap x then some (t, .gap, c)
      else if quote == 39 && x == 39 && rest.head? == some 39 then readWord quote fuel (c.skip 2) (t ++ [39])
      else if x == quote then some (t, .gap, c)
      else if quote == 34 && x == 92 then
        if (rest.head?.map isBreak).getD false then some (t, .foldedBreak, (c.skip 1).skipBreak)
        else
          match readEscape? rest with
          | none => none
          | some (code, n) => readWord quote fuel (c.skip (n + 1)) (t ++ Utf8.encode code)
      else readWord quote fuel (c.skip 1) (t ++ Utf8.encode x)

/-- Reads a quoted scalar behind its opening mark. -/
def readQuoted (quote : Nat) : Nat → Cursor → Text → Option (Text × Cursor)
  | 0, _, _ => none
  | fuel + 1, c, t =>
    if c.atMarker || c.atEnd then none
    else
      match readWord quote (c.rest.length + 1) c t with
      | none => none
      | some (t, how, c) =>
        if c.sees quote then some (t, c.skip 1)
        else
          let start := if how == .foldedBreak then ⟨[], some [], []⟩ else Fold.none
          match Fold.read none (c.rest.length + 1) c start with
          | none => none
          | some (f, c) => readQuoted quote fuel c (t ++ f.text)

/-- What becomes of the line ends behind a block scalar. -/
inductive Chomping where
  | strip
  | clip
  | keep
  deriving DecidableEq, Repr

/-- Reads the indicators in the first line of a block scalar: how line ends are kept, and the
indentation if it is given. -/
def readIndicators? (c : Cursor) : Option (Chomping × Nat × Cursor) :=
  let chomping? (x : Option Nat) : Option Chomping :=
    if x == some 43 then some .keep else if x == some 45 then some .strip else none
  let digit? (x : Option Nat) : Option Nat :=
    match x with
    | some d => if 48 ≤ d && d ≤ 57 then some (d - 48) else none
    | none => none
  let result := match chomping? c.peek with
    | some how =>
      let c := c.skip 1
      match digit? c.peek with
      | some n => (how, some n, c.skip 1)
      | none => (how, none, c)
    | none =>
      match digit? c.peek with
      | some n =>
        let c := c.skip 1
        match chomping? c.peek with
        | some how => (how, some n, c.skip 1)
        | none => (.clip, some n, c)
      | none => (.clip, none, c)
  match result with
  | (_, some 0, _) => none
  | (how, n, c) => some (how, n.getD 0, c)

/-- Reads the blank lines and the indentation in front of a line of a block scalar. An indentation
of zero is not known yet; the deepest one seen is given back. -/
def readIndentation (indent : Nat) : Nat → Cursor → Nat → Text → Option (Nat × Text × Cursor)
  | 0, c, deepest, breaks => some (deepest, breaks, c)
  | fuel + 1, c, deepest, breaks =>
    let spaces := (c.rest.takeWhile (· == 32)).length
    let c := c.skip (if indent == 0 then spaces else min spaces (indent - c.column))
    let deepest := max deepest c.column
    if (indent == 0 || c.column < indent) && c.sees 9 then none
    else if c.atBreak then readIndentation indent fuel c.skipBreak deepest (breaks ++ c.breakText)
    else some (deepest, breaks, c)

/-- Reads the lines of a block scalar. -/
def readLines (literal : Bool) (how : Chomping) (indent : Nat) :
    Nat → Cursor → Text → Text → Text → Bool → Option (Text × Cursor)
  | 0, _, _, _, _, _ => none
  | fuel + 1, c, t, lineBreak, breaks, wasBlank =>
    if c.column == indent && !c.atEnd then
      let blank := c.atBlank
      let gap : Text :=
        if !literal && lineBreak == [10] && !wasBlank && !blank then
          (if breaks.isEmpty then [32] else [])
        else lineBreak
      let words := c.rest.takeWhile (!isBreak ·)
      let c := c.skip words.length
      let lineBreak := c.breakText
      let t := t ++ gap ++ breaks ++ textOf words
      match readIndentation indent (c.rest.length + 1) c.skipBreak 0 [] with
      | none => none
      | some (_, breaks, c) => readLines literal how indent fuel c t lineBreak breaks blank
    else
      let tail : Text := match how with
        | .strip => []
        | .clip => lineBreak
        | .keep => lineBreak ++ breaks
      some (t ++ tail, c)

/-- Reads a block scalar behind its first character. `outer` is the indentation around it. -/
def readBlock (literal : Bool) (outer : Int) (c : Cursor) : Option (Text × Cursor) := do
  let (how, given, c) ← readIndicators? c
  let c := c.skipWhile isBlank
  let c := if c.sees 35 then c.skipLine else c
  if !c.atBreak && !c.atEnd then none
  let c := c.skipBreak
  let known := if given == 0 then 0 else if 0 ≤ outer then outer.toNat + given else given
  let (deepest, breaks, c) ← readIndentation known (c.rest.length + 1) c 0 []
  let indent := if known == 0 then max (max deepest (outer + 1).toNat) 1 else known
  readLines literal how indent (c.rest.length + 1) c [] [] breaks false

end ClassAtlas.Yaml
