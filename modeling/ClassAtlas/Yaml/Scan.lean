import ClassAtlas.Yaml.Scalar

namespace ClassAtlas.Yaml

/-- Something that may turn out to be a key: the place of its first token, where it begins, and
whether there must be a key at its place. -/
structure Candidate where
  required : Bool
  token : Nat
  line : Nat
  column : Nat
  index : Nat
  deriving DecidableEq, Repr

/-- The state of a scan. The candidates stand for the levels of brackets, the innermost first. -/
structure Scanner where
  cursor : Cursor
  tokens : Array YamlToken
  indent : Int
  outer : List Int
  keyAllowed : Bool
  candidates : List (Option Candidate)

namespace Scanner

/-- The start of a scan. -/
def start (cs : List Nat) : Scanner := ⟨Cursor.start cs, #[], -1, [], true, [none]⟩

/-- The scan is within brackets or braces. -/
def inFlow (s : Scanner) : Bool := 1 < s.candidates.length

/-- Adds a token. -/
def push (s : Scanner) (t : YamlToken) : Scanner := { s with tokens := s.tokens.push t }

/-- Adds a token of some characters. -/
def take (s : Scanner) (t : YamlToken) (length : Nat) : Scanner :=
  { s with tokens := s.tokens.push t, cursor := s.cursor.skip length }

/-- Puts a token before the one at a place. -/
def insert (s : Scanner) (place : Nat) (t : YamlToken) : Scanner :=
  { s with tokens := s.tokens.extract 0 place ++ #[t] ++ s.tokens.extract place s.tokens.size }

/-- Begins a block if the column is deeper than the indentation. -/
def roll (s : Scanner) (column : Nat) (place : Option Nat) (t : YamlToken) : Scanner :=
  if s.inFlow || (column : Int) ≤ s.indent then s
  else
    let s := { s with outer := s.indent :: s.outer, indent := column }
    match place with
    | none => s.push t
    | some n => s.insert n t

/-- The blocks that end at a column: their number, and the indentation that is left. -/
def closed (column : Int) : Int → List Int → Nat × Int × List Int
  | indent, [] => (0, indent, [])
  | indent, outer :: more =>
    if column < indent then
      let (n, rest) := closed column outer more
      (n + 1, rest)
    else (0, indent, outer :: more)

/-- Ends the blocks that are deeper than a column. -/
def unroll (s : Scanner) (column : Int) : Scanner :=
  if s.inFlow then s
  else
    let (n, indent, outer) := closed column s.indent s.outer
    { s with tokens := s.tokens ++ Array.replicate n .blockEnd, indent, outer }

/-- Gives up the innermost candidate; fails if there had to be a key. -/
def dropCandidate (s : Scanner) : Option Scanner :=
  match s.candidates with
  | some c :: more => if c.required then none else some { s with candidates := none :: more }
  | _ => some s

/-- Makes what comes next a candidate, if a key may stand here. -/
def saveCandidate (s : Scanner) : Option Scanner :=
  if !s.keyAllowed then some s
  else do
    let s ← s.dropCandidate
    let c : Candidate :=
      ⟨!s.inFlow && s.indent == s.cursor.column, s.tokens.size, s.cursor.line, s.cursor.column,
        s.cursor.index⟩
    return { s with candidates := some c :: s.candidates.drop 1 }

/-- Says whether a key may come next. -/
def allowKey (s : Scanner) (b : Bool) : Scanner := { s with keyAllowed := b }

/-- Goes over blanks, comments and line ends. A new line outside of brackets may begin with a key;
tabs must not stand where one may. -/
def skipGaps : Nat → Scanner → Scanner
  | 0, s => s
  | fuel + 1, s =>
    let c := if s.cursor.column == 0 && s.cursor.sees byteOrderMark then s.cursor.skip 1 else s.cursor
    let c := c.skipWhile fun x => x == 32 || ((s.inFlow || !s.keyAllowed) && x == 9)
    let c := if c.sees 35 then c.skipLine else c
    if c.atBreak then
      skipGaps fuel { s with cursor := c.skipBreak, keyAllowed := s.keyAllowed || !s.inFlow }
    else { s with cursor := c }

/-- Reads what stands between documents. -/
def betweenDocuments (s : Scanner) : Option Scanner :=
  (s.unroll (-1)).dropCandidate.map (·.allowKey false)

/-- The end of a directive: blanks and a comment up to the end of the line. -/
def directiveEnd? (c : Cursor) : Option Cursor :=
  let c := c.skipWhile isBlank
  let c := if c.sees 35 then c.skipLine else c
  if c.atEnd then some c else if c.atBreak then some c.skipBreak else none

/-- Reads a number of at most nine digits. -/
def number? (c : Cursor) : Option (Nat × Cursor) :=
  let digits := c.rest.takeWhile fun x => 48 ≤ x && x ≤ 57
  if digits.isEmpty || 9 < digits.length then none
  else some (Decimal.valueOf (textOf digits), c.skip digits.length)

/-- A character of an address in a tag. -/
def isTagChar (c : Nat) : Bool :=
  isNameChar c || (c < 128 && (Text.ofString ";/?:@&=+$.%!~*'()").contains c.toUInt8)

/-- A character of an address that stands on its own. -/
def isAddressChar (c : Nat) : Bool := isTagChar c || c == 44 || c == 91 || c == 93

/-- Reads a directive behind its percent sign. -/
def directive? (c : Cursor) : Option (YamlToken × Cursor) := do
  let name := c.rest.takeWhile isNameChar
  let c := c.skip name.length
  if !c.gapAt 0 then none
  let c := c.skipWhile isBlank
  if textOf name == "YAML" then
    let (major, c) ← number? c
    if !c.sees 46 then none
    let (minor, c) ← number? (c.skip 1)
    return (.version major minor, ← directiveEnd? c)
  else if textOf name == "TAG" then
    if !c.sees 33 then none
    let middle := (c.rest.drop 1).takeWhile isNameChar
    let c' := c.skip (1 + middle.length)
    if !c'.sees 33 && !middle.isEmpty then none
    let handle := if c'.sees 33 then 33 :: middle ++ [33] else [33]
    let c := c.skip handle.length
    if !c.atBlank then none
    let c := c.skipWhile isBlank
    let lead := c.rest.takeWhile isAddressChar
    if lead.isEmpty then none
    let c := c.skip lead.length
    if !c.gapAt 0 then none
    return (.tagHandle (textOf handle) (textOf lead), ← directiveEnd? c)
  else none

/-- Resolves percent escapes in an address. -/
def unescape? : Text → Option Text
  | [] => some []
  | 37 :: a :: b :: rest => do
    let high ← Decimal.hexValue? a
    let low ← Decimal.hexValue? b
    return (high * 16 + low).toUInt8 :: (← unescape? rest)
  | 37 :: _ => none
  | b :: rest => (unescape? rest).map (b :: ·)

/-- Reads a tag. -/
def tag? (c : Cursor) : Option (YamlToken × Cursor) := do
  let finish (handle rest : Text) (c : Cursor) : Option (YamlToken × Cursor) :=
    if c.gapAt 0 then some (.tag handle rest, c) else none
  if c.startsWith [33, 60] then
    let c := c.skip 2
    let address := c.rest.takeWhile isAddressChar
    let c := c.skip address.length
    if address.isEmpty || !c.sees 62 then none
    finish [] (← unescape? (textOf address)) (c.skip 1)
  else
    let middle := (c.rest.drop 1).takeWhile isNameChar
    let c' := c.skip (1 + middle.length)
    if c'.sees 33 then
      let c := c'.skip 1
      let rest := c.rest.takeWhile isTagChar
      if rest.isEmpty then none
      finish (textOf (33 :: middle ++ [33])) (← unescape? (textOf rest)) (c.skip rest.length)
    else
      let rest := (c.rest.drop 1).takeWhile isTagChar
      let c := c.skip (1 + rest.length)
      if rest.isEmpty then finish [] [33] c
      else finish [33] (← unescape? (textOf rest)) c

/-- Reads the name of an anchor or an alias. -/
def anchorName? (c : Cursor) : Option (Text × Cursor) :=
  let name := c.rest.takeWhile isNameChar
  let c := c.skip name.length
  let ended := c.gapAt 0 || (c.peek.map fun x =>
    x < 128 && (Text.ofString "?:,]\x7d%@`").contains x.toUInt8).getD false
  if name.isEmpty || !ended then none else some (textOf name, c)

/-- Reads an opening bracket or brace. -/
def open? (s : Scanner) (t : YamlToken) : Option Scanner := do
  let s ← s.saveCandidate
  return { (s.take t 1).allowKey true with candidates := none :: s.candidates }

/-- Reads a closing bracket or brace. -/
def close? (s : Scanner) (t : YamlToken) : Option Scanner := do
  let s ← s.dropCandidate
  let candidates := if s.inFlow then s.candidates.drop 1 else s.candidates
  return { (s.take t 1).allowKey false with candidates }

/-- Reads the dash of a block sequence. -/
def blockEntry? (s : Scanner) : Option Scanner := do
  if !s.inFlow && !s.keyAllowed then none
  let s ← (s.roll s.cursor.column none .blockSequenceStart).dropCandidate
  return (s.take .blockEntry 1).allowKey true

/-- Reads the question mark of a key. -/
def explicitKey? (s : Scanner) : Option Scanner := do
  if !s.inFlow && !s.keyAllowed then none
  let s ← (s.roll s.cursor.column none .blockMappingStart).dropCandidate
  return (s.take .key 1).allowKey (!s.inFlow)

/-- The innermost candidate, if it is still one: on this line and not too far away. Fails if there
had to be a key. -/
def candidate? (s : Scanner) : Option (Option Candidate) :=
  match s.candidates with
  | some c :: _ =>
    if c.line < s.cursor.line || c.index + 1024 < s.cursor.index then
      (if c.required then none else some none)
    else some (some c)
  | _ => some none

/-- Reads the colon behind a key. -/
def value? (s : Scanner) : Option Scanner := do
  match ← s.candidate? with
  | some c =>
    let s := (s.insert c.token .key).roll c.column (some c.token) .blockMappingStart
    return { (s.take .value 1).allowKey false with candidates := none :: s.candidates.drop 1 }
  | none =>
    if !s.inFlow && !s.keyAllowed then none
    let s := s.roll s.cursor.column none .blockMappingStart
    return { (s.take .value 1).allowKey (!s.inFlow) with
      candidates := none :: s.candidates.drop 1 }

/-- Reads something that may be a key or the beginning of one. -/
def content? (s : Scanner) (read : Cursor → Option (YamlToken × Cursor)) : Option Scanner := do
  let s ← s.saveCandidate
  let (t, c) ← read s.cursor
  return { (s.push t).allowKey false with cursor := c }

/-- Reads a block scalar. -/
def block? (s : Scanner) (literal : Bool) : Option Scanner := do
  let s ← s.dropCandidate
  let (t, c) ← readBlock literal s.indent (s.cursor.skip 1)
  return { (s.push (.scalar t false)).allowKey true with cursor := c }

/-- Reads a quoted scalar. -/
def quoted? (quote : Nat) (c : Cursor) : Option (YamlToken × Cursor) :=
  (readQuoted quote (c.rest.length + 1) (c.skip 1) []).map fun (t, c) => (.scalar t false, c)

/-- Reads a plain scalar. Behind its line ends a key may come next. -/
def plain? (s : Scanner) : Option Scanner := do
  let s ← s.saveCandidate
  let (t, ended, c) ← readPlain s.inFlow (s.indent + 1) (s.cursor.rest.length + 1) s.cursor [] Fold.none
  return { (s.push (.scalar t true)).allowKey ended with cursor := c }

/-- A character that begins no plain scalar. -/
def isIndicator (c : Nat) : Bool :=
  c < 128 && (Text.ofString "-?:,[]\x7b\x7d#&*!|>'\"%@`").contains c.toUInt8

/-- A plain scalar begins here. -/
def atPlain (s : Scanner) : Bool :=
  match s.cursor.rest with
  | [] => false
  | x :: rest =>
    (!isGap x && !isIndicator x) || (x == 45 && !(rest.head?.map isBlank).getD false) ||
      (!s.inFlow && (x == 63 || x == 58) && !s.cursor.gapAt 1)

/-- Reads the next token. -/
def token? (s : Scanner) (x : Nat) : Option Scanner :=
  if s.cursor.column == 0 && x == 37 then do
    let s ← s.betweenDocuments
    let (t, c) ← directive? (s.cursor.skip 1)
    return { s.push t with cursor := c }
  else if s.cursor.atDocumentStart then s.betweenDocuments.map (·.take .documentStart 3)
  else if s.cursor.atDocumentEnd then s.betweenDocuments.map (·.take .documentEnd 3)
  else if x == 91 then s.open? .flowSequenceStart
  else if x == 123 then s.open? .flowMappingStart
  else if x == 93 then s.close? .flowSequenceEnd
  else if x == 125 then s.close? .flowMappingEnd
  else if x == 44 then s.dropCandidate.map fun s => (s.take .flowEntry 1).allowKey true
  else if x == 45 && s.cursor.gapAt 1 then s.blockEntry?
  else if x == 63 && (s.inFlow || s.cursor.gapAt 1) then s.explicitKey?
  else if x == 58 && (s.inFlow || s.cursor.gapAt 1) then s.value?
  else if x == 42 then s.content? fun c => (anchorName? (c.skip 1)).map fun (n, c) => (.alias n, c)
  else if x == 38 then s.content? fun c => (anchorName? (c.skip 1)).map fun (n, c) => (.anchor n, c)
  else if x == 33 then s.content? tag?
  else if x == 124 && !s.inFlow then s.block? true
  else if x == 62 && !s.inFlow then s.block? false
  else if x == 39 || x == 34 then s.content? (quoted? x)
  else if s.atPlain then s.plain?
  else none

/-- Reads tokens up to the end; the second part tells whether the scan failed before it. -/
def run : Nat → Scanner → Array YamlToken × Bool
  | 0, s => (s.tokens, true)
  | fuel + 1, s =>
    let s := skipGaps (s.cursor.rest.length + 1) s
    let s := s.unroll s.cursor.column
    match s.cursor.peek with
    | none =>
      match s.betweenDocuments with
      | none => ((s.unroll (-1)).tokens, true)
      | some s => ((s.push .streamEnd).tokens, false)
    | some x =>
      match s.token? x with
      | none => (s.tokens, true)
      | some s => run fuel s

end Scanner

/-- The tokens of a text, and whether something that is no token comes behind them. -/
def tokens (cs : List Nat) : List YamlToken × Bool :=
  let (found, broken) := Scanner.run (cs.length + 2) (Scanner.start cs)
  (found.toList, broken)

end ClassAtlas.Yaml
