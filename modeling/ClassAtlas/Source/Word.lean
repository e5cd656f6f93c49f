import ClassAtlas.Text.Utf8

namespace ClassAtlas.Word

/-- Adds one byte in front of a word that is still open and the words behind it. -/
def extend (b : UInt8) (state : Text × List Text) : Text × List Text :=
  if Text.isWord b then (b :: state.1, state.2)
  else if state.1.isEmpty then state
  else ([], state.1 :: state.2)

/-- The maximal runs of word bytes, from left to right. -/
def runs (t : Text) : List Text :=
  let (opened, closed) := t.foldr extend ([], [])
  if opened.isEmpty then closed else opened :: closed

/-- A nonempty text of word bytes only. -/
def isIdentifier (t : Text) : Bool := !t.isEmpty && t.all Text.isWord

/-- The byte exists and is a word byte. -/
def inWord : Option UInt8 → Bool
  | none => false
  | some b => Text.isWord b

/-- `word` starts here, and neither of its neighbours is a word byte. -/
def standsAt (word : Text) (previous : Option UInt8) (t : Text) : Bool :=
  match t.after? word with
  | none => false
  | some rest => !inWord previous && !inWord rest.head?

/-- `word` stands between other bytes than word bytes, from here on. -/
def standsFrom (word : Text) : Option UInt8 → Text → Bool
  | previous, [] => standsAt word previous []
  | previous, b :: rest => standsAt word previous (b :: rest) || standsFrom word (some b) rest

/-- A rune of one word byte. -/
def isWordRune : Rune → Bool
  | .scalar code => code < 128 && Text.isWord code.toUInt8
  | .stray _ => false

/-- One of two neighbouring runes is a word byte and the other one is not. -/
def isEdge (left right : Option Rune) : Bool := left.any isWordRune != right.any isWordRune

/-- The code points start here, behind a rune, and an edge comes behind them. A stray byte is read
as the replacement character. -/
def closesAt : List Nat → Option Rune → List Rune → Bool
  | [], previous, runes => isEdge previous runes.head?
  | _ :: _, _, [] => false
  | code :: codes, _, r :: rest => Utf8.code r == code && closesAt codes (some r) rest

/-- The code points occur with an edge before and behind them, from here on. -/
def occursFrom (codes : List Nat) : Option Rune → List Rune → Bool
  | previous, [] => isEdge previous none && closesAt codes previous []
  | previous, r :: rest =>
    (isEdge previous (some r) && closesAt codes previous (r :: rest)) || occursFrom codes (some r) rest

/-- A word that is looked for rune by rune. It is well-formed: nothing can be looked for that has stray
bytes. -/
@[ext]
structure Pattern where
  word : Text
  valid : Utf8.isValid word = true

/-- The pattern of a word, if there is one. -/
def Pattern.of? (word : Text) : Option Pattern :=
  if hvalid : Utf8.isValid word = true then some ⟨word, hvalid⟩ else none

/-- The code points of a word occur in `t` with an edge before and behind them. -/
def occurs (t : Text) (p : Pattern) : Bool :=
  occursFrom ((Utf8.runes p.word).map Utf8.code) none (Utf8.runes t)

/-- `t` has `word` as a whole word; the empty text is none. There is no answer if the word is not made
of word bytes and has no pattern. -/
def isIn (t word : Text) : Option Bool :=
  if word.isEmpty then some false
  else if isIdentifier word then some (standsFrom word none t)
  else (Pattern.of? word).map (occurs t)

end ClassAtlas.Word
