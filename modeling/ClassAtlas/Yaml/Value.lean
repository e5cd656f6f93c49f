import ClassAtlas.Number.Binary
import ClassAtlas.Text.Base64
import ClassAtlas.Text.Blank
import ClassAtlas.Time.Duration
import ClassAtlas.Yaml.Node

namespace ClassAtlas

/-- The value of a scalar. Numbers that are not whole are infinite or given exactly. -/
inductive YamlValue where
  | null
  | bool
  | whole (n : Int)
  | real (b : Binary)
  | infinite (negative : Bool)
  | notNumber
  | text (t : Text)
  deriving DecidableEq, Repr

namespace YamlValue

/-- The words for null. -/
def nullWords : List Text := [[], "~", "null", "Null", "NULL"]

/-- The words for truth values. -/
def boolWords : List Text := ["true", "True", "TRUE", "false", "False", "FALSE"]

/-- The words for what is no number. -/
def nanWords : List Text := [".nan", ".NaN", ".NAN"]

/-- The words for infinity. -/
def infinityWords : List Text := [".inf", ".Inf", ".INF"]

/-- The value of digits in a base. -/
def digits? (base : Nat) (t : Text) : Option Nat :=
  t.foldlM (fun n b =>
    match Decimal.hexValue? b with
    | some d => if d < base then some (n * base + d) else none
    | none => none) 0

/-- Reads a number without a sign: decimal, or in a base that its start names. A leading zero
stands for base eight. -/
def unsigned? (t : Text) : Option Nat :=
  match t with
  | [] => none
  | [48] => some 0
  | 48 :: b :: c :: rest =>
    let kind := Text.lowerByte b
    if kind == 120 then digits? 16 (c :: rest)
    else if kind == 98 then digits? 2 (c :: rest)
    else if kind == 111 then digits? 8 (c :: rest)
    else digits? 8 (b :: c :: rest)
  | 48 :: rest => digits? 8 rest
  | _ => digits? 10 t

/-- Splits off a sign. -/
def sign (t : Text) : Option Bool × Text :=
  match t with
  | 45 :: rest => (some true, rest)
  | 43 :: rest => (some false, rest)
  | _ => (none, t)

/-- Reads a whole number of 64 bits. -/
def whole? (t : Text) : Option Int :=
  match sign t with
  | (none, body) => (unsigned? body).bind fun n => if n < 1 <<< 64 then some (n : Int) else none
  | (some true, body) => (unsigned? body).bind fun n => if n ≤ 1 <<< 63 then some (-(n : Int)) else none
  | (some false, body) => (unsigned? body).bind fun n => if n < 1 <<< 63 then some (n : Int) else none

/-- The text has the form of a decimal number with an optional fraction and exponent. -/
def isDecimal (t : Text) : Bool :=
  let (lead, rest) := t.span Text.isDigit
  let (hasPoint, fraction, rest) := match rest with
    | 46 :: r => (true, (r.span Text.isDigit).1, (r.span Text.isDigit).2)
    | _ => (false, [], rest)
  let mantissa := !lead.isEmpty || (hasPoint && !fraction.isEmpty)
  let exponent := match rest with
    | [] => true
    | e :: r =>
      (e == 101 || e == 69) &&
        let digits := (sign r).2
        !digits.isEmpty && digits.all Text.isDigit
  mantissa && exponent

/-- Reads a decimal number. -/
def real? (t : Text) : Option Binary :=
  let (negative, body) := sign t
  if isDecimal body then
    (Binary.ofLiteral? body).map fun b => { b with negative := negative == some true }
  else none

/-- The value of a plain scalar. -/
def ofPlain (t : Text) : YamlValue :=
  if nullWords.contains t then .null
  else if boolWords.contains t then .bool
  else if nanWords.contains t then .notNumber
  else if infinityWords.contains t then .infinite false
  else
    match t with
    | [] => .null
    | b :: rest =>
      if (b == 43 || b == 45) && infinityWords.contains rest then .infinite (b == 45)
      else if b == 46 then ((real? t).map .real).getD (.text t)
      else if b == 43 || b == 45 || Text.isDigit b then
        let plain := t.filter (· != 95)
        match whole? plain with
        | some n => .whole n
        | none => ((real? plain).map .real).getD (.text t)
      else .text t

/-- The tag that a value has of itself. -/
def tag : YamlValue → Text
  | .null => "!!null"
  | .bool => "!!bool"
  | .whole _ => "!!int"
  | .real _ | .infinite _ | .notNumber => "!!float"
  | .text _ => "!!str"

/-- The tags of values that are told by how they are written. -/
def valueTags : List Text := ["!!bool", "!!int", "!!float", "!!null", "!!timestamp"]

/-- The value of a scalar: a text if it is quoted and has no tag. A tag of a value must fit what is
written; under another tag stands a text. -/
def ofScalar? (tagged content : Text) (plain : Bool) : Option YamlValue :=
  if tagged == "!!binary" then (Base64.decode? content).map .text
  else if tagged.isEmpty && !plain then some (.text content)
  else if !tagged.isEmpty && !valueTags.contains tagged then some (.text content)
  else
    let v := ofPlain content
    if tagged.isEmpty || tagged == v.tag then some v
    else
      match v with
      | .whole n => if tagged == "!!float" then some (.whole n) else none
      | _ => none

end YamlValue

namespace Yaml

/-- Fills a value from a node, starting from what it was; `none` if the node does not fit. -/
abbrev Filler (α : Type) := α → YamlNode → Option α

/-- Fills a text. Other scalars are taken as they are written. -/
def fillText : Filler Text
  | old, .scalar tag content plain =>
    match YamlValue.ofScalar? tag content plain with
    | none => none
    | some .null => some old
    | some (.text t) => some t
    | some _ => some content
  | _, _ => none

/-- The whole number that a number is cut to; one that is too far below zero becomes the least. -/
def cut? (b : Binary) : Option Int :=
  let (n, d) := b.ratio
  let least : Int := -(1 <<< 63 : Nat)
  if b.negative then some (max least (-((n / d : Nat) : Int)))
  else if n < d <<< 63 then some ((n / d : Nat) : Int)
  else if n == d <<< 63 then some least
  else none

/-- Fills a whole number of 64 bits; a number with a fraction is cut. -/
def fillInt : Filler Int
  | old, .scalar tag content plain =>
    match YamlValue.ofScalar? tag content plain with
    | some .null => some old
    | some (.whole n) => if n < (1 <<< 63 : Nat) then some n else none
    | some (.real b) => cut? b
    | some (.infinite true) => some (-(1 <<< 63 : Nat))
    | _ => none
  | _, _ => none

/-- Fills a span of time. -/
def fillDuration : Filler Int
  | old, .scalar tag content plain =>
    match YamlValue.ofScalar? tag content plain with
    | some .null => some old
    | some (.text t) => (Duration.parse t).toOption
    | _ => none
  | _, _ => none

/-- The text of an item of a list; null is no item. -/
def itemText? : YamlNode → Option (Option Text)
  | .scalar tag content plain =>
    match YamlValue.ofScalar? tag content plain with
    | none => none
    | some .null => some none
    | some (.text t) => some (some t)
    | some _ => some (some content)
  | _ => none

/-- Fills a list of texts. -/
def fillTexts : Filler (Option (List Text))
  | _, .sequence items => (items.mapM itemText?).map fun found => some (found.filterMap id)
  | _, .scalar tag content plain =>
    match YamlValue.ofScalar? tag content plain with
    | some .null => some none
    | _ => none
  | _, .mapping _ => none

/-- What tells keys of a mapping apart: their kind and, of scalars, their text. -/
def keyMark : YamlNode → Nat × Text
  | .scalar _ content _ => (0, content)
  | .sequence _ => (1, [])
  | .mapping _ => (2, [])

/-- No two keys are the same. -/
def distinctKeys : List (YamlNode × YamlNode) → Bool
  | [] => true
  | e :: rest => (rest.all fun r => keyMark r.1 != keyMark e.1) && distinctKeys rest

/-- The key that takes in the entries of another mapping. -/
def isMerge : YamlNode → Bool
  | .scalar tag content plain => plain && tag.isEmpty && content == "<<"
  | _ => false

/-- The mappings that are taken in by a value; nothing if it is no mapping or list of them. -/
def merged? : YamlNode → Option (List (List (YamlNode × YamlNode)))
  | .mapping entries => some [entries]
  | .sequence items => items.mapM fun
    | .mapping entries => some entries
    | _ => none
  | .scalar _ _ _ => none

/-- The entries of a mapping with those of the mappings that it takes in, behind its own. Its own
keys and earlier ones win. -/
def allEntries? (entries : List (YamlNode × YamlNode)) : Option (List (YamlNode × YamlNode)) := do
  let own := entries.filter fun e => !isMerge e.1
  let others ← (entries.filter fun e => isMerge e.1).mapM fun e => merged? e.2
  return others.flatten.foldl (fun found more =>
    found ++ more.filter fun e => found.all fun f => keyMark f.1 != keyMark e.1) own

/-- Fills a record from a mapping, member by member. Keys of no meaning are passed over. -/
def fillRecord {α : Type} (field : Text → Option (Filler α)) : Filler α
  | old, .scalar tag content plain =>
    match YamlValue.ofScalar? tag content plain with
    | some .null => some old
    | _ => none
  | _, .sequence _ => none
  | old, .mapping entries =>
    if !distinctKeys entries then none
    else
      match allEntries? entries with
      | none => none
      | some all =>
        all.foldlM (fun a e =>
          match itemText? e.1 with
          | none => none
          | some none => some a
          | some (some name) =>
            match field name with
            | none => some a
            | some fill => fill a e.2) old

/-- A field of a record, with the way to look at it and to replace it. -/
def part {α β : Type} (get : α → β) (set : α → β → α) (fill : Filler β) : Filler α :=
  fun a n => (fill (get a) n).map (set a)

/-- Finds the filler for a name. -/
def named {α : Type} (fields : List (Text × Filler α)) (name : Text) : Option (Filler α) :=
  fields.lookup name

end Yaml

end ClassAtlas
