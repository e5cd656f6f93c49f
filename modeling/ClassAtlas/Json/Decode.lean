import ClassAtlas.Json.Basic
import ClassAtlas.Text.Case

namespace ClassAtlas.Json

/-- Fills a value, starting from what it was before; `none` if the JSON has another shape. -/
abbrev Filler (α : Type) := α → Json → Option α

/-- Fills a text. -/
def fillText : Filler Text
  | old, .null => some old
  | _, .str t => some t
  | _, _ => none

/-- Fills a truth value. -/
def fillBool : Filler Bool
  | old, .null => some old
  | _, .bool b => some b
  | _, _ => none

/-- Fills a signed number of `bits` bits; fractions and exponents have no place in it. -/
def fillSigned (bits : Nat) : Filler Int
  | old, .null => some old
  | _, .num literal => (Decimal.signed bits literal).toOption
  | _, _ => none

/-- Fills an integer of 64 bits. -/
def fillInt : Filler Int := fillSigned 64

/-- Fills a byte. -/
def fillByte : Filler UInt8
  | old, .null => some old
  | _, .num literal =>
    match Decimal.nat? literal with
    | some n => if n < 256 then some n.toUInt8 else none
    | none => none
  | _, _ => none

/-- Fills a list, each item of it from a blank one. Null stands for no list at all. -/
def fillList {α : Type} (blank : α) (item : Filler α) : Filler (Option (List α))
  | _, .null => some none
  | _, .arr items => (items.mapM (item blank)).map some
  | _, _ => none

/-- Fills a record, member by member. -/
def fillRecord {α : Type} (field : Text → Option (Filler α)) : Filler α
  | old, .null => some old
  | old, .obj members =>
    members.foldlM (fun a m =>
      match field m.1 with
      | none => some a
      | some fill => fill a m.2) old
  | _, _ => none

/-- A field of a record, with the way to look at it and to replace it. -/
def part {α β : Type} (get : α → β) (set : α → β → α) (fill : Filler β) : Filler α :=
  fun a j => (fill (get a) j).map (set a)

/-- Finds the filler for a name, whatever the case of its letters. -/
def named {α : Type} (fields : List (Text × Filler α)) (name : Text) : Option (Filler α) :=
  match fields.find? (·.1 == name) with
  | some f => some f.2
  | none => (fields.find? fun f => Case.equalFolded f.1 name).map Prod.snd

end ClassAtlas.Json
