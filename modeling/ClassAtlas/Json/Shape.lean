import ClassAtlas.Json.Decode
import ClassAtlas.Number.Binary

namespace ClassAtlas

/-- What a JSON value has to look like. -/
inductive Shape where
  | text
  | whole
  | truth
  | real
  | list (item : Shape)
  | record (fields : List (Text × Bool × Shape))

namespace Shape

/-- A blank value that is left out where a member is optional. -/
def isBlank : Json → Bool
  | .null => true
  | .str t => t.isEmpty
  | .arr items => items.isEmpty
  | _ => false

/-- The last member of a name, whatever the case of its letters. -/
def member? (members : List (Text × Json)) (name : Text) : Option Json :=
  (members.reverse.find? fun m => Case.equalFolded m.1 name).map Prod.snd

mutual

/-- The standard form of a value; null stands for the blank value. -/
def conform : Shape → Json → Option Json
  | .text, j => (Json.fillText [] j).map .str
  | .whole, j => (Json.fillInt 0 j).map .int
  | .truth, j => (Json.fillBool false j).map .bool
  | .real, .null => some (.nat 0)
  | .real, .num literal => (Binary.ofLiteral? literal).map fun b => .num b.text
  | .real, _ => none
  | .list _, .null => some .null
  | .list item, .arr items => (items.mapM (conform item)).map .arr
  | .list _, _ => none
  | .record fields, .null => (conformFields fields []).map .obj
  | .record fields, .obj members => (conformFields fields members).map .obj
  | .record _, _ => none

/-- The standard forms of the fields of a record. -/
def conformFields : List (Text × Bool × Shape) → List (Text × Json) → Option (List (Text × Json))
  | [], _ => some []
  | (name, optional, shape) :: rest, members => do
    let value ← conform shape ((member? members name).getD .null)
    let more ← conformFields rest members
    return if optional && isBlank value then more else (name, value) :: more

end

/-- A record all of whose fields are always written. -/
def fixed (fields : List (Text × Shape)) : Shape := .record (fields.map fun f => (f.1, false, f.2))

end Shape

end ClassAtlas
