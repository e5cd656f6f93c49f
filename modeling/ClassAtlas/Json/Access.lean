import ClassAtlas.Collection.SortedMap
import ClassAtlas.Json.Basic

namespace ClassAtlas.Json

/-- The first member of a name. -/
def member? (j : Json) (name : Text) : Option Json :=
  match j with
  | .obj ms => ms.lookup name
  | _ => none

/-- A member that is present and not null. -/
def given? (j : Json) (name : Text) : Option Json :=
  match j.member? name with
  | some .null => none
  | found => found

/-- The value as a text. -/
def asText : Json → Text
  | .str t => t
  | _ => []

/-- The value as an integer. -/
def asInt : Json → Int
  | .num l => (Decimal.int64? l).getD 0
  | _ => 0

/-- The value as a list. -/
def asList : Json → List Json
  | .arr xs => xs
  | _ => []

/-- The value as a truth value. -/
def asBool : Json → Bool
  | .bool b => b
  | _ => false

/-- The members of a value. -/
def asMembers : Json → List (Text × Json)
  | .obj ms => ms
  | _ => []

/-- A member as a text. -/
def textAt (j : Json) (name : Text) : Text := ((j.given? name).map asText).getD []

/-- A member as an integer. -/
def intAt (j : Json) (name : Text) : Int := ((j.given? name).map asInt).getD 0

/-- A member as a natural number. -/
def natAt (j : Json) (name : Text) : Nat := (j.intAt name).toNat

/-- A member as a truth value. -/
def boolAt (j : Json) (name : Text) : Bool := ((j.given? name).map asBool).getD false

/-- A member as a list. -/
def listAt (j : Json) (name : Text) : List Json := ((j.given? name).map asList).getD []

/-- A member as texts, if it is there. -/
def textsAt? (j : Json) (name : Text) : Option (List Text) :=
  (j.given? name).map fun v => v.asList.map asText

/-- A member as texts. -/
def textsAt (j : Json) (name : Text) : List Text := (j.textsAt? name).getD []

/-- The members of a member. -/
def membersAt (j : Json) (name : Text) : List (Text × Json) := ((j.given? name).map asMembers).getD []

/-- A member as a map of texts. -/
def mapAt (j : Json) (name : Text) : SortedMap Text Text :=
  SortedMap.ofList ((j.membersAt name).map fun m => (m.1, m.2.asText))

end ClassAtlas.Json
