import ClassAtlas.Text.Decimal
import ClassAtlas.Text.Utf8

namespace ClassAtlas.Uri

/-- A control character. -/
def isControl (b : UInt8) : Bool := b < 32 || b == 127

/-- A byte of a scheme behind its first one. -/
def isSchemeByte (b : UInt8) : Bool :=
  Text.isLetter b || Text.isDigit b || b == 43 || b == 45 || b == 46

/-- Splits off the scheme: empty if there is none. An address must not start with a colon. -/
def scheme? (t : Text) : Option (Text × Text) :=
  let (lead, rest) := t.span isSchemeByte
  match rest with
  | 58 :: r =>
    if lead.isEmpty then none
    else if (lead.head?.map Text.isLetter).getD false then some (lead, r)
    else some ([], t)
  | _ => some ([], t)

/-- Every percent sign is followed by two hexadecimal digits that pass a test. -/
def escapesFit (fits : UInt8 → UInt8 → Bool) : Text → Bool
  | [] => true
  | 37 :: a :: b :: rest =>
    (Decimal.hexValue? a).isSome && (Decimal.hexValue? b).isSome && fits a b && escapesFit fits rest
  | 37 :: _ => false
  | _ :: rest => escapesFit fits rest

/-- All escapes are well-formed. -/
def escapesValid (t : Text) : Bool := escapesFit (fun _ _ => true) t

/-- An escape that may stand in a host: of a byte outside ASCII, or of the percent sign. -/
def isHostEscape (a b : UInt8) : Bool :=
  8 ≤ (Decimal.hexValue? a).getD 0 || (a == 50 && b == 53)

/-- A byte that may stand in a host as it is. -/
def isHostByte (b : UInt8) : Bool :=
  128 ≤ b || Text.isLetter b || Text.isDigit b ||
    (Text.ofString "!$&'()*+,;=:[]<>\"-_.~%").contains b

/-- A colon and digits, or nothing. -/
def isOptionalPort : Text → Bool
  | [] => true
  | 58 :: digits => digits.all Text.isDigit
  | _ => false

/-- A host with an optional port. -/
def isHost (t : Text) : Bool :=
  let portFits :=
    if t.startsWith "[" then
      match t.cutAtLast? 93 with
      | none => false
      | some (_, port) => isOptionalPort port
    else
      match t.cutAtLast? 58 with
      | none => true
      | some (_, digits) => digits.all Text.isDigit
  portFits && t.all isHostByte && escapesFit isHostEscape t

/-- A byte that may stand in the part before the host. -/
def isUserByte (b : UInt8) : Bool :=
  Text.isLetter b || Text.isDigit b || (Text.ofString "-._:~!$&'()*+,;=%@").contains b

/-- A host, with an optional user before it. -/
def isAuthority (t : Text) : Bool :=
  match t.cutAtLast? 64 with
  | none => isHost t
  | some (user, host) => isHost host && user.all isUserByte && escapesValid user

/-- An address without its query. -/
def isAddress (schemed : Bool) (t : Text) : Bool :=
  if !t.startsWith "/" then schemed
  else if schemed && t.startsWith "//" then
    let (authority, path) := (t.drop 2).span (· != Text.slash)
    isAuthority authority && escapesValid path
  else escapesValid t

/-- The text is a well-formed address. What follows a number sign is not looked at. -/
def isValid (t : Text) : Bool :=
  let t := t.takeWhile (· != 35)
  if t.isEmpty || t.any isControl then false
  else if t == "*" then true
  else
    match scheme? t with
    | none => false
    | some (scheme, rest) => isAddress (!scheme.isEmpty) (rest.takeWhile (· != 63))

end ClassAtlas.Uri
