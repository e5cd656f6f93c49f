import ClassAtlas.Number.Literal
import ClassAtlas.Text.Quoted
import ClassAtlas.Text.Truth
import ClassAtlas.Time.Duration

namespace ClassAtlas

/-- What a flag takes. A switch takes nothing, a list one text at each use. -/
inductive FlagKind where
  | switch
  | text
  | list
  | integer
  | duration
  deriving DecidableEq, Repr

/-- A flag. -/
structure Flag where
  name : Text
  kind : FlagKind
  letter : Option UInt8 := none
  deriving DecidableEq, Repr

/-- The value of a flag; a duration is in nanoseconds. -/
inductive FlagValue where
  | switch (on : Bool)
  | text (t : Text)
  | number (n : Int)
  deriving DecidableEq, Repr

/-- Why a value does not fit a flag. -/
inductive ValueError where
  | truth
  | integer (fault : Decimal.Fault)
  | duration (fault : DurationError)
  deriving DecidableEq, Repr

/-- The wording of a number that cannot be read. -/
def Decimal.Fault.reason : Decimal.Fault → Text
  | .malformed => "invalid syntax"
  | .outOfRange => "value out of range"

/-- The wording of a value that does not fit. -/
def ValueError.message (value : Text) : ValueError → Text
  | .truth => "strconv.ParseBool: parsing " ++ Quoted.encode value ++ ": invalid syntax"
  | .integer fault => "strconv.ParseInt: parsing " ++ Quoted.encode value ++ ": " ++ fault.reason
  | .duration fault => fault.message value

/-- Why flags cannot be read. Letters that stand together are named together. -/
inductive FlagError where
  | badForm (argument : Text)
  | unknown (name : Text)
  | unknownLetter (letter : UInt8) (letters : Text)
  | noValue (name : Text)
  | noLetterValue (letter : UInt8) (letters : Text)
  | badValue (flag : Flag) (value : Text) (cause : ValueError)
  deriving DecidableEq, Repr

namespace Flag

/-- The value that an argument gives to a flag. -/
def read (f : Flag) (value : Text) : Except ValueError FlagValue :=
  match f.kind with
  | .switch =>
    match Truth.read? value with
    | some on => .ok (.switch on)
    | none => .error .truth
  | .text | .list => .ok (.text value)
  | .integer => ((Literal.signed value).map .number).mapError .integer
  | .duration => ((Duration.parse value).map .number).mapError .duration

/-- The names of a flag, as a message shows them. -/
def shown (f : Flag) : Text :=
  match f.letter with
  | none => "--" ++ f.name
  | some letter => "-" ++ [letter] ++ ", --" ++ f.name

end Flag

/-- A letter in single quotes. -/
def FlagError.letterText (b : UInt8) : Text :=
  let inner : Text :=
    if b == 39 then "\\'" else if b == Text.quote then [b] else Quoted.encodeRune (.scalar b.toNat)
  "'" ++ inner ++ "'"

/-- The wording of flags that cannot be read. -/
def FlagError.message : FlagError → Text
  | .badForm argument => "bad flag syntax: " ++ argument
  | .unknown name => "unknown flag: --" ++ name
  | .unknownLetter letter letters =>
    "unknown shorthand flag: " ++ letterText letter ++ " in -" ++ letters
  | .noValue name => "flag needs an argument: --" ++ name
  | .noLetterValue letter letters =>
    "flag needs an argument: " ++ letterText letter ++ " in -" ++ letters
  | .badValue flag value cause =>
    "invalid argument " ++ Quoted.encode value ++ " for " ++ Quoted.encode flag.shown ++ " flag: "
      ++ cause.message value

/-- The values that flags were given, in order. -/
abbrev FlagValues := List (Text × FlagValue)

namespace FlagValues

/-- The last value of a flag. -/
def last? (vs : FlagValues) (name : Text) : Option FlagValue := vs.reverse.lookup name

/-- The text of a flag; empty if it has none. -/
def text (vs : FlagValues) (name : Text) : Text :=
  match vs.last? name with
  | some (.text t) => t
  | _ => []

/-- The text of a flag, if it was given. -/
def text? (vs : FlagValues) (name : Text) : Option Text :=
  match vs.last? name with
  | some (.text t) => some t
  | _ => none

/-- The number of a flag, if it was given. -/
def number? (vs : FlagValues) (name : Text) : Option Int :=
  match vs.last? name with
  | some (.number n) => some n
  | _ => none

/-- A switch is on. -/
def isOn (vs : FlagValues) (name : Text) : Bool := vs.last? name == some (.switch true)

/-- All texts of a flag. -/
def texts (vs : FlagValues) (name : Text) : List Text :=
  vs.filterMap fun
    | (n, .text t) => if n == name then some t else none
    | _ => none

end FlagValues

/-- Arguments that were read: the values of flags and what is no flag. -/
structure Arguments where
  values : FlagValues
  words : List Text
  deriving DecidableEq, Repr

namespace Arguments

/-- Reads a value for a flag. -/
def valueFor (f : Flag) (value : Text) : Except FlagError (Text × FlagValue) :=
  match f.read value with
  | .ok v => .ok (f.name, v)
  | .error cause => .error (.badValue f value cause)

/-- What an argument does: it gives values to flags, and may take the next argument for the last of
them. -/
inductive Reading where
  | done (values : FlagValues)
  | wantsNext (values : FlagValues) (f : Flag) (ifNone : FlagError)

/-- Reads an argument with a long name. -/
def readLong (flags : List Flag) (argument : Text) : Except FlagError Reading :=
  let body : Text := argument.drop 2
  match body with
  | [] => .error (.badForm argument)
  | first :: _ =>
    if first == 45 || first == 61 then .error (.badForm argument)
    else
      let (name, value?) : Text × Option Text :=
        match body.cutAt? 61 with
        | none => (body, none)
        | some (name, value) => (name, some value)
      match flags.find? (·.name == name) with
      | none => .error (.unknown name)
      | some f =>
        match value? with
        | some value => (valueFor f value).map fun v => .done [v]
        | none =>
          if f.kind == .switch then .ok (.done [(f.name, .switch true)])
          else .ok (.wantsNext [] f (.noValue name))

/-- Reads letters that stand together. -/
def readLetters (flags : List Flag) (values : FlagValues) : Text → Except FlagError Reading
  | [] => .ok (.done values)
  | letter :: rest =>
    match flags.find? (·.letter == some letter) with
    | none => .error (.unknownLetter letter (letter :: rest))
    | some f =>
      match rest with
      | 61 :: b :: value => (valueFor f (b :: value)).map fun v => .done (values ++ [v])
      | _ =>
        if f.kind == .switch then readLetters flags (values ++ [(f.name, .switch true)]) rest
        else if rest.isEmpty then .ok (.wantsNext values f (.noLetterValue letter [letter]))
        else (valueFor f rest).map fun v => .done (values ++ [v])

/-- Reads an argument that starts with a dash. -/
def readFlag (flags : List Flag) (argument : Text) : Except FlagError Reading :=
  if argument.startsWith "--" then readLong flags argument
  else readLetters flags [] (argument.drop 1)

/-- An argument is no flag: it does not start with a dash, or is a dash alone. -/
def isWord (argument : Text) : Bool := argument.head? != some 45 || argument.length == 1

/-- Reads arguments. Two dashes alone end the flags. -/
def read (flags : List Flag) : List Text → Except FlagError Arguments
  | [] => .ok ⟨[], []⟩
  | argument :: rest =>
    if isWord argument then do
      let more ← read flags rest
      return { more with words := argument :: more.words }
    else if argument == "--" then .ok ⟨[], rest⟩
    else
      match readFlag flags argument with
      | .error e => .error e
      | .ok (.done values) => do
        let more ← read flags rest
        return { more with values := values ++ more.values }
      | .ok (.wantsNext values f ifNone) =>
        match rest with
        | [] => .error ifNone
        | value :: rest => do
          let v ← valueFor f value
          let more ← read flags rest
          return { more with values := values ++ v :: more.values }

end Arguments

end ClassAtlas
