import ClassAtlas.Cli.Flag
import ClassAtlas.Service.Basic
import ClassAtlas.Snapshot.Opening
import ClassAtlas.Telemetry

namespace ClassAtlas

/-- Why the flags of the server are refused. A flag has one dash or two. -/
inductive StartupError where
  | badForm (argument : Text)
  | unknown (name : Text)
  | noValue (name : Text)
  | badTruth (name value : Text)
  | badValue (name value : Text) (tooLarge : Bool)
  deriving DecidableEq, Repr

/-- The wording of refused flags. -/
def StartupError.message : StartupError → Text
  | .badForm argument => "bad flag syntax: " ++ argument
  | .unknown name => "flag provided but not defined: -" ++ name
  | .noValue name => "flag needs an argument: -" ++ name
  | .badTruth name value =>
    "invalid boolean value " ++ Quoted.encode value ++ " for -" ++ name ++ ": parse error"
  | .badValue name value tooLarge =>
    "invalid value " ++ Quoted.encode value ++ " for flag -" ++ name ++ ": "
      ++ (if tooLarge then "value out of range" else "parse error")

/-- How the start ended. A server that listens goes on. -/
inductive StartupEnding where
  | help
  | refused (error : StartupError)
  | failed (logs : List Json)
  | listening (logs : List Json)

namespace Startup

/-- The flags of the server. -/
def flags : List Flag :=
  [⟨"port", .integer, none⟩, ⟨"debug", .switch, none⟩, ⟨"snapshot-dir", .text, none⟩,
   ⟨"allowed-roots", .text, none⟩, ⟨"max-analyze", .duration, none⟩]

/-- The error for a value that does not fit. -/
def valueError (f : Flag) (value : Text) : ValueError → StartupError
  | .truth => .badTruth f.name value
  | .integer .outOfRange => .badValue f.name value true
  | _ => .badValue f.name value false

/-- Reads a value for a flag. -/
def valueFor (f : Flag) (value : Text) : Except StartupError (Text × FlagValue) :=
  ((f.read value).map fun v => (f.name, v)).mapError (valueError f value)

/-- What stands behind the dashes of an argument: a name, and a value if there is an equals sign
that is not the first byte. -/
def nameAndValue (argument : Text) : Text × Option Text :=
  let body : Text := argument.drop (if argument.startsWith "--" then 2 else 1)
  match body.cutAt? 61 with
  | some (name, value) => (name, some value)
  | none => (body, none)

/-- The flags end at an argument that has no dash, is a dash alone or two dashes. -/
def endsFlags (argument : Text) : Bool :=
  argument.length < 2 || argument.head? != some 45 || argument == "--"

/-- Asking for help. -/
def isHelp (name : Text) : Bool := name == "help" || name == "h"

/-- Reads the flags; nothing if help is asked for. -/
def readFlags : List Text → Except StartupError (Option FlagValues)
  | [] => .ok (some [])
  | argument :: rest =>
    if endsFlags argument then .ok (some [])
    else
      let (name, value?) := nameAndValue argument
      if name.isEmpty || name.head? == some 45 then .error (.badForm argument)
      else match flags.find? (·.name == name) with
        | none => if isHelp name then .ok none else .error (.unknown name)
        | some f =>
          match value? with
          | some value => do
            let v ← valueFor f value
            return (← readFlags rest).map (v :: ·)
          | none =>
            if f.kind == .switch then do
              return (← readFlags rest).map ((f.name, .switch true) :: ·)
            else match rest with
              | [] => .error (.noValue name)
              | value :: rest => do
                let v ← valueFor f value
                return (← readFlags rest).map (v :: ·)

/-- The directory of the snapshots: that of the flag, of the environment, or one in the home
directory. There is none without a home directory, or if it is switched off. -/
def snapshotDir? (values : FlagValues) (env : SortedMap Text Text) : Option Text :=
  let wished := values.text "snapshot-dir"
  let wished := if wished.isEmpty then (env.find? "MODTRACE_SNAPSHOT_DIR").getD [] else wished
  let dir? :=
    if !wished.isEmpty then some wished
    else
      let home := (env.find? "HOME").getD []
      if home.isEmpty then none else some (Path.join [home, ".modtrace", "snapshots"])
  dir?.filter (· != "off")

/-- A line of the log that tells of a problem. -/
def warning (message : Text) (attributes : List (Text × Json)) : Json :=
  .ofGroups [[("level", .str "WARN"), ("msg", .str message)], attributes]

/-- Opens the store of snapshots: whether there is one, and what the log says. A store that cannot
be opened is done without. -/
def openStore (d : Disk) (dir? : Option Text) : Bool × List Json :=
  match dir? with
  | none => (false, [])
  | some dir =>
    match StorePlace.openAt d dir false with
    | .ok _ => (true, [LogLine.info "Snapshot BadgerDB opened" [("path", .str dir)]])
    | .error e =>
      (false, [warning "Snapshot BadgerDB unavailable, snapshots disabled"
        [("path", .str dir), ("error", .str e.message)]])

/-- The port, unless another is asked for. -/
def standardPort : Int := 8080

/-- A port that can be listened on. -/
def isPort (port : Int) : Bool := 0 ≤ port && port ≤ 65535

/-- The line on a server that starts. -/
def startingLine (port : Int) (snapshots : Bool) : Json :=
  LogLine.info "Starting modtrace server"
    [("address", .str (":" ++ Decimal.ofInt port)), ("snapshots", .bool snapshots),
      ("version", .str Service.version)]

/-- The line on a port that cannot be listened on. -/
def portLine (port : Int) : Json :=
  LogLine.error "Failed to start server"
    [("error", .str ("listen tcp: address " ++ Decimal.ofInt port ++ ": invalid port"))]

/-- Starts the server. -/
def run (d : Disk) (env : SortedMap Text Text) (line : List Text) : StartupEnding :=
  match readFlags line with
  | .error e => .refused e
  | .ok none => .help
  | .ok (some values) =>
    match (TelemetrySettings.ofEnv env).refused? with
    | some e =>
      .failed [LogLine.error "Failed to initialize telemetry" [("error", .str e.message)]]
    | none =>
      let (snapshots, opening) := openStore d (snapshotDir? values env)
      let port := (values.number? "port").getD standardPort
      let logs := opening ++ [startingLine port snapshots]
      if isPort port then .listening logs else .failed (logs ++ [portLine port])

end Startup

end ClassAtlas
