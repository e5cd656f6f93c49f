import ClassAtlas.Cli.Flag
import ClassAtlas.Cli.Suggestion

namespace ClassAtlas

/-- What a command does. -/
inductive Action where
  | httpRequests
  | expose
  | tables
  | modules
  | impact
  | saveSnapshot
  | listSnapshots
  | diffSnapshots
  | exportNeo4j
  | watch
  | version
  deriving DecidableEq, Repr

/-- The number of words that a command takes. -/
inductive Arity where
  | none
  | exactly (n : Nat)
  | between (low high : Nat)
  deriving DecidableEq, Repr

/-- A command, by its path in the tree. Shared flags hold for the commands below too. A command
without an action only shows help. -/
structure Command where
  path : List Text
  aliases : List Text := []
  flags : List Flag := []
  shared : List Flag := []
  arity : Arity := .none
  action : Option Action := none
  deriving DecidableEq, Repr

/-- Why a command line is refused. -/
inductive UsageError where
  | unknownCommand (name path : Text) (meant : List Text)
  | flags (cause : FlagError)
  | wrongCount (wanted : Arity) (count : Nat)
  deriving DecidableEq, Repr

/-- A line with a name that may have been meant. -/
def UsageError.hintLine (name : Text) : Text := "\t" ++ name ++ "\n"

/-- The names that may have been meant, in a message. -/
def UsageError.hint (meant : List Text) : Text :=
  if meant.isEmpty then [] else "\n\nDid you mean this?\n" ++ (meant.map hintLine).flatten

/-- The wording of a refused command line. -/
def UsageError.message : UsageError → Text
  | .unknownCommand name path meant =>
    "unknown command " ++ Quoted.encode name ++ " for " ++ Quoted.encode path ++ hint meant
  | .flags cause => cause.message
  | .wrongCount wanted count =>
    let number : Text := match wanted with
      | .none => "0"
      | .exactly n => Decimal.ofNat n
      | .between low high => "between " ++ Decimal.ofNat low ++ " and " ++ Decimal.ofNat high
    "accepts " ++ number ++ " arg(s), received " ++ Decimal.ofNat count

namespace Command

/-- The name of the program. -/
def program : Text := "modtrace"

/-- The flags of the whole program. -/
def programFlags : List Flag :=
  [⟨"root", .text, some 114⟩, ⟨"config", .text, some 99⟩, ⟨"json", .switch, none⟩,
   ⟨"no-color", .switch, none⟩, ⟨"verbose", .switch, some 118⟩, ⟨"otel-stdout", .switch, none⟩]

/-- The flag that asks for help; every command has it. -/
def helpFlag : Flag := ⟨"help", .switch, some 104⟩

/-- The flag that makes an empty result a failure. -/
def failIfEmpty : Flag := ⟨"fail-if-empty", .switch, none⟩

/-- All commands, the program itself first. -/
def all : List Command :=
  [{ path := [], shared := programFlags },
   { path := ["http-requests"]
     aliases := ["list-http-request"]
     flags := [⟨"pattern", .list, some 112⟩, ⟨"start", .list, some 115⟩, ⟨"entry-subdir", .text, none⟩,
       ⟨"entry-depth", .integer, none⟩, ⟨"chain", .switch, none⟩, failIfEmpty]
     action := some .httpRequests },
   { path := ["expose"]
     aliases := ["list-expose"]
     flags := [⟨"show-dependency", .switch, some 100⟩, ⟨"expose-dir", .text, none⟩]
     action := some .expose },
   { path := ["tables"]
     aliases := ["list-table"]
     flags := [⟨"infra-dir", .text, none⟩]
     action := some .tables },
   { path := ["modules"], flags := [⟨"evidence", .switch, some 101⟩], action := some .modules },
   { path := ["impact"], flags := [failIfEmpty], arity := .exactly 1, action := some .impact },
   { path := ["snapshot"], shared := [⟨"snapshot-dir", .text, none⟩] },
   { path := ["export"] },
   { path := ["watch"]
     flags := [⟨"pattern", .list, some 112⟩, ⟨"chain", .switch, none⟩, ⟨"debounce", .duration, none⟩,
       ⟨"min-interval", .duration, none⟩]
     action := some .watch },
   { path := ["version"], action := some .version },
   { path := ["help"] },
   { path := ["completion"] },
   { path := ["snapshot", "save"]
     flags := [⟨"label", .text, some 108⟩]
     action := some .saveSnapshot },
   { path := ["snapshot", "list"]
     flags := [⟨"limit", .integer, some 110⟩, ⟨"all", .switch, none⟩]
     action := some .listSnapshots },
   { path := ["snapshot", "diff"]
     flags := [failIfEmpty]
     arity := .between 1 2
     action := some .diffSnapshots },
   { path := ["export", "neo4j"]
     flags := [⟨"uri", .text, none⟩, ⟨"user", .text, none⟩, ⟨"password", .text, none⟩,
       ⟨"database", .text, none⟩, ⟨"batch-size", .integer, none⟩, ⟨"clean", .switch, none⟩]
     action := some .exportNeo4j }]

/-- The program itself. -/
def top : Command := { path := [], shared := programFlags }

/-- A command with the names that lead to it. -/
def shownPath (c : Command) : Text := Text.join " " (program :: c.path)

/-- The name of a command. -/
def name (c : Command) : Text := c.path.getLastD program

/-- The commands right below a command. -/
def below (c : Command) : List Command :=
  all.filter fun d => !d.path.isEmpty && d.path.dropLast == c.path

/-- The command of a name or an alias below a command. -/
def child? (c : Command) (name : Text) : Option Command :=
  c.below.find? fun d => d.name == name || d.aliases.contains name

/-- The flags that hold for a command: its own and the shared ones on the way to it. -/
def scope (c : Command) : List Flag :=
  c.flags ++ (all.filter fun d => d.path.isPrefixOf c.path).flatMap (·.shared)

/-- An argument stands before a value of its own: it is a flag, known or not, that is no switch and
has no equals sign. -/
def takesNext (flags : List Flag) (argument : Text) : Bool :=
  if argument.contains 61 then false
  else match argument with
    | 45 :: 45 :: name => !(flags.any fun f => f.name == name && f.kind == .switch)
    | [45, letter] => !(flags.any fun f => f.letter == some letter && f.kind == .switch)
    | _ => false

/-- The words among arguments. A flag before the last argument leaves no words behind it. -/
def wordsAmong (flags : List Flag) : List Text → List Text
  | [] => []
  | argument :: rest =>
    if argument == "--" then []
    else if takesNext flags argument then
      match rest with
      | _ :: next :: rest => wordsAmong flags (next :: rest)
      | _ => []
    else if argument.isEmpty || argument.startsWith "-" then wordsAmong flags rest
    else argument :: wordsAmong flags rest

/-- Takes the first use of a word out of arguments. -/
def without (flags : List Flag) (word : Text) : List Text → List Text
  | [] => []
  | argument :: rest =>
    if argument == "--" then argument :: rest
    else if takesNext flags argument then
      match rest with
      | [] => [argument]
      | value :: rest => argument :: value :: without flags word rest
    else if argument == word then rest
    else argument :: without flags word rest

/-- Goes down in the tree, at most so many steps, as far as words name commands. -/
def descend : Nat → Command → List Text → Command × List Text
  | 0, c, arguments => (c, arguments)
  | steps + 1, c, arguments =>
    match wordsAmong c.scope arguments with
    | [] => (c, arguments)
    | word :: _ =>
      match c.child? word with
      | none => (c, arguments)
      | some d => descend steps d (without c.scope word arguments)

/-- The steps from the program to the commands farthest below. -/
def depth : Nat := 2

/-- The commands that are offered for a word that is none: all but the one for help. -/
def offered : List Text := ((top.below).map (·.name)).filter (· != "help")

/-- Checks the number of words for a command. -/
def checkWords (c : Command) (words : List Text) : Except UsageError Unit :=
  let count := words.length
  match c.arity, words with
  | .none, word :: _ => .error (.unknownCommand word c.shownPath [])
  | .none, [] => .ok ()
  | .exactly n, _ => if count == n then .ok () else .error (.wrongCount c.arity count)
  | .between low high, _ =>
    if low ≤ count && count ≤ high then .ok () else .error (.wrongCount c.arity count)

end Command

/-- What a command line asks for. -/
inductive Invocation where
  | help
  | run (action : Action) (arguments : Arguments)
  deriving DecidableEq, Repr

/-- Reads a command line. -/
def Invocation.read (line : List Text) : Except UsageError Invocation := do
  let (c, rest) := Command.descend Command.depth Command.top line
  match c.path, Command.wordsAmong c.scope rest with
  | [], word :: _ =>
    throw (.unknownCommand word Command.program (Suggestion.among Command.offered word))
  | _, _ =>
    let arguments ← (Arguments.read (Command.helpFlag :: c.scope) rest).mapError .flags
    if arguments.values.isOn Command.helpFlag.name then return .help
    match c.action with
    | none => return .help
    | some action =>
      c.checkWords arguments.words
      return .run action arguments

end ClassAtlas
