import ClassAtlas.Collection.SortedMap
import ClassAtlas.Json.Basic
import ClassAtlas.Source.ClassName

namespace ClassAtlas

/-- A line of a class in which a pattern occurs. -/
structure TraceMatch where
  chain : List Text
  className : Text
  line : Int
  lineText : Text
  method : Text
  module : Text
  pattern : Text
  rawArgument : Text
  resolvedArgument : Text
  deriving DecidableEq, Repr

namespace TraceMatch

/-- The call has an argument. -/
def hasArgument (m : TraceMatch) : Bool := !m.rawArgument.isEmpty

/-- The argument as it is shown: resolved, or as written if that is empty. -/
def shownArgument (m : TraceMatch) : Text :=
  if m.resolvedArgument.isEmpty then m.rawArgument else m.resolvedArgument

/-- The class and the method of the match. -/
def key (m : TraceMatch) : Text × Text := (m.className, m.method)

/-- The match is in this class and method. -/
def isAt (m : TraceMatch) (className method : Text) : Bool :=
  m.className == className && m.method == method

/-- The match as JSON. -/
def toJson (m : TraceMatch) : Json :=
  .ofGroups [[("class_chain", .texts m.chain), ("matched_class", .str m.className),
    ("line_number", .int m.line), ("line_text", .str m.lineText), ("method_name", .str m.method),
    ("module", .str m.module), ("pattern", .str m.pattern)],
    Json.nonempty "raw_argument" m.rawArgument,
    Json.nonempty "resolved_argument" m.resolvedArgument]

end TraceMatch

/-- The matches of a module. -/
structure ModuleGroup where
  module : Text
  found : List TraceMatch
  deriving DecidableEq, Repr

namespace ModuleGroup

/-- The group as JSON. -/
def toJson (g : ModuleGroup) : Json :=
  .obj [("module", .str g.module), ("matches", .arr (g.found.map (·.toJson)))]

/-- Groups as JSON; no groups are null. -/
def listJson (gs : List ModuleGroup) : Json :=
  if gs.isEmpty then .null else .arr (gs.map toJson)

end ModuleGroup

/-- Matches in the order in which they were found, one for every class and method, and the set of these
classes and methods. -/
structure MatchLog where
  entries : List TraceMatch
  seen : SortedSet (Text × Text)
  seen_iff : ∀ key, seen.contains key = true ↔ ∃ m ∈ entries, m.key = key

namespace MatchLog

/-- The log without matches. -/
def empty : MatchLog where
  entries := []
  seen := SortedMap.empty
  seen_iff key := by simp [SortedMap.contains, SortedMap.find?, SortedMap.findIn, SortedMap.empty]

/-- There is a match in this class and method. -/
def contains (log : MatchLog) (className method : Text) : Bool := log.seen.contains (className, method)

/-- A match at the end goes with its class and method in the set. -/
theorem seen_add_iff (log : MatchLog) (m : TraceMatch) (key : Text × Text) :
    (log.seen.add m.key).contains key = true ↔ ∃ m' ∈ log.entries ++ [m], m'.key = key := by
  simp only [SortedSet.add, SortedMap.contains_insert, Bool.or_eq_true, decide_eq_true_eq, log.seen_iff,
    List.mem_append, List.mem_singleton]
  constructor
  · rintro (rfl | ⟨m', hm', hkey⟩)
    · exact ⟨m, .inr rfl, rfl⟩
    · exact ⟨m', .inl hm', hkey⟩
  · rintro ⟨m', hm' | rfl, rfl⟩
    · exact .inr ⟨m', hm', rfl⟩
    · exact .inl rfl

/-- Adds a match unless there is already one in its class and method, and tells whether it was added. -/
def record (log : MatchLog) (m : TraceMatch) : MatchLog × Bool :=
  if log.seen.contains m.key then (log, false)
  else (⟨log.entries ++ [m], log.seen.add m.key, log.seen_add_iff m⟩, true)

/-- Adds a match unless there is already one in its class and method. -/
def add (log : MatchLog) (m : TraceMatch) : MatchLog := (log.record m).1

/-- The number of matches. -/
def size (log : MatchLog) : Nat := log.entries.length

/-- An integer as a key: negative numbers first, from the least to the greatest. -/
def lineKey : Int → Nat × Nat
  | .negSucc n => (0, (1 <<< 64) - n)
  | .ofNat n => (1, n)

/-- The order of matches within a module: by class, method and line. -/
def sortKey (m : TraceMatch) : Text × Text × Nat × Nat := (m.className, m.method, lineKey m.line)

/-- Groups under way, in the order of their first matches, and the place of the group of each module. -/
structure Grouping where
  groups : List ModuleGroup
  index : SortedMap Text Nat

/-- No groups. -/
def Grouping.empty : Grouping := ⟨[], SortedMap.empty⟩

/-- Puts a match at the end of the group of its module, or into a group of its own if there is none. -/
def Grouping.add (g : Grouping) (m : TraceMatch) : Grouping :=
  match g.index.find? m.module with
  | some i => { g with groups := g.groups.modify i fun group => { group with found := group.found ++ [m] } }
  | none => ⟨g.groups ++ [⟨m.module, [m]⟩], g.index.insert m.module g.groups.length⟩

/-- The group with its matches by class, method and line. -/
def sortGroup (g : ModuleGroup) : ModuleGroup := { g with found := sortBy sortKey g.found }

/-- The matches by module, and within a module by class, method and line. -/
def groups (log : MatchLog) : List ModuleGroup :=
  (sortBy (·.module) (log.entries.foldl Grouping.add .empty).groups).map sortGroup

end MatchLog

end ClassAtlas
