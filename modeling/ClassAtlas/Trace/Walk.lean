import ClassAtlas.Collection.Unvisited
import ClassAtlas.Graph.Basic
import ClassAtlas.Interrupt
import ClassAtlas.Text.Case
import ClassAtlas.Trace.Argument
import ClassAtlas.Trace.Match
import ClassAtlas.Trace.Signature

namespace ClassAtlas

/-- Why a trace stopped, or did not begin. -/
inductive TraceError where
  | absentInput
  | noPatterns
  | interrupted (cause : Interruption)
  deriving DecidableEq, Repr

/-- The wording of a failed trace. -/
def TraceError.message : TraceError → Text
  | .absentInput => "registry and class graph are required"
  | .noPatterns => "at least one search pattern is required"
  | .interrupted i => i.message

/-- What a trace came across. -/
structure TraceStats where
  startClasses : Nat := 0
  skippedStarts : Nat := 0
  classesVisited : Nat := 0
  unreadable : Nat := 0
  candidates : Nat := 0
  matchCount : Nat := 0
  deriving DecidableEq, Repr

namespace TraceStats

/-- The counts as JSON. -/
def toJson (s : TraceStats) : Json :=
  .obj [("start_classes", .nat s.startClasses), ("skipped_starts", .nat s.skippedStarts),
    ("classes_visited", .nat s.classesVisited), ("unreadable", .nat s.unreadable),
    ("candidates", .nat s.candidates), ("matches", .nat s.matchCount)]

end TraceStats

namespace Trace

/-- The patterns without blanks around them and without repetitions that differ in case only. -/
def normalize (patterns : List Text) : List Text :=
  let trimmed := (patterns.map Blank.trim).filter (!·.isEmpty)
  (trimmed.foldl (fun (acc : List Text × List Text) p =>
    let key := Case.lowerText p
    if acc.2.contains key then acc else (acc.1 ++ [p], key :: acc.2)) ([], [])).1

/-- A source file as the trace sees it. -/
structure SourceFile where
  lines : List Text
  declared : Declarations

/-- The lines and string constants of a text. -/
def SourceFile.ofText (t : Text) : SourceFile :=
  let t := t.unixLines
  ⟨t.lines, Declarations.ofText t⟩

/-- What a trace works with. -/
structure Setting where
  catalog : Catalog
  disk : Disk
  graph : ClassGraph
  patterns : List Text

/-- What a trace has collected, and the files it has read. A file that could not be read is
remembered as well. -/
structure State where
  log : MatchLog
  stats : TraceStats
  files : SortedMap Text (Option SourceFile)
  cache : TextCache

/-- The match in a line, if a pattern occurs there. The first pattern of the list wins. -/
def matchLine? (patterns : List Text) (u : SourceUnit) (chain : List Text) (f : SourceFile)
    (index : Nat) (line : Text) : Option TraceMatch :=
  match patterns.find? (Argument.mentions line) with
  | none => none
  | some pattern =>
    let raw := (Argument.first? line pattern).getD []
    some {
      chain := chain
      className := u.name
      line := index + 1
      lineText := Blank.trim line
      method := Signature.methodAt f.lines index
      module := u.module
      pattern := pattern
      rawArgument := raw
      resolvedArgument := if raw.isEmpty then [] else Argument.resolve f.declared raw }

/-- The matches of a file, from its first line to its last. -/
def matchesIn (patterns : List Text) (u : SourceUnit) (chain : List Text) (f : SourceFile) :
    List TraceMatch :=
  f.lines.zipIdx.filterMap fun (line, index) => matchLine? patterns u chain f index line

/-- The file of a class, read at most once in a trace. -/
def load (t : Setting) (u : SourceUnit) (s : State) : Option SourceFile × State :=
  match s.files.find? u.name with
  | some f => (f, s)
  | none =>
    match t.catalog.text t.disk u.name s.cache with
    | (.ok text, cache) =>
      let f := some (SourceFile.ofText text)
      (f, { s with files := s.files.insert u.name f, cache := cache })
    | (.error _, cache) =>
      (none, { s with
        files := s.files.insert u.name none
        cache := cache
        stats := { s.stats with unreadable := s.stats.unreadable + 1 } })

/-- Looks for the patterns in a class that was reached along a chain of classes. -/
def enter (t : Setting) (u : SourceUnit) (chain : List Text) (s : State) : State :=
  let s := { s with stats := { s.stats with classesVisited := s.stats.classesVisited + 1 } }
  match load t u s with
  | (none, s) => s
  | (some f, s) =>
    let found := matchesIn t.patterns u chain f
    { s with
      log := found.foldl MatchLog.add s.log
      stats := { s.stats with candidates := s.stats.candidates + found.length } }

/-- Works through the classes still to visit, each with the chain that led to it, with one check
before each of them. -/
def explore (t : Setting) (todo : List (Text × List Text)) (visited : List Text) (budget : Budget)
    (s : State) : Except Interruption Budget × State :=
  match todo with
  | [] => (.ok budget, s)
  | (name, chain) :: rest =>
    match budget.check with
    | .error i => (.error i, s)
    | .ok budget' =>
      if _ : visited.contains name then explore t rest visited budget' s
      else
        match _ : t.catalog.unit? name with
        | none => explore t rest (name :: visited) budget' s
        | some u =>
          let chain' := chain ++ [name]
          let next := ((t.graph.dependencies? name).getD []).map fun d => (d, chain')
          explore t (next ++ rest) (name :: visited) budget' (enter t u chain' s)
termination_by (unvisited t.catalog.names visited, todo.length)
decreasing_by
  · exact Prod.Lex.right _ (by simp)
  · have hle : unvisited t.catalog.names (name :: visited) ≤ unvisited t.catalog.names visited :=
      unvisited_le fun n hn => List.mem_cons_of_mem _ hn
    rcases Nat.lt_or_eq_of_le hle with hlt | heq
    · exact Prod.Lex.left _ _ hlt
    · rw [heq]
      exact Prod.Lex.right _ (by simp)
  · rename_i hseen hunit
    exact Prod.Lex.left _ _
      (unvisited_lt (SortedMap.mem_keys_of_find? hunit) (by simpa using hseen) (List.mem_cons_self ..)
        fun n hn => List.mem_cons_of_mem _ hn)

/-- Traces from one start after the other. A start that is no class of the catalog is skipped. -/
def fromStarts (t : Setting) : List Text → Budget → State → Option Interruption × State
  | [], _, s => (none, s)
  | start :: rest, budget, s =>
    if t.catalog.contains start then
      let s := { s with stats := { s.stats with startClasses := s.stats.startClasses + 1 } }
      match explore t [(start, [])] [] budget s with
      | (.error i, s) => (some i, s)
      | (.ok budget', s) => fromStarts t rest budget' s
    else
      fromStarts t rest budget
        { s with stats := { s.stats with skippedStarts := s.stats.skippedStarts + 1 } }

/-- The outcome of a trace. What was found before an interruption is kept. -/
structure Outcome where
  log : MatchLog
  stats : TraceStats
  failure : Option TraceError
  cache : TextCache

/-- The catalog, with the texts read last, and the graph that a trace needs, if both are there. -/
def inputs (catalog : Option (Catalog × TextCache)) (graph : Option ClassGraph) :
    Except TraceError (Catalog × TextCache × ClassGraph) :=
  match catalog, graph with
  | some (c, cache), some g => .ok (c, cache, g)
  | _, _ => .error .absentInput

/-- Traces the patterns from the start classes. -/
def run (catalog : Catalog) (disk : Disk) (graph : ClassGraph) (starts patterns : List Text)
    (budget : Budget) (cache : TextCache) : Outcome :=
  let patterns := normalize patterns
  if patterns.isEmpty then ⟨MatchLog.empty, {}, some .noPatterns, cache⟩
  else
    let (stopped, s) := fromStarts ⟨catalog, disk, graph, patterns⟩ starts budget
      ⟨MatchLog.empty, {}, SortedMap.empty, cache⟩
    ⟨s.log, { s.stats with matchCount := s.log.size }, stopped.map .interrupted, s.cache⟩

/-- The directory that entry classes lie in, if none is given. -/
def defaultEntryDir : Text := "application"

/-- How deep the directory of entry classes may lie, if no depth is given. -/
def defaultEntryDepth : Nat := 4

/-- The entry classes: those with a directory of the given name among the first directories of
their path. -/
def entryClasses (c : Catalog) (dir : Text) (depth : Int) : List Text :=
  let dir := if dir.isEmpty then defaultEntryDir else dir
  let depth := if depth < 1 then defaultEntryDepth else depth.toNat
  (c.list.filter fun u =>
    ((((c.relPath u.path).split Text.slash).dropLast).take depth).contains dir).map (·.name)

end Trace

end ClassAtlas
