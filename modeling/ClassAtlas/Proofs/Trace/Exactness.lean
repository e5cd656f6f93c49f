import ClassAtlas.Proofs.Catalog.StableText
import ClassAtlas.Proofs.Trace.MatchLog
import ClassAtlas.Proofs.Trace.Occurrence
import ClassAtlas.Proofs.Trace.Patterns
import ClassAtlas.Proofs.Trace.Visits
import Mathlib.Data.Set.Card

namespace ClassAtlas.Trace

/-- The file of a class, if it can be read. -/
def file? (catalog : Catalog) (disk : Disk) (cache : TextCache) (name : Text) : Option SourceFile :=
  (catalog.text? disk cache name).map SourceFile.ofText

/-- The line belongs to the method, and a pattern occurs in it. -/
def OccursInMethod (patterns : List Text) (f : SourceFile) (index : Nat) (method : Text) : Prop :=
  ∃ line, f.lines[index]? = some line ∧ (∃ p ∈ patterns, Occurs p line) ∧
    Signature.methodAt f.lines index = method

/-- Entering these classes one after the other is what an exploration from the start does; they are
the classes that it reaches, each of them once. -/
structure Enters (t : Setting) (start : Text) (vs : List (SourceUnit × List Text)) : Prop where
  explore_eq : ∀ budget s, budget.left = none →
    explore t [(start, [])] [] budget s = (.ok budget, vs.foldl (fun s v => enter t v.1 v.2 s) s)
  nodup : (vs.map (·.1.name)).Nodup
  mem_iff : ∀ name, name ∈ vs.map (·.1.name) ↔ Reaches t.catalog t.graph start name
  unit_eq : ∀ v ∈ vs, t.catalog.unit? v.1.name = some v.1

/-- An exploration enters the classes that it reaches one after the other. The start need not be a
class. -/
theorem exists_enters (t : Setting) (hg : t.graph.WellFormed) (start : Text) :
    ∃ vs, Enters t start vs := by
  obtain ⟨vs, hvs⟩ := exists_visits t [(start, [])] []
  refine ⟨vs, ⟨fun _ s hbudget => hvs.explore_eq hbudget s, hvs.nodup hg, fun name => ?_,
    fun v hv => hvs.unit_eq hv⟩⟩
  rw [hvs.mem_iff hg name]
  simp [reachesAvoiding_nil_iff]

/-- It enters as many classes as can be reached. -/
theorem Enters.length_eq {t : Setting} {start : Text} {vs : List (SourceUnit × List Text)}
    (h : Enters t start vs) :
    vs.length = {name | Reaches t.catalog t.graph start name}.ncard := by
  have hset : {name | Reaches t.catalog t.graph start name} =
      ((vs.map (·.1.name)).toFinset : Set Text) := by
    ext name
    simpa using (h.mem_iff name).symm
  rw [hset, Set.ncard_coe_finset, List.toFinset_card_of_nodup h.nodup, List.length_map]

/-- The matches in a class that is entered; there are none if it cannot be read. -/
def matchesAt (t : Setting) (cache : TextCache) (v : SourceUnit × List Text) : List TraceMatch :=
  ((file? t.catalog t.disk cache v.1.name).map fun f => matchesIn t.patterns v.1 v.2 f).getD []

/-- What was read so far is what the texts of the classes were at the beginning. -/
structure Faithful (t : Setting) (cache : TextCache) (s : State) : Prop where
  reads : t.catalog.ReadsTo t.disk cache s.cache
  files : ∀ name f, s.files.find? name = some f → f = file? t.catalog t.disk cache name

variable {t : Setting} {cache : TextCache}

/-- Loading a class gives its file as it was at the beginning, and changes neither the log nor the count
of classes. -/
theorem load_faithful (hstable : t.catalog.StableTexts t.disk cache) (u : SourceUnit) {s : State}
    (h : Faithful t cache s) :
    (load t u s).1 = file? t.catalog t.disk cache u.name ∧
      Faithful t cache (load t u s).2 ∧ (load t u s).2.log = s.log ∧
      (load t u s).2.stats.classesVisited = s.stats.classesVisited := by
  unfold load
  cases hfile : s.files.find? u.name with
  | some f => exact ⟨h.files u.name f hfile, h, rfl, rfl⟩
  | none =>
    have hread : t.catalog.ReadsTo t.disk cache (t.catalog.text t.disk u.name s.cache).2 :=
      h.reads.read u.name
    have htext : (t.catalog.text t.disk u.name s.cache).1.toOption =
        t.catalog.text? t.disk cache u.name := by
      rw [hstable s.cache h.reads u.name, Catalog.text?]
    have hfiles : ∀ f : Option SourceFile, f = file? t.catalog t.disk cache u.name →
        ∀ name f', (s.files.insert u.name f).find? name = some f' →
          f' = file? t.catalog t.disk cache name := by
      intro f hf name f' hf'
      by_cases hname : name = u.name
      · subst hname
        rw [SortedMap.find?_insert_self] at hf'
        rw [← Option.some.inj hf', hf]
      · rw [SortedMap.find?_insert_of_ne _ hname] at hf'
        exact h.files name f' hf'
    rcases hresult : t.catalog.text t.disk u.name s.cache with ⟨text | text, cache'⟩ <;>
      rw [hresult] at hread htext <;> simp only [Except.toOption] at htext
    · have hnone : none = file? t.catalog t.disk cache u.name := by simp [file?, ← htext]
      exact ⟨hnone, ⟨hread, hfiles none hnone⟩, rfl, rfl⟩
    · have hsome : some (SourceFile.ofText text) = file? t.catalog t.disk cache u.name := by
        simp [file?, ← htext]
      exact ⟨hsome, ⟨hread, hfiles _ hsome⟩, rfl, rfl⟩

/-- Entering a class adds its matches to the log and counts it. -/
theorem enter_faithful (hstable : t.catalog.StableTexts t.disk cache) (v : SourceUnit × List Text)
    {s : State} (h : Faithful t cache s) :
    Faithful t cache (enter t v.1 v.2 s) ∧
      (enter t v.1 v.2 s).log = (matchesAt t cache v).foldl MatchLog.add s.log ∧
      (enter t v.1 v.2 s).stats.classesVisited = s.stats.classesVisited + 1 := by
  obtain ⟨hfile, hfaithful, hlog, hvisited⟩ := load_faithful hstable v.1
    (s := { s with stats := { s.stats with classesVisited := s.stats.classesVisited + 1 } })
      ⟨h.reads, h.files⟩
  unfold enter matchesAt
  dsimp only at hfile hfaithful hlog hvisited ⊢
  generalize load t v.1 _ = loaded at hfile hfaithful hlog hvisited ⊢
  obtain ⟨f, s'⟩ := loaded
  dsimp only at hfile hfaithful hlog hvisited
  subst hfile
  cases file? t.catalog t.disk cache v.1.name with
  | none => exact ⟨hfaithful, hlog, hvisited⟩
  | some f =>
    refine ⟨⟨hfaithful.reads, hfaithful.files⟩, ?_, hvisited⟩
    simp only [Option.map_some, Option.getD_some, hlog]

/-- Entering classes one after the other logs what occurs in their files, and counts each class. -/
theorem foldl_enter_faithful (hstable : t.catalog.StableTexts t.disk cache)
    (vs : List (SourceUnit × List Text)) {s : State} (h : Faithful t cache s) :
    let s' := vs.foldl (fun s v => enter t v.1 v.2 s) s
    Faithful t cache s' ∧ s'.log = (vs.flatMap (matchesAt t cache)).foldl MatchLog.add s.log ∧
      s'.stats.classesVisited = s.stats.classesVisited + vs.length := by
  induction vs generalizing s with
  | nil => exact ⟨h, rfl, rfl⟩
  | cons v rest ih =>
    obtain ⟨hfaithful, hlog, hvisited⟩ := enter_faithful hstable v h
    obtain ⟨hfaithful', hlog', hvisited'⟩ := ih hfaithful
    refine ⟨hfaithful', ?_, ?_⟩
    · rw [List.foldl_cons, hlog', hlog, List.flatMap_cons, List.foldl_append]
    · rw [List.foldl_cons, hvisited', hvisited, List.length_cons]
      omega

/-- All the classes entered from a list of starts, and what that leaves behind. -/
theorem fromStarts_faithful (hg : t.graph.WellFormed) (hstable : t.catalog.StableTexts t.disk cache)
    (starts : List Text) {budget : Budget} (hbudget : budget.left = none) {s : State}
    (h : Faithful t cache s) :
    ∃ (vs : List (SourceUnit × List Text)) (s' : State), fromStarts t starts budget s = (none, s') ∧
      s'.log = (vs.flatMap (matchesAt t cache)).foldl MatchLog.add s.log ∧
      (∀ v ∈ vs, t.catalog.unit? v.1.name = some v.1) ∧
      (∀ name, name ∈ vs.map (·.1.name) ↔ ∃ start ∈ starts, Reaches t.catalog t.graph start name) ∧
      s'.stats.classesVisited = s.stats.classesVisited +
        (starts.map fun start => {name | Reaches t.catalog t.graph start name}.ncard).sum := by
  induction starts generalizing s with
  | nil => exact ⟨[], s, rfl, rfl, by simp, by simp, rfl⟩
  | cons start rest ih =>
    unfold fromStarts
    by_cases hcontains : t.catalog.contains start = true
    · simp only [hcontains, if_true]
      obtain ⟨first, hfirst⟩ := exists_enters t hg start
      rw [hfirst.explore_eq _ _ hbudget]
      obtain ⟨hfaithful, hlog, hvisited⟩ := foldl_enter_faithful hstable first
        (s := { s with stats := { s.stats with startClasses := s.stats.startClasses + 1 } })
          ⟨h.reads, h.files⟩
      obtain ⟨vs, s', hrun, hlog', hunits, hnames, hvisited'⟩ := ih hfaithful
      refine ⟨first ++ vs, s', hrun, ?_, ?_, ?_, ?_⟩
      · rw [hlog', hlog, List.flatMap_append, List.foldl_append]
      · intro v hv
        rcases List.mem_append.mp hv with hv | hv
        · exact hfirst.unit_eq v hv
        · exact hunits v hv
      · intro name
        rw [List.map_append, List.mem_append, hfirst.mem_iff, hnames]
        simp
      · rw [hvisited', hvisited, hfirst.length_eq, List.map_cons, List.sum_cons, Nat.add_assoc]
    · simp only [hcontains]
      obtain ⟨vs, s', hrun, hlog, hunits, hnames, hvisited⟩ := ih
        (s := { s with stats := { s.stats with skippedStarts := s.stats.skippedStarts + 1 } })
          ⟨h.reads, h.files⟩
      -- nothing is reachable from a class that is not in the catalog
      have hnone : ∀ name, ¬ Reaches t.catalog t.graph start name :=
        fun _ hreach => hcontains hreach.1
      refine ⟨vs, s', hrun, hlog, hunits, ?_, ?_⟩
      · intro name
        rw [hnames]
        simp [hnone]
      · rw [hvisited]
        simp [hnone]

/-- The log of the matches in the classes entered has a match exactly for the methods of these
classes in which a pattern occurs. -/
theorem contains_log_iff {vs : List (SourceUnit × List Text)} (className method : Text) :
    ((vs.flatMap (matchesAt t cache)).foldl MatchLog.add MatchLog.empty).contains
        className method = true ↔
      className ∈ vs.map (·.1.name) ∧ ∃ f, file? t.catalog t.disk cache className = some f ∧
        ∃ i, OccursInMethod t.patterns f i method := by
  rw [← MatchLog.isSome_find?, MatchLog.find?_foldl_add]
  simp only [MatchLog.find?, MatchLog.empty, List.find?_nil, Option.none_or, List.find?_isSome,
    List.mem_flatMap, TraceMatch.isAt_iff]
  constructor
  · rintro ⟨m, ⟨v, hv, hm⟩, rfl, rfl⟩
    unfold matchesAt at hm
    cases hfile : file? t.catalog t.disk cache v.1.name with
    | none => simp [hfile] at hm
    | some f =>
      rw [hfile, Option.map_some, Option.getD_some] at hm
      rw [className_of_mem_matchesIn hm]
      obtain ⟨i, line, hline, hpattern, hmethod⟩ := exists_match_iff.mp ⟨m, hm, rfl⟩
      exact ⟨List.mem_map_of_mem hv, f, hfile, i, line, hline, hpattern, hmethod⟩
  · rintro ⟨hclass, f, hfile, i, line, hline, hpattern, hmethod⟩
    obtain ⟨v, hv, rfl⟩ := List.mem_map.mp hclass
    obtain ⟨m, hm, hmethod⟩ := (exists_match_iff (u := v.1) (f := f)).mpr ⟨i, line, hline, hpattern,
      hmethod⟩
    refine ⟨m, ⟨v, hv, ?_⟩, className_of_mem_matchesIn hm, hmethod⟩
    rw [matchesAt, hfile]
    exact hm

/-- Every match of that log reports the first line of its method in which a pattern occurs. -/
theorem log_entry_reports {vs : List (SourceUnit × List Text)}
    (hunits : ∀ v ∈ vs, t.catalog.unit? v.1.name = some v.1)
    {m : TraceMatch}
      (hm : m ∈ ((vs.flatMap (matchesAt t cache)).foldl MatchLog.add MatchLog.empty).entries) :
    ∃ u f i line, t.catalog.unit? m.className = some u ∧ m.module = u.module ∧
      file? t.catalog t.disk cache m.className = some f ∧ f.lines[i]? = some line ∧
      Reports t.patterns f i line m ∧ ∀ j < i, ¬ OccursInMethod t.patterns f j m.method := by
  have hfind := MatchLog.onePerMethod_empty.foldl_add _ m hm
  rw [MatchLog.find?_foldl_add] at hfind
  simp only [MatchLog.find?, MatchLog.empty, List.find?_nil, Option.none_or,
    List.find?_flatMap] at hfind
  obtain ⟨v, hv, hfind⟩ := List.exists_of_findSome?_eq_some hfind
  unfold matchesAt at hfind
  cases hfile : file? t.catalog t.disk cache v.1.name with
  | none => simp [hfile] at hfind
  | some f =>
    rw [hfile, Option.map_some, Option.getD_some] at hfind
    have hmem := List.mem_of_find?_eq_some hfind
    have hclass := className_of_mem_matchesIn hmem
    rw [hclass] at hfind
    obtain ⟨i, line, hline, hreports, -, hbefore⟩ := find?_matchesIn hfind
    refine ⟨v.1, f, i, line, hclass ▸ hunits v hv, module_of_mem_matchesIn hmem, hclass ▸ hfile,
      hline, hreports, ?_⟩
    rintro j hj ⟨line', hline', hpattern, hmethod⟩
    exact hbefore j hj line' hline' hpattern hmethod

/-- A trace that is not interrupted is sound and complete. From every start it enters exactly the
classes of the catalog that are reachable through classes of the catalog, each once. Its log has a
match for a method of a class exactly if that class was entered and readable and a pattern occurs
in the method, and the match reports the first such line with the first pattern that occurs
there. -/
theorem run_exact {catalog : Catalog} {disk : Disk} {graph : ClassGraph}
    (starts patterns : List Text) {budget : Budget} {cache : TextCache} (hgraph : graph.Reachable)
    (htexts : catalog.StableTexts disk cache)
    (hpattern : ∃ p ∈ patterns, Blank.trim p ≠ []) (hbudget : budget.left = none) :
    let out := run catalog disk graph starts patterns budget cache
    out.failure = none ∧
      (∀ start, catalog.contains start = true → ∃ vs,
        Enters ⟨catalog, disk, graph, normalize patterns⟩ start vs) ∧
      out.stats.classesVisited = (starts.map fun start =>
        {name | Reaches catalog graph start name}.ncard).sum ∧
      (∀ className method, out.log.contains className method = true ↔
        (∃ start ∈ starts, Reaches catalog graph start className) ∧
          ∃ f, file? catalog disk cache className = some f ∧ ∃ i,
            OccursInMethod (normalize patterns) f i method) ∧
      out.log.OnePerMethod ∧
      ∀ m ∈ out.log.entries, ∃ u f i line, catalog.unit? m.className = some u ∧
        m.module = u.module ∧
        file? catalog disk cache m.className = some f ∧ f.lines[i]? = some line ∧
          Reports (normalize patterns) f i line m ∧
        ∀ j < i, ¬ OccursInMethod (normalize patterns) f j m.method := by
  intro out
  let t : Setting := ⟨catalog, disk, graph, normalize patterns⟩
  have hg : t.graph.WellFormed := hgraph.wellFormed
  obtain ⟨vs, s, hrun, hlog, hunits, hnames, hvisited⟩ :=
    fromStarts_faithful hg (t := t) htexts starts hbudget
      (s := ⟨MatchLog.empty, {}, SortedMap.empty, cache⟩) ⟨.none, by simp [SortedMap.find?_empty]⟩
  have hout : out = ⟨s.log, { s.stats with matchCount := s.log.size }, none, s.cache⟩ := by
    have hne : (normalize patterns).isEmpty = false := by simpa using normalize_ne_nil hpattern
    change run catalog disk graph starts patterns budget cache = _
    simp [run, hne, t, hrun]
  rw [hout, hlog]
  refine ⟨rfl, fun start _ => exists_enters t hg start, by rw [hvisited, Nat.zero_add], ?_,
    MatchLog.onePerMethod_empty.foldl_add _, fun m hm => log_entry_reports hunits hm⟩
  intro className method
  rw [contains_log_iff className method, hnames]

/-- Two classes that refer to each other; one of them refers to a class that has no file as well. -/
def mutualGraph : ClassGraph :=
  (ClassGraph.new "/" ⟨10, 10⟩).runCalls [
    .addNode ⟨"A", [], "/A", "m"⟩, .addNode ⟨"B", [], "/B", "m"⟩, .addNode ⟨"C", [], "/C", "m"⟩,
    .addEdge "A" "C" ⟨1⟩, .addEdge "A" "B" ⟨1⟩, .addEdge "B" "A" ⟨2⟩]

/-- The two classes without the third. -/
def mutualCatalog : Catalog :=
  ⟨"/", [], (UnitMap.empty.add ⟨"A", [], "/A", "m"⟩).add ⟨"B", [], "/B", "m"⟩, ["m"], [], {}⟩

/-- A disk on which only the second class can be read. -/
def mutualDisk : Disk := (Disk.blank "/").put ["B"] (.file "void go() \x7b\n send(x);")

/-- The second class can be read. -/
theorem mutualDisk_readFile :
    mutualDisk.readFile "/B" = .ok (Text.ofString "void go() \x7b\n send(x);") := by
  have hnode : mutualDisk.node? [Text.ofString "B"] = some (.file "void go() \x7b\n send(x);") := by
    decide
  have hfind : mutualDisk.nodes.find? [Text.ofString "B"] =
      some (.file "void go() \x7b\n send(x);") := hnode
  have hpath : Text.ofString "/B" ≠ [] ∧ mutualDisk.locate "/B" = [Text.ofString "B"] ∧
      (Text.ofString "B" == Path.here) = false ∧ (Text.ofString "B" == Path.up) = false := by
    decide
  have hplace : mutualDisk.resolve true "/B" = .ok [Text.ofString "B"] := by
    simp [Disk.resolve, hpath, Disk.maxLinks, Disk.walkTo, Disk.walk, Disk.node?, hfind]
  have hreadable : mutualDisk.isReadable [Text.ofString "B"] = true := by decide
  simp [Disk.readFile, Disk.openAt, hplace, hnode, hreadable, bind, Except.bind]

/-- The texts of the two classes are stable. -/
theorem mutual_stableTexts : mutualCatalog.StableTexts mutualDisk (TextCache.ofSize 4) :=
  Catalog.stableTexts_of_agrees fun _ _ h => by simp [TextCache.find?, TextCache.ofSize] at h

/-- The second class is reached from the first. -/
theorem mutual_reaches : Reaches mutualCatalog mutualGraph "A" "B" := by
  have hcatalog : mutualCatalog.contains "A" = true ∧ mutualCatalog.contains "B" = true := by
    decide
  have hedge : mutualGraph.hasEdge "A" "B" = true := by decide
  exact ⟨hcatalog.1, .single ⟨hedge, hcatalog.2⟩⟩

/-- The pattern occurs in a method of the second class. -/
theorem mutual_occurs : ∃ f, file? mutualCatalog mutualDisk (TextCache.ofSize 4) "B" = some f ∧
    ∃ i, OccursInMethod (normalize ["SEND("]) f i "go" := by
  have htext : mutualCatalog.text? mutualDisk (TextCache.ofSize 4) "B" =
      some (Text.ofString "void go() \x7b\n send(x);") := by
    have hunit : mutualCatalog.unit? "B" = some ⟨"B", [], "/B", "m"⟩ := by decide
    simp [Catalog.text?, Catalog.text, hunit, TextCache.read, TextCache.find?, TextCache.ofSize,
      mutualDisk_readFile, Except.toOption]
  have hfile : file? mutualCatalog mutualDisk (TextCache.ofSize 4) "B" =
      some (SourceFile.ofText "void go() \x7b\n send(x);") := by rw [file?, htext]; rfl
  refine ⟨_, hfile, 1, " send(x);", by decide,
    ⟨"SEND(", by decide, " ", "send(", "x);", ?_, ?_⟩, ?_⟩
  · decide
  · decide
  · decide

/-- A trace through a cycle logs the method once it has reached its class. -/
theorem run_exact_in_cycle :
    mutualGraph.Reachable ∧ mutualCatalog.StableTexts mutualDisk (TextCache.ofSize 4) ∧
    (∃ p ∈ [("SEND(" : Text)], Blank.trim p ≠ []) ∧ Budget.unlimited.left = none ∧
    (run mutualCatalog mutualDisk mutualGraph ["A"] ["SEND("] Budget.unlimited
      (TextCache.ofSize 4)).log.contains "B" "go" = true := by
  have hgraph : mutualGraph.Reachable := ⟨_, _, _, rfl⟩
  have hpattern : ∃ p ∈ [("SEND(" : Text)], Blank.trim p ≠ [] :=
    ⟨_, List.mem_singleton.mpr rfl, by decide⟩
  have hunlimited : Budget.unlimited.left = none := rfl
  refine ⟨hgraph, mutual_stableTexts, hpattern, hunlimited, ?_⟩
  obtain ⟨-, -, -, hcontains, -⟩ :=
    run_exact ["A"] ["SEND("] hgraph mutual_stableTexts hpattern hunlimited
  exact (hcontains "B" "go").mpr ⟨⟨"A", by simp, mutual_reaches⟩, mutual_occurs⟩

end ClassAtlas.Trace
