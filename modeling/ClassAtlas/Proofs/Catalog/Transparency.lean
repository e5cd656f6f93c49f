import ClassAtlas.Expose.Callers
import ClassAtlas.Graph.Build
import ClassAtlas.Proofs.Catalog.Readings
import ClassAtlas.Proofs.Dependency.Extract
import ClassAtlas.Proofs.Trace.Plan

namespace ClassAtlas

variable {d : Disk}

/-- The dependencies of a class are settled by the disk, and so is the text that is read for them. -/
theorem Extractor.settled_extractFor (x : Extractor) (d : Disk) (name : Text) :
    Settled d Prod.mk (x.extractFor d name) := by
  have hextract : x.extractFor d name = fun cache => (x.text d name cache).map (·.map fun t =>
      (x.extract t).filter fun dep => dep.target != name) id := by
    funext cache
    exact Dependency.extractFor_eq x d name cache
  rw [hextract]
  exact (Settled.text x d name).map _

namespace Build

/-- The build, with another cache. -/
def withCache (b : Build) (cache : TextCache) : Build := { b with cache }

/-- Adding modules does not look at the cache. -/
theorem addModules_withCache (modules : List Text) (b : Build) (cache : TextCache) :
    addModules modules (b.withCache cache) = (addModules modules b).withCache cache := by
  induction modules generalizing b with
  | nil => rfl
  | cons m rest ih =>
    have hgraph : (b.withCache cache).graph = b.graph := rfl
    rw [addModules, addModules, hgraph]
    cases b.graph.addModule m with
    | error e => rfl
    | ok g => exact ih { b with graph := g }

/-- Adding classes does not look at the cache. -/
theorem addClasses_withCache (units : List SourceUnit) (b : Build) (cache : TextCache) :
    addClasses units (b.withCache cache) = (addClasses units b).withCache cache := by
  induction units generalizing b with
  | nil => rfl
  | cons u rest ih =>
    have hgraph : (b.withCache cache).graph = b.graph := rfl
    rw [addClasses, addClasses, hgraph]
    cases b.graph.addNode u with
    | error e => rfl
    | ok g => exact ih { b with graph := g, stats := { b.stats with nodes := b.stats.nodes + 1 } }

/-- Adding dependencies does not look at the cache. -/
theorem addDependencies_withCache (source : Text) (deps : List Dependency) (b : Build)
    (cache : TextCache) :
    addDependencies source deps (b.withCache cache) =
      (addDependencies source deps b).withCache cache := by
  induction deps generalizing b with
  | nil => rfl
  | cons dep rest ih =>
    have hgraph : (b.withCache cache).graph = b.graph := rfl
    rw [addDependencies, addDependencies, hgraph]
    cases b.graph.addEdge source dep.target dep.rules with
    | error e => rfl
    | ok g => exact ih { b with graph := g }

/-- Finishing a class does not look at the cache. -/
theorem finishClass_withCache (every total done : Nat) (b : Build) (cache : TextCache) :
    finishClass every total done (b.withCache cache) =
      (finishClass every total done b).withCache cache := by
  unfold finishClass
  dsimp only
  split
  · rfl
  · rfl

/-- Two settled steps are settled one after the other, also if the second is not taken. -/
theorem settled_andThen {f : TextCache → Build} {next : Build → Build} (hf : Settled d withCache f)
    (hnext : ∀ b, Settled d withCache fun cache => next (withCache b cache)) :
    Settled d withCache fun cache => (f cache).andThen next := by
  apply hf.bind (g := fun b => b.andThen next)
  intro b
  have hfailure : ∀ cache, (b.withCache cache).failure = b.failure := fun _ => rfl
  unfold andThen
  simp only [hfailure]
  split
  · exact .pure _ b
  · exact hnext b

/-- Dealing with a class is settled by the disk. -/
theorem settled_extractClass (x : Extractor) (every total done : Nat) (name : Text) (b : Build) :
    Settled d withCache fun cache => extractClass x d every total done name (b.withCache cache) := by
  obtain ⟨result, paths, hextract⟩ := x.settled_extractFor d name
  have hfound : ∀ cache, cache.Agrees d → x.extractFor d name (b.withCache cache).cache =
      (result, cache.afterReading d paths) := hextract
  cases result with
  | error e =>
    refine ⟨{ b with
      fileErrors := b.fileErrors ++ [⟨name, e⟩]
      stats := { b.stats with failed := b.stats.failed + 1 } }, paths, ?_⟩
    intro cache hcache
    simp only [extractClass, hfound cache hcache]
    rfl
  | ok found =>
    have hrest : Settled d withCache fun cache =>
        (addDependencies name found (b.withCache cache)).andThen (finishClass every total done) := by
      apply settled_andThen
      · simp only [addDependencies_withCache]
        exact .pure _ _
      · intro b'
        simp only [finishClass_withCache]
        exact .pure _ _
    obtain ⟨b', more, hb'⟩ := hrest
    refine ⟨b', paths ++ more, ?_⟩
    intro cache hcache
    simp only [extractClass, hfound cache hcache]
    rw [TextCache.afterReading_append]
    exact hb' _ (hcache.afterReading paths)

/-- Dealing with classes one after the other is settled by the disk, wherever the checks stop this. -/
theorem settled_extractEdges (x : Extractor) (every total done : Nat) (names : List Text)
    (budget : Budget) (b : Build) : Settled d withCache fun cache =>
      extractEdges x d every total done names budget (b.withCache cache) := by
  induction names generalizing done budget b with
  | nil => exact .pure _ b
  | cons name rest ih =>
    unfold extractEdges
    cases budget.check with
    | error i => exact .pure _ (b.fail (.cancelled i))
    | ok budget' =>
      apply settled_andThen
      · exact settled_extractClass x every total (done + 1) name b
      · exact ih (done + 1) budget'

/-- A build is settled by the disk, finished or not. -/
theorem settled_run (x : Extractor) (d : Disk) (options : BuildOptions) (budget : Budget) (now : Int) :
    Settled d withCache (run x d options budget now) := by
  let start : Build :=
    ⟨ClassGraph.new x.root options.limits, none, [], {}, [], none, TextCache.ofSize 0⟩
  have hmodules : Settled d withCache fun cache => addModules x.modules (start.withCache cache) := by
    simp only [addModules_withCache]
    exact .pure _ _
  unfold run
  refine settled_andThen (settled_andThen (settled_andThen hmodules ?_) ?_) ?_
  · intro b
    simp only [addClasses_withCache]
    exact .pure _ _
  · intro b
    exact settled_extractEdges x _ x.size 0 x.names budget (b.report .collecting x.size 0)
  · intro b
    exact .pure _ (finish now x.size b)

end Build

namespace Trace

/-- What a trace has collected, with another cache. -/
def State.withCache (s : State) (cache : TextCache) : State := { s with cache }

/-- The file that a trace sees is one that it has seen before, or what the disk has. -/
theorem settled_enter (t : Setting) (u : SourceUnit) (chain : List Text) (s : State) :
    Settled t.disk State.withCache fun cache => enter t u chain (s.withCache cache) := by
  obtain ⟨result, paths, htext⟩ := Settled.text t.catalog t.disk u.name
  let blank := s.withCache (TextCache.ofSize 0)
  have hfile : ∀ cache, cache.Agrees t.disk → fileSeen t u (s.withCache cache) = fileSeen t u blank := by
    intro cache hcache
    have hresult : t.catalog.text? t.disk cache u.name =
        t.catalog.text? t.disk (TextCache.ofSize 0) u.name := by
      rw [Catalog.text?, Catalog.text?, htext cache hcache, htext _ (TextCache.agrees_ofSize t.disk 0)]
    simp only [fileSeen, file?, blank, State.withCache, hresult]
  have hunreadable : ∀ cache, cache.Agrees t.disk →
      newlyUnreadable t u (s.withCache cache) = newlyUnreadable t u blank := by
    intro cache hcache
    rw [newlyUnreadable, newlyUnreadable, hfile cache hcache]
    rfl
  have hread : ∀ cache, cache.Agrees t.disk → cacheSeen t u (s.withCache cache) =
      cache.afterReading t.disk (if s.files.find? u.name = none then paths else []) := by
    intro cache hcache
    have hlater : (t.catalog.text t.disk u.name cache).2 = cache.afterReading t.disk paths := by
      rw [htext cache hcache]
    simp only [cacheSeen, State.withCache, hlater]
    split
    · rfl
    · rfl
  refine ⟨enter t u chain blank, if s.files.find? u.name = none then paths else [], ?_⟩
  intro cache hcache
  dsimp only
  rw [enter_eq, enter_eq, hfile cache hcache, hunreadable cache hcache, hread cache hcache]
  rfl

/-- Each piece of work of a trace is settled by the disk. -/
theorem settled_act (t : Setting) (w : Work) (s : State) :
    Settled t.disk State.withCache fun cache => w.act t (s.withCache cache) := by
  cases w with
  | skip => exact .pure _ (Work.skip.act t s)
  | begin => exact .pure _ (Work.begin.act t s)
  | enter u chain => exact settled_enter t u chain s

/-- The outcome of a trace, with another cache. -/
def Outcome.withCache (o : Outcome) (cache : TextCache) : Outcome := { o with cache }

/-- A trace is settled by the disk, interrupted or not. -/
theorem settled_run (c : Catalog) (d : Disk) (graph : ClassGraph) (starts patterns : List Text)
    (budget : Budget) : Settled d Outcome.withCache (run c d graph starts patterns budget) := by
  by_cases hpatterns : normalize patterns = []
  · have hrun : run c d graph starts patterns budget =
        Outcome.withCache ⟨MatchLog.empty, {}, some .noPatterns, TextCache.ofSize 0⟩ := by
      funext cache
      exact run_of_normalize_eq_nil hpatterns graph starts budget cache
    rw [hrun]
    exact .pure _ _
  · let t : Setting := ⟨c, d, graph, normalize patterns⟩
    obtain ⟨plan, hplan⟩ := exists_plans t starts
    -- the plan is the same for every cache, and so is what its work comes to
    have hwork := Settled.foldl (settled_act t) (pass budget plan).2
      ⟨MatchLog.empty, {}, SortedMap.empty, TextCache.ofSize 0⟩
    have hrun : run c d graph starts patterns budget = fun cache =>
        let s := (pass budget plan).2.foldl (Work.act t) ⟨MatchLog.empty, {}, SortedMap.empty, cache⟩
        ⟨s.log, { s.stats with matchCount := s.log.size },
          (stopped? (pass budget plan).1).map .interrupted, s.cache⟩ := by
      funext cache
      exact run_eq_of_plans hpatterns hplan budget cache
    rw [hrun]
    refine hwork.bind (g := fun s => (⟨s.log, { s.stats with matchCount := s.log.size },
      (stopped? (pass budget plan).1).map .interrupted, s.cache⟩ : Outcome)) ?_
    intro s
    exact .pure Outcome.withCache ⟨s.log, { s.stats with matchCount := s.log.size },
      (stopped? (pass budget plan).1).map .interrupted, s.cache⟩

end Trace

namespace CallerIndex

variable {c : Catalog}

/-- The references that are collected are settled by the disk, and so is where the collecting breaks
off. -/
theorem settled_collect (options : ExposeOptions) (exposed : Exposed) (units : List SourceUnit)
    (budget : Budget) (found : List CallerLink) :
    Settled d Prod.mk (collect c d options exposed units budget found) := by
  induction units generalizing budget found with
  | nil => exact .pure Prod.mk (Except.ok found)
  | cons u rest ih =>
    cases hcheck : budget.check with
    | error i =>
      have hstop : collect c d options exposed (u :: rest) budget found =
          Prod.mk (.error (.interrupted i)) := by
        funext cache
        rw [collect, hcheck]
      rw [hstop]
      exact .pure _ _
    | ok budget' =>
      by_cases hskipped : isSkipped c options u = true
      · have hskip : collect c d options exposed (u :: rest) budget found =
            collect c d options exposed rest budget' found := by
          funext cache
          rw [collect, hcheck]
          exact if_pos hskipped
        rw [hskip]
        exact ih budget' found
      · obtain ⟨result, paths, htext⟩ := Settled.text c d u.name
        cases result with
        | error e =>
          obtain ⟨links, more, hrest⟩ := ih budget' found
          refine ⟨links, paths ++ more, ?_⟩
          intro cache hcache
          rw [collect, hcheck]
          dsimp only
          rw [if_neg hskipped, htext cache hcache, TextCache.afterReading_append,
            ← hrest _ (hcache.afterReading paths)]
        | ok t =>
          cases hlinks : linksIn t (candidates exposed u) with
          | error api =>
            refine ⟨.error (.illegible api), paths, ?_⟩
            intro cache hcache
            rw [collect, hcheck]
            dsimp only
            rw [if_neg hskipped, htext cache hcache]
            simp only [hlinks]
          | ok found' =>
            -- a class that can be read adds its references, and the rest goes on from there
            obtain ⟨links, more, hrest⟩ := ih budget' (found ++ found')
            refine ⟨links, paths ++ more, ?_⟩
            intro cache hcache
            rw [collect, hcheck]
            dsimp only
            rw [if_neg hskipped, htext cache hcache, TextCache.afterReading_append,
              ← hrest _ (hcache.afterReading paths)]
            simp only [hlinks]

/-- An index of callers is settled by the disk, whatever classes are given as exposed. -/
theorem settled_build (x : Extractor) (d : Disk) (options : ExposeOptions) (exposed : Exposed)
    (budget : Budget) : Settled d Prod.mk (build x d options exposed budget) := by
  obtain ⟨result, paths, hcollect⟩ := settled_collect (c := x) (d := d) options exposed x.list budget []
  refine ⟨result.map (·.foldl addLink (blank x.modules)), paths, ?_⟩
  intro cache hcache
  rw [build, hcollect cache hcache]
  cases result with
  | error e => rfl
  | ok links => rfl

end CallerIndex

namespace Catalog

/-- A question about a catalog that is answered from the texts of its classes. -/
inductive Query where
  | text (name : Text)
  | dependencies (name : Text)
  | graph (options : BuildOptions) (budget : Budget) (now : Int)
  | trace (graph : ClassGraph) (starts patterns : List Text) (budget : Budget)
  | callers (options : ExposeOptions) (exposed : Exposed) (budget : Budget)

/-- All that an answer shows. -/
inductive Answer where
  | text (result : Except SourceError Text)
  | dependencies (result : Except SourceError (List Dependency))
  | graph (graph : ClassGraph) (modules : Option ModuleGraph) (fileErrors : List FileError)
      (stats : BuildStats) (progress : List BuildProgress) (failure : Option BuildError)
  | trace (log : MatchLog) (stats : TraceStats) (failure : Option TraceError)
  | callers (result : Except CallerError CallerIndex)
  /-- The program breaks off, since not all classes can be looked for. -/
  | brokenOff

/-- What a build shows. -/
def Answer.ofBuild (b : Build) : Answer :=
  .graph b.graph b.modules b.fileErrors b.stats b.progress b.failure

/-- What a trace shows. -/
def Answer.ofTrace (o : Trace.Outcome) : Answer := .trace o.log o.stats o.failure

/-- The answer to a question for which classes are looked for. -/
def search (c : Catalog) (ask : Extractor → TextCache → Answer × TextCache) (cache : TextCache) :
    Answer × TextCache :=
  match Extractor.of? c with
  | none => (.brokenOff, cache)
  | some x => ask x cache

/-- The answer to a question, and the cache behind it. -/
def answer (c : Catalog) (d : Disk) (cache : TextCache) : Query → Answer × TextCache
  | .text name => (c.text d name cache).map .text id
  | .dependencies name => c.search (fun x later => (x.extractFor d name later).map .dependencies id) cache
  | .graph options budget now =>
    c.search (fun x later =>
      let b := Build.run x d options budget now later
      (.ofBuild b, b.cache)) cache
  | .trace graph starts patterns budget =>
    let o := Trace.run c d graph starts patterns budget cache
    (.ofTrace o, o.cache)
  | .callers options exposed budget =>
    c.search (fun x later => (CallerIndex.build x d options exposed budget later).map .callers id) cache

/-- The answers to questions that are asked one after the other, and the cache behind the last. -/
def answerAll (c : Catalog) (d : Disk) : List Query → TextCache → List Answer × TextCache
  | [], cache => ([], cache)
  | q :: rest, cache =>
    ((c.answer d cache q).1 :: (c.answerAll d rest (c.answer d cache q).2).1,
      (c.answerAll d rest (c.answer d cache q).2).2)

/-- An answer is settled by the disk if it is settled for every search, since the catalog alone decides
whether there is one. -/
theorem settled_search (c : Catalog) {ask : Extractor → TextCache → Answer × TextCache}
    (h : ∀ x, Settled d Prod.mk (ask x)) : Settled d Prod.mk (c.search ask) := by
  cases hprepared : Extractor.of? c with
  | none =>
    have hbroken : c.search ask = Prod.mk .brokenOff := by
      funext cache
      rw [search, hprepared]
    rw [hbroken]
    exact .pure _ _
  | some x =>
    have hask : c.search ask = ask x := by
      funext cache
      rw [search, hprepared]
    rw [hask]
    exact h x

/-- The answer to every question is settled by the disk. -/
theorem settled_answer (c : Catalog) (d : Disk) (q : Query) :
    Settled d Prod.mk fun cache => c.answer d cache q := by
  cases q with
  | text name => exact (Settled.text c d name).map Answer.text
  | dependencies name =>
    exact settled_search c fun x => (x.settled_extractFor d name).map Answer.dependencies
  | graph options budget now =>
    exact settled_search c fun x => (Build.settled_run x d options budget now).bind
      (g := fun b => (Answer.ofBuild b, b.cache)) fun b => .pure _ (Answer.ofBuild b)
  | trace graph starts patterns budget =>
    exact (Trace.settled_run c d graph starts patterns budget).bind
      (g := fun o => (Answer.ofTrace o, o.cache)) fun o => .pure _ (Answer.ofTrace o)
  | callers options exposed budget =>
    exact settled_search c fun x => (CallerIndex.settled_build x d options exposed budget).map Answer.callers

/-- Answers one after the other are settled by the disk: no question leaves a cache in which the next one
is answered otherwise. -/
theorem settled_answerAll (c : Catalog) (d : Disk) (queries : List Query) :
    Settled d Prod.mk (c.answerAll d queries) := by
  induction queries with
  | nil => exact .pure _ []
  | cons q rest ih =>
    obtain ⟨answers, paths, hrest⟩ := ih
    refine (settled_answer c d q).bind (g := fun r => (r.1 :: (c.answerAll d rest r.2).1,
      (c.answerAll d rest r.2).2)) ?_
    intro first
    refine ⟨first :: answers, paths, ?_⟩
    intro cache hcache
    simp only [hrest cache hcache]

/-- A scan and all answers from its catalog are the same for every size of the cache, and so are the
readings that lead to them. At every moment between two readings the cache is faithful. -/
theorem scan_answers_settled (d : Disk) (options : ScanOptions) (budget : Budget) (root : Text)
    (queries : List Query) :
    (∃ e, ∀ size, scan d { options with cacheSize := size } budget root = .error e) ∨
    ∃ c scanned answers asked, ∀ size,
      scan d { options with cacheSize := size } budget root =
          .ok (c, (TextCache.ofSize size).afterReading d scanned) ∧
        c.answerAll d queries ((TextCache.ofSize size).afterReading d scanned) =
          (answers, (TextCache.ofSize size).afterReading d (scanned ++ asked)) ∧
        ∀ front, front <+: scanned ++ asked →
          ((TextCache.ofSize size).afterReading d front).Faithful d size := by
  obtain hfails | ⟨c, scanned, hscan⟩ := scan_settled d options budget root
  · exact Or.inl hfails
  · obtain ⟨answers, asked, hanswers⟩ := settled_answerAll c d queries
    refine Or.inr ⟨c, scanned, answers, asked, ?_⟩
    intro size
    have hstart := TextCache.faithful_ofSize d size
    refine ⟨hscan size, ?_, ?_⟩
    · rw [hanswers _ (hstart.agrees.afterReading scanned), TextCache.afterReading_append]
    · intro front _
      exact hstart.afterReading front

end Catalog

end ClassAtlas
