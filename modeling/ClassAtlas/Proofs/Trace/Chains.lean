import ClassAtlas.Proofs.Trace.Plan
import Mathlib.Data.List.Chain

namespace ClassAtlas.Trace

/-- A way through classes of the catalog from a start to a class, along edges and without repetition. -/
structure Way (c : Catalog) (g : ClassGraph) (start name : Text) (chain : List Text) : Prop where
  head : chain.head? = some start
  last : chain.getLast? = some name
  nodup : chain.Nodup
  known : ∀ a ∈ chain, c.contains a = true
  edges : chain.IsChain fun a b => g.hasEdge a b = true

variable {t : Setting}

/-- A class of the catalog is reached from itself without an edge. -/
theorem Way.single {c : Catalog} {start : Text} (h : c.contains start = true) (g : ClassGraph) :
    Way c g start start [start] where
  head := rfl
  last := rfl
  nodup := List.nodup_singleton start
  known a ha := by
    rw [List.mem_singleton.mp ha]
    exact h
  edges := List.isChain_singleton start

/-- A way is continued along an edge to a class of the catalog that is not on it. -/
theorem Way.append {c : Catalog} {g : ClassGraph} {start a b : Text} {chain : List Text}
    (h : Way c g start a chain) (hedge : g.hasEdge a b = true) (hb : c.contains b = true)
    (hnew : b ∉ chain) : Way c g start b (chain ++ [b]) where
  head := by
    rw [List.head?_append, h.head]
    rfl
  last := List.getLast?_concat
  nodup := List.nodup_append.mpr ⟨h.nodup, List.nodup_singleton b, by
    intro x hx y hy
    rw [List.mem_singleton.mp hy]
    rintro rfl
    exact hnew hx⟩
  known x hx := by
    rcases List.mem_append.mp hx with hx | hx
    · exact h.known x hx
    · rw [List.mem_singleton.mp hx]
      exact hb
  edges := by
    refine List.isChain_append.mpr ⟨h.edges, List.isChain_singleton b, ?_⟩
    intro x hx y hy
    rw [h.last] at hx
    obtain rfl := Option.some.inj hx
    obtain rfl := Option.some.inj hy
    exact hedge

/-- What stands to be visited: a class to which an edge leads from the end of a way through visited
classes, or the start. -/
structure Pending (t : Setting) (start : Text) (visited : List Text) (e : Text × List Text) :
    Prop where
  visited : ∀ a ∈ e.2, a ∈ visited
  comes : e = (start, []) ∨
    ∃ a, Way t.catalog t.graph start a e.2 ∧ t.graph.hasEdge a e.1 = true

/-- What stands to be visited still does when more classes are visited. -/
theorem Pending.mono {start : Text} {visited : List Text} {e : Text × List Text}
    (h : Pending t start visited e) (name : Text) : Pending t start (name :: visited) e :=
  ⟨fun a ha => List.mem_cons_of_mem name (h.visited a ha), h.comes⟩

/-- A class that was not visited yet is entered along a way. -/
theorem Pending.way {start name : Text} {chain visited : List Text}
    (h : Pending t start visited (name, chain)) (hnew : name ∉ visited)
    (hname : t.catalog.contains name = true) :
    Way t.catalog t.graph start name (chain ++ [name]) := by
  rcases h.comes with hstart | ⟨a, hway, hedge⟩
  · obtain ⟨rfl, rfl⟩ := Prod.mk.inj hstart
    exact .single hname t.graph
  · exact hway.append hedge hname fun hmem => hnew (h.visited name hmem)

/-- An exploration enters classes along ways only. -/
theorem Explores.way (hg : t.graph.WellFormed) {start : Text} {todo : List (Text × List Text)}
    {visited : List Text} {plan : List PlanStep} (h : Explores t todo visited plan)
    (htodo : ∀ e ∈ todo, Pending t start visited e) {u : SourceUnit} {chain : List Text}
    (hu : .enter u chain ∈ works plan) : Way t.catalog t.graph start u.name chain := by
  induction h with
  | done => simp at hu
  | seen _ _ ih => exact ih (fun e he => htodo e (List.mem_cons_of_mem _ he)) hu
  | unknown _ _ _ ih => exact ih (fun e he => (htodo e (List.mem_cons_of_mem _ he)).mono _) hu
  | @entered name chain' rest visited u' plan hnew hunit _ ih =>
    have hname : t.catalog.contains name = true := SortedMap.contains_iff.mpr ⟨u', hunit⟩
    have hpending := htodo _ List.mem_cons_self
    have hway := hpending.way hnew hname
    rw [works_check, works_work, List.mem_cons] at hu
    rcases hu with hu | hu
    · obtain ⟨rfl, rfl⟩ := Work.enter.inj hu
      rw [UnitMap.name_of_find? hunit]
      exact hway
    · refine ih (fun e he => ?_) hu
      rcases List.mem_append.mp he with he | he
      · -- the classes that this one depends on come next, along a chain that now ends in it
        obtain ⟨hedge, hchain⟩ := (mem_following_iff hg).mp he
        rw [← hchain] at hway
        refine ⟨fun a ha => ?_, .inr ⟨name, hway, hedge⟩⟩
        rw [hchain] at ha
        rcases List.mem_append.mp ha with ha | ha
        · exact List.mem_cons_of_mem name (hpending.visited a ha)
        · exact List.mem_cons.mpr (.inl (List.mem_singleton.mp ha))
      · exact (htodo e (List.mem_cons_of_mem _ he)).mono name

/-- The chain along which a class is entered. -/
def Work.chainTo? (name : Text) : Work → Option (List Text)
  | enter u chain => if u.name = name then some chain else none
  | _ => none

/-- The chain along which a class is entered for the first time. -/
def firstChain? (ws : List Work) (name : Text) : Option (List Text) := ws.findSome? (Work.chainTo? name)

/-- A class is entered for the first time in the first part of the work, if it is entered there at all. -/
theorem firstChain?_append (ws ws' : List Work) (name : Text) :
    firstChain? (ws ++ ws') name = (firstChain? ws name).or (firstChain? ws' name) :=
  List.findSome?_append

/-- A single piece of work enters its own class only. -/
theorem firstChain?_singleton (w : Work) (name : Text) : firstChain? [w] name = w.chainTo? name :=
  List.findSome?_singleton

/-- A piece of work leads to a class along a chain if it enters the class along it. -/
theorem Work.chainTo?_eq_some_iff {name : Text} {w : Work} {chain : List Text} :
    w.chainTo? name = some chain ↔ ∃ u, w = .enter u chain ∧ u.name = name := by
  cases w with
  | skip | begin => simp [chainTo?]
  | enter u chain' => by_cases hname : u.name = name <;> simp [chainTo?, hname]

/-- The first chain to a class is one along which it is entered. -/
theorem mem_of_firstChain?_eq_some {ws : List Work} {name : Text} {chain : List Text}
    (h : firstChain? ws name = some chain) : ∃ u, .enter u chain ∈ ws ∧ u.name = name := by
  obtain ⟨w, hw, hchain⟩ := List.exists_of_findSome?_eq_some h
  obtain ⟨u, rfl, hname⟩ := Work.chainTo?_eq_some_iff.mp hchain
  exact ⟨u, hw, hname⟩

/-- There is a first chain to a class exactly if it is entered. -/
theorem isSome_firstChain?_iff {ws : List Work} {name : Text} :
    (firstChain? ws name).isSome = true ↔ ∃ u chain, .enter u chain ∈ ws ∧ u.name = name := by
  rw [firstChain?, List.findSome?_isSome_iff]
  simp only [Option.isSome_iff_exists, Work.chainTo?_eq_some_iff]
  constructor
  · rintro ⟨w, hw, chain, u, rfl, hname⟩
    exact ⟨u, chain, hw, hname⟩
  · rintro ⟨u, chain, hw, hname⟩
    exact ⟨_, hw, chain, u, rfl, hname⟩

/-- A match in a file is one of its class and of the chain that led there, and a pattern occurs in its
method. -/
theorem mem_matchesSeen {u : SourceUnit} {chain : List Text} {f : Option SourceFile}
    {m : TraceMatch} (h : m ∈ matchesSeen t u chain f) :
    m.className = u.name ∧ m.chain = chain ∧
      ∃ file i, f = some file ∧ OccursInMethod t.patterns file i m.method := by
  unfold matchesSeen at h
  cases f with
  | none => simp at h
  | some file =>
    rw [Option.map_some, Option.getD_some] at h
    obtain ⟨i, line, hline, hpattern, hmethod⟩ := exists_match_iff.mp ⟨m, h, rfl⟩
    obtain ⟨_, -, hm⟩ := List.mem_filterMap.mp h
    obtain ⟨-, hclass, -, hchain⟩ := matchLine?_reports hm
    exact ⟨hclass, hchain, file, i, rfl, line, hline, hpattern, hmethod⟩

/-- What holds when some work is done: a match carries the first chain to its class, and a class that
was entered has its file kept and everything in it logged. -/
structure Settled (t : Setting) (ws : List Work) (s : State) : Prop where
  chain : ∀ m ∈ s.log.entries, firstChain? ws m.className = some m.chain
  kept : ∀ name, (firstChain? ws name).isSome = true → (s.files.find? name).isSome = true
  logged : ∀ name f, s.files.find? name = some (some f) →
    ∀ i method, OccursInMethod t.patterns f i method → s.log.contains name method = true

/-- A class that was entered before gives nothing new. -/
theorem Settled.log_again {ws : List Work} {s : State} (h : Settled t ws s) {u : SourceUnit}
    (hentered : (firstChain? ws u.name).isSome = true) (chain : List Text) :
    (matchesSeen t u chain (fileSeen t u s)).foldl MatchLog.add s.log = s.log := by
  obtain ⟨f, hf⟩ := Option.isSome_iff_exists.mp (h.kept u.name hentered)
  have hseen : fileSeen t u s = f := by rw [fileSeen, hf, Option.getD_some]
  apply MatchLog.foldl_add_eq_self
  intro m hm
  obtain ⟨hclass, -, file, i, hfile, hoccurs⟩ := mem_matchesSeen hm
  rw [hclass]
  exact h.logged u.name file (by rw [hf, ← hseen, hfile]) i m.method hoccurs

/-- One more piece of work leaves things settled. -/
theorem Settled.act {ws : List Work} {s : State} (h : Settled t ws s) (w : Work) :
    Settled t (ws ++ [w]) (w.act t s) := by
  have hfirst : ∀ name, firstChain? (ws ++ [w]) name =
      (firstChain? ws name).or (w.chainTo? name) := by
    intro name
    rw [firstChain?_append, firstChain?_singleton]
  cases w with
  | skip | begin =>
    have hsame : ∀ name, firstChain? (ws ++ [_]) name = firstChain? ws name :=
      fun name => (hfirst name).trans Option.or_none
    exact ⟨fun m hm => (hsame _).trans (h.chain m hm), fun name hname => h.kept name (by rwa [← hsame]),
      h.logged⟩
  | enter u chain =>
    rw [Work.act, enter_eq]
    constructor
    case chain =>
      intro m hm
      have hold : m ∈ s.log.entries → firstChain? (ws ++ [.enter u chain]) m.className =
          some m.chain := by
        intro hm
        rw [hfirst, h.chain m hm, Option.some_or]
      by_cases hentered : (firstChain? ws u.name).isSome = true
      · rw [h.log_again hentered chain] at hm
        exact hold hm
      · rcases MatchLog.mem_foldl_add hm with hm | hm
        · exact hold hm
        · obtain ⟨hclass, hchain, -⟩ := mem_matchesSeen hm
          have hnone : firstChain? ws u.name = none := by simpa using hentered
          rw [hfirst, hclass, hnone, Option.none_or, hchain]
          exact if_pos rfl
    case kept =>
      intro name hname
      rw [SortedMap.find?_insert]
      split
      · rfl
      · next hne =>
        have hother : (Work.enter u chain).chainTo? name = none := if_neg (Ne.symm hne)
        rw [hfirst, hother, Option.or_none] at hname
        exact h.kept name hname
    case logged =>
      intro name f hf i method hoccurs
      apply MatchLog.contains_foldl_add_iff.mpr
      rw [SortedMap.find?_insert] at hf
      split at hf
      · next hname =>
        right
        obtain ⟨line, hline, hpattern, hmethod⟩ := hoccurs
        obtain ⟨m, hm, hmethod⟩ := (exists_match_iff (u := u)).mpr ⟨i, line, hline, hpattern, hmethod⟩
        refine ⟨m, ?_, (className_of_mem_matchesIn hm).trans hname.symm, hmethod⟩
        rw [Option.some.inj hf]
        exact hm
      · exact .inl (h.logged name f hf i method hoccurs)

/-- All work of a trace leaves things settled. -/
theorem Settled.foldl_act {done : List Work} {s : State} (h : Settled t done s) (ws : List Work) :
    Settled t (done ++ ws) (ws.foldl (Work.act t) s) := by
  induction ws generalizing done s with
  | nil => simpa using h
  | cons w rest ih => simpa using ih (h.act w)

/-- From a start exactly the classes are entered that it reaches. -/
theorem Explores.isSome_firstChain?_iff (hg : t.graph.WellFormed) {start : Text}
    {plan : List PlanStep} (h : Explores t [(start, [])] [] plan) (name : Text) :
    (firstChain? (works plan) name).isSome = true ↔ Reaches t.catalog t.graph start name := by
  have hmem := h.visits.mem_iff hg name
  simp only [List.mem_singleton, exists_eq_left, reachesAvoiding_nil_iff] at hmem
  rw [← hmem, Trace.isSome_firstChain?_iff, List.mem_map]
  simp only [List.mem_filterMap, Work.entered?_eq_some_iff]
  constructor
  · rintro ⟨u, chain, hu, hname⟩
    exact ⟨(u, chain), ⟨_, hu, rfl⟩, hname⟩
  · rintro ⟨⟨u, chain⟩, ⟨w, hw, rfl⟩, hname⟩
    exact ⟨u, chain, hw, hname⟩

/-- A class is entered along a way from the start. The way has no repetition, since no class is entered
twice. -/
theorem Explores.way_from_start (hg : t.graph.WellFormed) {start : Text} {plan : List PlanStep}
    (h : Explores t [(start, [])] [] plan) {u : SourceUnit} {chain : List Text}
    (hu : .enter u chain ∈ works plan) : Way t.catalog t.graph start u.name chain := by
  apply h.way hg _ hu
  intro e he
  rw [List.mem_singleton.mp he]
  exact ⟨by simp, .inl rfl⟩

/-- A class is entered along a way from one of the starts. -/
theorem Plans.way (hg : t.graph.WellFormed) {starts : List Text} {plan : List PlanStep}
    (h : Plans t starts plan) {u : SourceUnit} {chain : List Text}
    (hu : .enter u chain ∈ works plan) :
    ∃ start ∈ starts, Way t.catalog t.graph start u.name chain := by
  induction h with
  | done => simp at hu
  | skipped _ _ ih =>
    obtain ⟨start, hstart, hway⟩ := ih (by simpa using hu)
    exact ⟨start, List.mem_cons_of_mem _ hstart, hway⟩
  | @traced start rest first plan _ hfirst _ ih =>
    rw [works_work, works_append, List.mem_cons, List.mem_append] at hu
    rcases hu with hu | hu | hu
    · contradiction
    · exact ⟨start, List.mem_cons_self, hfirst.way_from_start hg hu⟩
    · obtain ⟨start, hstart, hway⟩ := ih hu
      exact ⟨start, List.mem_cons_of_mem _ hstart, hway⟩

/-- Of all the starts this is the first one from which a class is reachable. -/
def FirstReaching (c : Catalog) (g : ClassGraph) (starts : List Text) (name start : Text) : Prop :=
  ∃ earlier later, starts = earlier ++ start :: later ∧ Reaches c g start name ∧
    ∀ other ∈ earlier, ¬ Reaches c g other name

/-- A start from which the class cannot be reached may come before the others. -/
theorem FirstReaching.cons {c : Catalog} {g : ClassGraph} {starts : List Text} {name start : Text}
    (h : FirstReaching c g starts name start) {first : Text} (hfirst : ¬ Reaches c g first name) :
    FirstReaching c g (first :: starts) name start := by
  obtain ⟨earlier, later, rfl, hreaches, hearlier⟩ := h
  exact ⟨first :: earlier, later, rfl, hreaches, List.forall_mem_cons.mpr ⟨hfirst, hearlier⟩⟩

/-- The first chain to a class begins at the first start that reaches it. -/
theorem Plans.head_firstChain? (hg : t.graph.WellFormed) {starts : List Text}
    {plan : List PlanStep} (h : Plans t starts plan) {name : Text} {chain : List Text}
    (hchain : firstChain? (works plan) name = some chain) :
    ∃ start, chain.head? = some start ∧ FirstReaching t.catalog t.graph starts name start := by
  induction h with
  | done => contradiction
  | @skipped start rest plan hcontains _ ih =>
    obtain ⟨first, hhead, hfirst⟩ := ih hchain
    refine ⟨first, hhead, hfirst.cons fun hreaches => ?_⟩
    rw [hreaches.1] at hcontains
    contradiction
  | @traced start rest begun plan _ hbegun _ ih =>
    have hreaches := hbegun.isSome_firstChain?_iff hg name
    change firstChain? (works (begun ++ plan)) name = some chain at hchain
    rw [works_append, firstChain?_append] at hchain
    cases hhere : firstChain? (works begun) name with
    | none =>
      rw [hhere, Option.none_or] at hchain
      obtain ⟨first, hhead, hfirst⟩ := ih hchain
      refine ⟨first, hhead, hfirst.cons fun hreach => ?_⟩
      simpa [hhere] using hreaches.mpr hreach
    | some chain' =>
      rw [hhere, Option.some_or] at hchain
      obtain rfl := Option.some.inj hchain
      obtain ⟨u, hu, -⟩ := mem_of_firstChain?_eq_some hhere
      refine ⟨start, (hbegun.way_from_start hg hu).head, [], rest, rfl, hreaches.mp ?_, by simp⟩
      rw [hhere]
      rfl

/-- Every chain is a way through the graph from a start to the class of its match, and all matches
of a class carry the same one. Unless the trace is interrupted, it begins at the first start from
which the class is reachable. -/
theorem run_chains {catalog : Catalog} {disk : Disk} {graph : ClassGraph}
    (starts patterns : List Text) (budget : Budget) (cache : TextCache) (hgraph : graph.Reachable) :
    let out := run catalog disk graph starts patterns budget cache
    (∀ m ∈ out.log.entries, ∃ start ∈ starts, Way catalog graph start m.className m.chain) ∧
      (∀ m ∈ out.log.entries, ∀ m' ∈ out.log.entries, m.className = m'.className →
        m.chain = m'.chain) ∧
      ((∀ cause, out.failure ≠ some (.interrupted cause)) → ∀ m ∈ out.log.entries,
        ∃ start, m.chain.head? = some start ∧
          FirstReaching catalog graph starts m.className start) := by
  intro out
  by_cases hpatterns : normalize patterns = []
  · have hnone : out.log.entries = [] := by
      change (run catalog disk graph starts patterns budget cache).log.entries = []
      rw [run_of_normalize_eq_nil hpatterns]
      rfl
    simp [hnone]
  · let t : Setting := ⟨catalog, disk, graph, normalize patterns⟩
    have hg : t.graph.WellFormed := hgraph.wellFormed
    obtain ⟨plan, hplan⟩ := exists_plans t starts
    have hout := run_eq_of_plans hpatterns hplan budget cache
    have hstart : Settled t [] ⟨MatchLog.empty, {}, SortedMap.empty, cache⟩ :=
      ⟨by simp [MatchLog.empty], by simp [firstChain?], by simp⟩
    have hsettled := hstart.foldl_act (pass budget plan).2
    have hfirst : ∀ m ∈ out.log.entries,
        firstChain? (pass budget plan).2 m.className = some m.chain := by
      intro m hm
      change m ∈ (run catalog disk graph starts patterns budget cache).log.entries at hm
      rw [hout] at hm
      exact hsettled.chain m hm
    refine ⟨fun m hm => ?_, fun m hm m' hm' hclass => ?_, fun hfailure m hm => ?_⟩
    · obtain ⟨u, hu, hname⟩ := mem_of_firstChain?_eq_some (hfirst m hm)
      rw [← hname]
      exact hplan.way hg ((pass_front budget plan).subset hu)
    · have hsame := hfirst m hm
      rw [hclass, hfirst m' hm'] at hsame
      exact (Option.some.inj hsame).symm
    · rcases pass_cases budget plan with hstopped | ⟨-, hall⟩
      · refine absurd ?_ (hfailure budget.reason)
        change (run catalog disk graph starts patterns budget cache).failure = _
        rw [hout, hstopped]
        rfl
      · rw [hall] at hfirst
        exact hplan.head_firstChain? hg (hfirst m hm)

/-- The first of the starts is not in the catalog, and the class is reachable from both the others. -/
theorem run_chains_in_cycle :
    let starts : List Text := ["C", "A", "B"]
    let out := run mutualCatalog mutualDisk mutualGraph starts ["SEND("] .unlimited (TextCache.ofSize 4)
    mutualGraph.Reachable ∧ (∀ cause, out.failure ≠ some (.interrupted cause)) ∧
      ∃ m ∈ out.log.entries, m.className = "B" ∧
        (∃ start ∈ starts, Way mutualCatalog mutualGraph start m.className m.chain) ∧
        ∃ start, m.chain.head? = some start ∧
          FirstReaching mutualCatalog mutualGraph starts m.className start := by
  intro starts out
  let t : Setting := ⟨mutualCatalog, mutualDisk, mutualGraph, normalize ["SEND("]⟩
  have hgraph : mutualGraph.Reachable := ⟨_, _, _, rfl⟩
  have hg : t.graph.WellFormed := hgraph.wellFormed
  have hunlimited : Budget.unlimited.left = none := rfl
  obtain ⟨vs, s, hrun, hlog, -, hnames, -⟩ := fromStarts_faithful hg (t := t) mutual_stableTexts
    starts hunlimited (s := ⟨MatchLog.empty, {}, SortedMap.empty, TextCache.ofSize 4⟩)
    ⟨.none, by simp⟩
  have hout : out = ⟨s.log, { s.stats with matchCount := s.log.size }, none, s.cache⟩ := by
    have hpatterns : (normalize ["SEND("]).isEmpty = false := by decide
    change run mutualCatalog mutualDisk mutualGraph starts ["SEND("] .unlimited _ = _
    simp [run, hpatterns, t, hrun]
  have hfailure : ∀ cause, out.failure ≠ some (.interrupted cause) := by simp [hout]
  have hcontains : out.log.contains "B" "go" = true := by
    rw [hout, hlog]
    exact (contains_log_iff "B" "go").mpr
      ⟨(hnames "B").mpr ⟨"A", by simp [starts], mutual_reaches⟩, mutual_occurs⟩
  obtain ⟨m, hm, hclass, -⟩ := MatchLog.contains_iff.mp hcontains
  obtain ⟨hways, -, hheads⟩ :=
    run_chains starts ["SEND("] .unlimited (TextCache.ofSize 4) hgraph
  exact ⟨hgraph, hfailure, m, hm, hclass, hways m hm, hheads hfailure m hm⟩

end ClassAtlas.Trace
