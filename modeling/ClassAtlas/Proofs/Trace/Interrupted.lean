import ClassAtlas.Proofs.Trace.Plan

namespace ClassAtlas

/-- No count of the other trace is less. -/
structure TraceStats.AtMost (a b : TraceStats) : Prop where
  startClasses : a.startClasses ≤ b.startClasses
  skippedStarts : a.skippedStarts ≤ b.skippedStarts
  classesVisited : a.classesVisited ≤ b.classesVisited
  unreadable : a.unreadable ≤ b.unreadable
  candidates : a.candidates ≤ b.candidates
  matchCount : a.matchCount ≤ b.matchCount

/-- No count is less than itself. -/
theorem TraceStats.AtMost.refl (a : TraceStats) : a.AtMost a := by
  constructor <;> exact Nat.le_refl _

/-- Counts that do not decrease twice do not decrease. -/
theorem TraceStats.AtMost.trans {a b c : TraceStats} (h : a.AtMost b) (h' : b.AtMost c) :
    a.AtMost c where
  startClasses := Nat.le_trans h.startClasses h'.startClasses
  skippedStarts := Nat.le_trans h.skippedStarts h'.skippedStarts
  classesVisited := Nat.le_trans h.classesVisited h'.classesVisited
  unreadable := Nat.le_trans h.unreadable h'.unreadable
  candidates := Nat.le_trans h.candidates h'.candidates
  matchCount := Nat.le_trans h.matchCount h'.matchCount

namespace Trace

variable {t : Setting} {cache : TextCache} {s s' : State}

/-- What was found comes first in what another state has found. -/
structure Extends (s s' : State) : Prop where
  log : s.log.entries <+: s'.log.entries
  stats : s.stats.AtMost s'.stats

/-- One piece of work only adds to what was found. -/
theorem Work.extends_act (t : Setting) (s : State) (w : Work) : Extends s (w.act t s) := by
  cases w with
  | skip | begin =>
    refine ⟨List.prefix_rfl, ?_⟩
    constructor <;> simp [act]
  | enter u chain =>
    rw [act, enter_eq]
    refine ⟨MatchLog.entries_prefix_foldl_add .., ?_⟩
    constructor <;> simp

/-- More work only adds to what was found. -/
theorem extends_foldl_act (t : Setting) (s : State) (ws : List Work) :
    Extends s (ws.foldl (Work.act t) s) := by
  induction ws generalizing s with
  | nil => exact ⟨List.prefix_rfl, .refl _⟩
  | cons w rest ih =>
    have hfirst := w.extends_act t s
    have hrest := ih (w.act t s)
    exact ⟨hfirst.log.trans hrest.log, hfirst.stats.trans hrest.stats⟩

/-- Two states that have found the same, each reading through a cache of its own. -/
structure Alike (t : Setting) (cache : TextCache) (s s' : State) : Prop where
  log : s.log = s'.log
  stats : s.stats = s'.stats
  files : s.files = s'.files
  reads : t.catalog.ReadsTo t.disk cache s.cache
  reads' : t.catalog.ReadsTo t.disk cache s'.cache

/-- States that have found nothing are alike, if their caches come from the same one. -/
theorem Alike.start {cache₁ cache₂ : TextCache} (h₁ : t.catalog.ReadsTo t.disk cache cache₁)
    (h₂ : t.catalog.ReadsTo t.disk cache cache₂) :
    Alike t cache ⟨MatchLog.empty, {}, SortedMap.empty, cache₁⟩
      ⟨MatchLog.empty, {}, SortedMap.empty, cache₂⟩ := ⟨rfl, rfl, rfl, h₁, h₂⟩

/-- The cache behind a class still comes from the same one. -/
theorem readsTo_cacheSeen (h : t.catalog.ReadsTo t.disk cache s.cache) (u : SourceUnit) :
    t.catalog.ReadsTo t.disk cache (cacheSeen t u s) := by
  unfold cacheSeen
  split
  · exact h.read u.name
  · exact h

/-- States that are alike see the same file of a class, if texts are stable. -/
theorem Alike.fileSeen_eq (h : Alike t cache s s') (hstable : t.catalog.StableTexts t.disk cache)
    (u : SourceUnit) : fileSeen t u s = fileSeen t u s' := by
  have htext : t.catalog.text? t.disk s.cache u.name = t.catalog.text? t.disk s'.cache u.name := by
    rw [Catalog.text?, Catalog.text?, hstable _ h.reads, hstable _ h.reads']
  rw [fileSeen, fileSeen, h.files, file?, file?, htext]

/-- One piece of work leaves states alike. -/
theorem Alike.act (h : Alike t cache s s') (hstable : t.catalog.StableTexts t.disk cache)
    (w : Work) : Alike t cache (w.act t s) (w.act t s') := by
  cases w with
  | skip | begin => exact ⟨h.log, by simp only [Work.act, h.stats], h.files, h.reads, h.reads'⟩
  | enter u chain =>
    have hfile := h.fileSeen_eq hstable u
    have hunreadable : newlyUnreadable t u s = newlyUnreadable t u s' := by
      rw [newlyUnreadable, newlyUnreadable, h.files, hfile]
    rw [Work.act, Work.act, enter_eq, enter_eq]
    constructor
    case log => rw [hfile, h.log]
    case stats => rw [hfile, hunreadable, h.stats]
    case files => rw [hfile, h.files]
    case reads => exact readsTo_cacheSeen h.reads u
    case reads' => exact readsTo_cacheSeen h.reads' u

/-- Any work leaves states alike. -/
theorem Alike.foldl_act (h : Alike t cache s s') (hstable : t.catalog.StableTexts t.disk cache)
    (ws : List Work) : Alike t cache (ws.foldl (Work.act t) s) (ws.foldl (Work.act t) s') := by
  induction ws generalizing s s' with
  | nil => exact h
  | cons w rest ih => exact ih (h.act hstable w)

/-- The front of some work finds the front of what all of it finds. -/
theorem Alike.extends_foldl_act (h : Alike t cache s s')
    (hstable : t.catalog.StableTexts t.disk cache) {ws ws' : List Work} (hfront : ws <+: ws') :
    Extends (ws.foldl (Work.act t) s) (ws'.foldl (Work.act t) s') := by
  obtain ⟨more, rfl⟩ := hfront
  have hsame := h.foldl_act hstable ws
  rw [List.foldl_append]
  have hmore := Trace.extends_foldl_act t (ws.foldl (Work.act t) s') more
  constructor
  case log =>
    rw [hsame.log]
    exact hmore.log
  case stats =>
    rw [hsame.stats]
    exact hmore.stats

variable {catalog : Catalog} {disk : Disk}

/-- A trace that may go on longer has found the same first. -/
theorem run_extends (hstable : catalog.StableTexts disk cache) (graph : ClassGraph)
    (starts patterns : List Text) {b b' : Budget} (hwithin : b.Within b') {cache₁ cache₂ : TextCache}
    (h₁ : catalog.ReadsTo disk cache cache₁) (h₂ : catalog.ReadsTo disk cache cache₂) :
    (run catalog disk graph starts patterns b cache₁).log.entries <+:
        (run catalog disk graph starts patterns b' cache₂).log.entries ∧
      (run catalog disk graph starts patterns b cache₁).stats.AtMost
        (run catalog disk graph starts patterns b' cache₂).stats := by
  by_cases hpatterns : normalize patterns = []
  · rw [run_of_normalize_eq_nil hpatterns, run_of_normalize_eq_nil hpatterns]
    exact ⟨List.prefix_rfl, .refl _⟩
  · let t : Setting := ⟨catalog, disk, graph, normalize patterns⟩
    obtain ⟨plan, hplan⟩ := exists_plans t starts
    have hstart : Alike t cache _ _ := .start h₁ h₂
    have hextends := hstart.extends_foldl_act hstable (pass_prefix_of_within hwithin plan)
    rw [run_eq_of_plans hpatterns hplan, run_eq_of_plans hpatterns hplan]
    refine ⟨hextends.log, ?_⟩
    exact { hextends.stats with matchCount := hextends.log.length_le }

/-- Unless it is interrupted, a trace ends as one that cannot be interrupted does. -/
theorem run_cases (hstable : catalog.StableTexts disk cache) (graph : ClassGraph)
    (starts patterns : List Text) (b : Budget) {b' : Budget} (hb' : b'.left = none)
    {cache₁ cache₂ : TextCache} (h₁ : catalog.ReadsTo disk cache cache₁)
    (h₂ : catalog.ReadsTo disk cache cache₂) :
    let out := run catalog disk graph starts patterns b cache₁
    let whole := run catalog disk graph starts patterns b' cache₂
    out.failure = some (.interrupted b.reason) ∨
      out.log = whole.log ∧ out.stats = whole.stats ∧ out.failure = whole.failure := by
  dsimp only
  by_cases hpatterns : normalize patterns = []
  · rw [run_of_normalize_eq_nil hpatterns, run_of_normalize_eq_nil hpatterns]
    exact .inr ⟨rfl, rfl, rfl⟩
  · let t : Setting := ⟨catalog, disk, graph, normalize patterns⟩
    obtain ⟨plan, hplan⟩ := exists_plans t starts
    rw [run_eq_of_plans hpatterns hplan, run_eq_of_plans hpatterns hplan]
    rcases pass_cases b plan with hstopped | ⟨⟨rest, hpassed⟩, hall⟩
    · left
      rw [hstopped]
      rfl
    · right
      have hstart : Alike t cache _ _ := .start h₁ h₂
      have hsame := hstart.foldl_act hstable (works plan)
      rw [pass_of_left_eq_none hb', hall, hpassed]
      exact ⟨hsame.log, by rw [hsame.log, hsame.stats], rfl⟩

/-- A trace of which `n` checks pass either ends as the whole trace does, or says that it was
interrupted and has found the front of what the whole trace finds. With more checks it finds the
same first, and no count gets less. The traces need not read through the same cache, as long as the
texts do not change. -/
theorem run_interrupted {graph : ClassGraph} (starts patterns : List Text)
    {cache cache₁ cache₂ : TextCache} (hstable : catalog.StableTexts disk cache)
    (h₁ : catalog.ReadsTo disk cache cache₁) (h₂ : catalog.ReadsTo disk cache cache₂)
    (reason : Interruption) (n : Nat) :
    let out := run catalog disk graph starts patterns ⟨some n, reason⟩ cache₁
    let whole := run catalog disk graph starts patterns .unlimited cache₂
    (out.log = whole.log ∧ out.stats = whole.stats ∧ out.failure = whole.failure ∨
      out.failure = some (.interrupted reason) ∧ out.log.entries <+: whole.log.entries) ∧
    ∀ m, n ≤ m →
      let later := run catalog disk graph starts patterns ⟨some m, reason⟩ cache₂
      out.log.entries <+: later.log.entries ∧ out.stats.AtMost later.stats := by
  intro out whole
  constructor
  · have hunlimited : Budget.unlimited.left = none := rfl
    rcases run_cases hstable graph starts patterns ⟨some n, reason⟩ hunlimited h₁ h₂
      with hstopped | hsame
    · have hwithin : Budget.Within ⟨some n, reason⟩ .unlimited :=
        Budget.within_of_left_eq_none hunlimited _
      exact .inr ⟨hstopped, (run_extends hstable graph starts patterns hwithin h₁ h₂).1⟩
    · exact .inl hsame
  · intro m hle later
    have hwithin : Budget.Within ⟨some n, reason⟩ ⟨some m, reason⟩ := by
      intro k hk
      obtain rfl := Option.some.inj hk
      exact ⟨n, rfl, hle⟩
    exact run_extends hstable graph starts patterns hwithin h₁ h₂

/-- The second trace runs after one of the classes was read. -/
theorem run_interrupted_in_cycle :
    let cache := TextCache.ofSize 4
    let warm := (mutualCatalog.text mutualDisk "B" cache).2
    let out := run mutualCatalog mutualDisk mutualGraph ["A"] ["SEND("] (.cancelAfter 1) cache
    let whole := run mutualCatalog mutualDisk mutualGraph ["A"] ["SEND("] .unlimited warm
    let later := run mutualCatalog mutualDisk mutualGraph ["A"] ["SEND("] (.cancelAfter 2) warm
    mutualCatalog.StableTexts mutualDisk cache ∧ mutualCatalog.ReadsTo mutualDisk cache cache ∧
      mutualCatalog.ReadsTo mutualDisk cache warm ∧
      (out.log = whole.log ∧ out.stats = whole.stats ∧ out.failure = whole.failure ∨
        out.failure = some (.interrupted .cancelled) ∧ out.log.entries <+: whole.log.entries) ∧
      out.log.entries <+: later.log.entries ∧ out.stats.AtMost later.stats := by
  intro cache warm out whole later
  have hcold : mutualCatalog.ReadsTo mutualDisk cache cache := .none
  have hwarm : mutualCatalog.ReadsTo mutualDisk cache warm := .read "B" .none
  obtain ⟨hwhole, hlater⟩ :=
    run_interrupted ["A"] ["SEND("] mutual_stableTexts hcold hwarm .cancelled 1
  exact ⟨mutual_stableTexts, hcold, hwarm, hwhole, hlater 2 (by decide)⟩

end Trace

end ClassAtlas
