import ClassAtlas.Proofs.Trace.Exactness
import Mathlib.Data.List.Infix

namespace ClassAtlas

namespace Budget

/-- The other budget lets at least as many checks pass. -/
def Within (b b' : Budget) : Prop := ∀ m, b'.left = some m → ∃ n, b.left = some n ∧ n ≤ m

/-- Every budget is within one that lets all checks pass. -/
theorem within_of_left_eq_none {b' : Budget} (h : b'.left = none) (b : Budget) : b.Within b' := by
  intro m hm
  rw [h] at hm
  contradiction

/-- A check that passes keeps the reason for which a later one may fail. -/
theorem reason_of_check_eq_ok {b c : Budget} (h : b.check = .ok c) : c.reason = b.reason := by
  unfold check at h
  split at h <;> cases h <;> rfl

/-- A check fails for the reason of its budget. -/
theorem eq_reason_of_check_eq_error {b : Budget} {i : Interruption} (h : b.check = .error i) :
    i = b.reason := by
  unfold check at h
  split at h <;> cases h
  rfl

/-- If a check passes, it passes with every larger budget, which is still larger afterwards. -/
theorem Within.check {b b' c : Budget} (h : b.Within b') (hcheck : b.check = .ok c) :
    ∃ c', b'.check = .ok c' ∧ c.Within c' := by
  cases hleft : b'.left with
  | none => exact ⟨b', check_of_left_eq_none hleft, within_of_left_eq_none hleft c⟩
  | some m =>
    obtain ⟨n, hn, hle⟩ := h m hleft
    cases n with
    | zero => simp [Budget.check, hn] at hcheck
    | succ n =>
      obtain rfl : { b with left := some n } = c := by simpa [Budget.check, hn] using hcheck
      obtain ⟨m, rfl⟩ : ∃ k, m = k + 1 := ⟨m - 1, by omega⟩
      refine ⟨{ b' with left := some m }, by simp [Budget.check, hleft], ?_⟩
      intro k hk
      obtain rfl := Option.some.inj hk
      exact ⟨n, rfl, by omega⟩

end Budget

namespace Trace

/-- What a trace does between two checks. -/
inductive Work where
  | skip
  | begin
  | enter (unit : SourceUnit) (chain : List Text)

/-- What was collected when the work is done. -/
def Work.act (t : Setting) (s : State) : Work → State
  | skip => { s with stats := { s.stats with skippedStarts := s.stats.skippedStarts + 1 } }
  | begin => { s with stats := { s.stats with startClasses := s.stats.startClasses + 1 } }
  | enter u chain => Trace.enter t u chain s

/-- The file of a class as a trace sees it: once it was looked at, it stays as it was. -/
def fileSeen (t : Setting) (u : SourceUnit) (s : State) : Option SourceFile :=
  (s.files.find? u.name).getD (file? t.catalog t.disk s.cache u.name)

/-- The matches in a file, if there is one. -/
def matchesSeen (t : Setting) (u : SourceUnit) (chain : List Text) (f : Option SourceFile) :
    List TraceMatch :=
  (f.map (matchesIn t.patterns u chain)).getD []

/-- The number of unreadable classes that are met when a class is looked at. -/
def newlyUnreadable (t : Setting) (u : SourceUnit) (s : State) : Nat :=
  if s.files.find? u.name = none ∧ fileSeen t u s = none then 1 else 0

/-- The cache after a class was looked at. -/
def cacheSeen (t : Setting) (u : SourceUnit) (s : State) : TextCache :=
  if s.files.find? u.name = none then (t.catalog.text t.disk u.name s.cache).2 else s.cache

/-- Looking at a class gives its file as a trace sees it and notes it, with what this costs. -/
theorem load_eq (t : Setting) (u : SourceUnit) (s : State) :
    load t u s = (fileSeen t u s, { s with
      files := s.files.insert u.name (fileSeen t u s)
      stats := { s.stats with unreadable := s.stats.unreadable + newlyUnreadable t u s }
      cache := cacheSeen t u s }) := by
  unfold load
  cases hfile : s.files.find? u.name with
  | some f =>
    have hsame : s.files.insert u.name f = s.files := by
      apply SortedMap.ext
      intro name
      rw [SortedMap.find?_insert]
      split
      · next hname => rw [hname, hfile]
      · rfl
    simp [fileSeen, newlyUnreadable, cacheSeen, hfile, hsame]
  | none =>
    rcases hresult : t.catalog.text t.disk u.name s.cache with ⟨e | text, cache'⟩ <;>
      simp [fileSeen, newlyUnreadable, cacheSeen, hfile, file?, Catalog.text?, hresult,
        Except.toOption]

/-- Entering a class logs what is found in its file, which is kept. -/
theorem enter_eq (t : Setting) (u : SourceUnit) (chain : List Text) (s : State) :
    enter t u chain s = {
      log := (matchesSeen t u chain (fileSeen t u s)).foldl MatchLog.add s.log
      stats := { s.stats with
        classesVisited := s.stats.classesVisited + 1
        unreadable := s.stats.unreadable + newlyUnreadable t u s
        candidates := s.stats.candidates + (matchesSeen t u chain (fileSeen t u s)).length }
      files := s.files.insert u.name (fileSeen t u s)
      cache := cacheSeen t u s } := by
  have hseen : ∀ stats, fileSeen t u { s with stats } = fileSeen t u s := fun _ => rfl
  have hunreadable : ∀ stats, newlyUnreadable t u { s with stats } = newlyUnreadable t u s :=
    fun _ => rfl
  have hcache : ∀ stats, cacheSeen t u { s with stats } = cacheSeen t u s := fun _ => rfl
  unfold enter
  dsimp only
  rw [load_eq]
  simp only [hseen, hunreadable, hcache]
  cases fileSeen t u s <;> simp [matchesSeen]

/-- A step of a plan. -/
inductive PlanStep where
  | check
  | work (w : Work)

/-- The work of a step. -/
def PlanStep.work? : PlanStep → Option Work
  | check => none
  | work w => some w

/-- All the work of a plan. -/
def works (plan : List PlanStep) : List Work := plan.filterMap PlanStep.work?

/-- A plan without steps has no work. -/
@[simp] theorem works_nil : works [] = [] := rfl

/-- A check is no work. -/
@[simp] theorem works_check (rest : List PlanStep) : works (.check :: rest) = works rest := rfl

/-- The work of a step comes first. -/
@[simp] theorem works_work (w : Work) (rest : List PlanStep) :
    works (.work w :: rest) = w :: works rest := rfl

/-- The work of two plans comes one after the other. -/
@[simp] theorem works_append (p q : List PlanStep) : works (p ++ q) = works p ++ works q :=
  List.filterMap_append

/-- Goes through a plan up to the first check that fails: what the checks come to, and the work done. -/
def pass : Budget → List PlanStep → Except Interruption Budget × List Work
  | b, [] => (.ok b, [])
  | b, .check :: rest =>
    match b.check with
    | .error i => (.error i, [])
    | .ok b' => pass b' rest
  | b, .work w :: rest => ((pass b rest).1, w :: (pass b rest).2)

/-- Work is always done and does not touch the budget. -/
@[simp] theorem pass_work (b : Budget) (w : Work) (rest : List PlanStep) :
    pass b (.work w :: rest) = ((pass b rest).1, w :: (pass b rest).2) := rfl

/-- A check that fails ends the plan. -/
theorem pass_check_of_error {b : Budget} {i : Interruption} (h : b.check = .error i)
    (rest : List PlanStep) : pass b (.check :: rest) = (.error i, []) := by
  simp only [pass, h]

/-- A check that passes costs what it costs and nothing else. -/
theorem pass_check_of_ok {b b' : Budget} (h : b.check = .ok b') (rest : List PlanStep) :
    pass b (.check :: rest) = pass b' rest := by
  simp only [pass, h]

/-- A plan that is ended by a check is not continued by another one. -/
theorem pass_append_of_error {b : Budget} {p : List PlanStep} {i : Interruption}
    (h : (pass b p).1 = .error i) (q : List PlanStep) : pass b (p ++ q) = pass b p := by
  induction p generalizing b with
  | nil => simp [pass] at h
  | cons step rest ih =>
    cases step with
    | work w =>
      rw [pass_work] at h
      rw [List.cons_append, pass_work, pass_work, ih h]
    | check =>
      cases hcheck : b.check with
      | error i' => rw [List.cons_append, pass_check_of_error hcheck, pass_check_of_error hcheck]
      | ok b' =>
        rw [pass_check_of_ok hcheck] at h
        rw [List.cons_append, pass_check_of_ok hcheck, pass_check_of_ok hcheck, ih h]

/-- A plan that comes to its end is continued with the budget that is left. -/
theorem pass_append_of_ok {b b' : Budget} {p : List PlanStep} (h : (pass b p).1 = .ok b')
    (q : List PlanStep) : pass b (p ++ q) = ((pass b' q).1, (pass b p).2 ++ (pass b' q).2) := by
  induction p generalizing b with
  | nil =>
    obtain rfl : b = b' := Except.ok.inj h
    rfl
  | cons step rest ih =>
    cases step with
    | work w =>
      rw [pass_work] at h
      rw [List.cons_append, pass_work, pass_work, ih h]
      rfl
    | check =>
      cases hcheck : b.check with
      | error i =>
        rw [pass_check_of_error hcheck] at h
        contradiction
      | ok b'' =>
        rw [pass_check_of_ok hcheck] at h
        rw [List.cons_append, pass_check_of_ok hcheck, pass_check_of_ok hcheck, ih h]

/-- With more checks that pass, the same work is done and then more of it. -/
theorem pass_prefix_of_within {b b' : Budget} (h : b.Within b') (plan : List PlanStep) :
    (pass b plan).2 <+: (pass b' plan).2 := by
  induction plan generalizing b b' with
  | nil => exact List.nil_prefix
  | cons step rest ih =>
    cases step with
    | work w =>
      rw [pass_work, pass_work]
      exact (List.prefix_cons_inj w).mpr (ih h)
    | check =>
      cases hcheck : b.check with
      | error i =>
        rw [pass_check_of_error hcheck]
        exact List.nil_prefix
      | ok c =>
        obtain ⟨c', hcheck', hwithin⟩ := h.check hcheck
        rw [pass_check_of_ok hcheck, pass_check_of_ok hcheck']
        exact ih hwithin

/-- Unless a check fails, with the reason of the budget, all the work is done. -/
theorem pass_cases (b : Budget) (plan : List PlanStep) :
    (pass b plan).1 = .error b.reason ∨
      (∃ b', (pass b plan).1 = .ok b') ∧ (pass b plan).2 = works plan := by
  induction plan generalizing b with
  | nil => exact .inr ⟨⟨b, rfl⟩, rfl⟩
  | cons step rest ih =>
    cases step with
    | work w => simpa using ih b
    | check =>
      cases hcheck : b.check with
      | error i =>
        rw [pass_check_of_error hcheck, Budget.eq_reason_of_check_eq_error hcheck]
        exact .inl rfl
      | ok c =>
        rw [pass_check_of_ok hcheck, works_check, ← Budget.reason_of_check_eq_ok hcheck]
        exact ih c

/-- Without a bound on checks all work is done. -/
theorem pass_of_left_eq_none {b : Budget} (h : b.left = none) (plan : List PlanStep) :
    pass b plan = (.ok b, works plan) := by
  induction plan with
  | nil => rfl
  | cons step rest ih =>
    cases step with
    | work w => rw [pass_work, ih, works_work]
    | check => rw [pass_check_of_ok (Budget.check_of_left_eq_none h), ih, works_check]

/-- The work that is done is a beginning of all the work, whatever the budget. -/
theorem pass_front (b : Budget) (plan : List PlanStep) : (pass b plan).2 <+: works plan := by
  have hunlimited : Budget.unlimited.left = none := rfl
  have hfront := pass_prefix_of_within (Budget.within_of_left_eq_none hunlimited b) plan
  rwa [pass_of_left_eq_none hunlimited] at hfront

/-- The plan for the classes still to visit: a check for each of them, and work for those entered. -/
inductive Explores (t : Setting) :
    List (Text × List Text) → List Text → List PlanStep → Prop
  | done {visited : List Text} : Explores t [] visited []
  | seen {name chain rest visited plan} (h : name ∈ visited) (hrest : Explores t rest visited plan) :
      Explores t ((name, chain) :: rest) visited (.check :: plan)
  | unknown {name chain rest visited plan} (h : name ∉ visited)
      (hunit : t.catalog.unit? name = none) (hrest : Explores t rest (name :: visited) plan) :
      Explores t ((name, chain) :: rest) visited (.check :: plan)
  | entered {name chain rest visited u plan} (h : name ∉ visited)
      (hunit : t.catalog.unit? name = some u)
      (hrest : Explores t (following t name (chain ++ [name]) ++ rest) (name :: visited) plan) :
      Explores t ((name, chain) :: rest) visited
        (.check :: .work (.enter u (chain ++ [name])) :: plan)

variable {t : Setting}

/-- There is a plan for all classes still to visit, since every step visits a new class or leaves one
entry less. -/
theorem exists_explores (t : Setting) (todo : List (Text × List Text)) (visited : List Text) :
    ∃ plan, Explores t todo visited plan := by
  obtain ⟨vs, hvs⟩ := exists_visits t todo visited
  induction hvs with
  | done => exact ⟨_, .done⟩
  | seen h _ ih =>
    obtain ⟨plan, hplan⟩ := ih
    exact ⟨_, .seen h hplan⟩
  | unknown h hunit _ ih =>
    obtain ⟨plan, hplan⟩ := ih
    exact ⟨_, .unknown h hunit hplan⟩
  | entered h hunit _ ih =>
    obtain ⟨plan, hplan⟩ := ih
    exact ⟨_, .entered h hunit hplan⟩

/-- The class that is entered, with the chain that led to it. -/
def Work.entered? : Work → Option (SourceUnit × List Text)
  | enter u chain => some (u, chain)
  | _ => none

/-- Only the work of entering a class enters it. -/
theorem Work.entered?_eq_some_iff {w : Work} {e : SourceUnit × List Text} :
    w.entered? = some e ↔ w = .enter e.1 e.2 := by
  cases w <;> simp [entered?, Prod.ext_iff]

/-- The classes that a plan enters, with their chains, are those that the trace visits. -/
theorem Explores.visits {todo : List (Text × List Text)} {visited : List Text}
    {plan : List PlanStep} (h : Explores t todo visited plan) :
    Visits t todo visited ((works plan).filterMap Work.entered?) := by
  induction h with
  | done => exact .done
  | seen h _ ih => exact .seen h ih
  | unknown h hunit _ ih => exact .unknown h hunit ih
  | entered h hunit _ ih => exact .entered h hunit ih

/-- An exploration goes through its plan, with whatever budget. -/
theorem Explores.explore_eq {todo : List (Text × List Text)} {visited : List Text}
    {plan : List PlanStep} (h : Explores t todo visited plan) (b : Budget) (s : State) :
    explore t todo visited b s = ((pass b plan).1, (pass b plan).2.foldl (Work.act t) s) := by
  induction h generalizing b s with
  | done =>
    rw [explore]
    rfl
  | seen hseen _ ih =>
    cases hcheck : b.check with
    | error i => rw [explore, hcheck, pass_check_of_error hcheck, List.foldl_nil]
    | ok b' =>
      rw [explore, hcheck, pass_check_of_ok hcheck]
      simp only [List.contains_eq_mem, hseen, decide_true, dite_true, ih]
  | unknown hnew hunit _ ih =>
    cases hcheck : b.check with
    | error i => rw [explore, hcheck, pass_check_of_error hcheck, List.foldl_nil]
    | ok b' =>
      rw [explore, hcheck, pass_check_of_ok hcheck]
      simp only [List.contains_eq_mem, hnew, decide_false, Bool.false_eq_true, dite_false]
      split
      · exact ih b' s
      · next u hsome => rw [hunit] at hsome; contradiction
  | entered hnew hunit _ ih =>
    cases hcheck : b.check with
    | error i => rw [explore, hcheck, pass_check_of_error hcheck, List.foldl_nil]
    | ok b' =>
      rw [explore, hcheck, pass_check_of_ok hcheck]
      simp only [List.contains_eq_mem, hnew, decide_false, Bool.false_eq_true, dite_false]
      split
      · next hnone => rw [hunit] at hnone; contradiction
      · next u' hsome =>
        obtain rfl := Option.some.inj (hunit.symm.trans hsome)
        exact ih b' _

/-- The plan of a whole trace: an exploration for each start that is a class of the catalog. -/
inductive Plans (t : Setting) : List Text → List PlanStep → Prop
  | done : Plans t [] []
  | skipped {start rest plan} (h : t.catalog.contains start = false) (hrest : Plans t rest plan) :
      Plans t (start :: rest) (.work .skip :: plan)
  | traced {start rest first plan} (h : t.catalog.contains start = true)
      (hfirst : Explores t [(start, [])] [] first) (hrest : Plans t rest plan) :
      Plans t (start :: rest) (.work .begin :: (first ++ plan))

/-- There is a plan for every list of starts, known or not. -/
theorem exists_plans (t : Setting) (starts : List Text) : ∃ plan, Plans t starts plan := by
  induction starts with
  | nil => exact ⟨_, .done⟩
  | cons start rest ih =>
    obtain ⟨plan, hplan⟩ := ih
    cases hcontains : t.catalog.contains start with
    | false => exact ⟨_, .skipped hcontains hplan⟩
    | true =>
      obtain ⟨first, hfirst⟩ := exists_explores t [(start, [])] []
      exact ⟨_, .traced hcontains hfirst hplan⟩

/-- The interruption that checks came to. -/
def stopped? : Except Interruption Budget → Option Interruption
  | .error i => some i
  | .ok _ => none

/-- A trace is its plan carried out as far as the checks let it. -/
theorem Plans.fromStarts_eq {starts : List Text} {plan : List PlanStep} (h : Plans t starts plan)
    (b : Budget) (s : State) :
    fromStarts t starts b s =
      (stopped? (pass b plan).1, (pass b plan).2.foldl (Work.act t) s) := by
  induction h generalizing b s with
  | done => rfl
  | skipped hcontains _ ih =>
    rw [fromStarts, hcontains, pass_work, List.foldl_cons]
    exact ih b _
  | @traced start rest first plan hcontains hfirst _ ih =>
    rw [fromStarts, hcontains, if_pos rfl, pass_work, List.foldl_cons]
    dsimp only
    rw [hfirst.explore_eq]
    cases hpass : (pass b first).1 with
    | error i =>
      rw [pass_append_of_error hpass, hpass]
      rfl
    | ok b' =>
      rw [pass_append_of_ok hpass, List.foldl_append]
      exact ih b' _

/-- Without a pattern a trace fails at once and reads nothing. -/
theorem run_of_normalize_eq_nil {catalog : Catalog} {disk : Disk} {patterns : List Text}
    (h : normalize patterns = []) (graph : ClassGraph) (starts : List Text) (b : Budget)
    (cache : TextCache) :
    run catalog disk graph starts patterns b cache =
      ⟨MatchLog.empty, {}, some .noPatterns, cache⟩ := by
  simp [run, h]

/-- A whole trace goes through its plan, if there is a pattern to look for. -/
theorem run_eq_of_plans {catalog : Catalog} {disk : Disk} {graph : ClassGraph}
    {starts patterns : List Text} (hpatterns : normalize patterns ≠ []) {plan : List PlanStep}
    (h : Plans ⟨catalog, disk, graph, normalize patterns⟩ starts plan) (b : Budget)
    (cache : TextCache) :
    let s := (pass b plan).2.foldl (Work.act ⟨catalog, disk, graph, normalize patterns⟩)
      ⟨MatchLog.empty, {}, SortedMap.empty, cache⟩
    run catalog disk graph starts patterns b cache =
      ⟨s.log, { s.stats with matchCount := s.log.size },
        (stopped? (pass b plan).1).map .interrupted, s.cache⟩ := by
  have hne : (normalize patterns).isEmpty = false := by simpa using hpatterns
  simp [run, hne, h.fromStarts_eq]

end Trace

end ClassAtlas
