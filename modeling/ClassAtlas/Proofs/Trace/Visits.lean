import ClassAtlas.Proofs.Graph.Views
import ClassAtlas.Trace.Walk
import Mathlib.Logic.Relation

namespace ClassAtlas.Trace

/-- An edge that leads to a class of the catalog. -/
def Leads (c : Catalog) (g : ClassGraph) (a b : Text) : Prop :=
  g.hasEdge a b = true ∧ c.contains b = true

/-- A class is reachable from a class of the catalog through classes of the catalog only. -/
def Reaches (c : Catalog) (g : ClassGraph) (start name : Text) : Prop :=
  c.contains start = true ∧ Relation.ReflTransGen (Leads c g) start name

/-- What stands to be done when a class is entered along a chain. -/
def following (t : Setting) (name : Text) (chain : List Text) : List (Text × List Text) :=
  ((t.graph.dependencies? name).getD []).map fun d => (d, chain)

/-- The classes entered, with the chains that lead to them, while the classes to visit are worked
through. -/
inductive Visits (t : Setting) :
    List (Text × List Text) → List Text → List (SourceUnit × List Text) → Prop
  | done {visited : List Text} : Visits t [] visited []
  | seen {name chain rest visited vs} (h : name ∈ visited) (hrest : Visits t rest visited vs) :
      Visits t ((name, chain) :: rest) visited vs
  | unknown {name chain rest visited vs} (h : name ∉ visited) (hunit : t.catalog.unit? name = none)
      (hrest : Visits t rest (name :: visited) vs) : Visits t ((name, chain) :: rest) visited vs
  | entered {name chain rest visited u vs} (h : name ∉ visited)
      (hunit : t.catalog.unit? name = some u)
      (hrest : Visits t (following t name (chain ++ [name]) ++ rest) (name :: visited) vs) :
      Visits t ((name, chain) :: rest) visited ((u, chain ++ [name]) :: vs)

variable {t : Setting}

/-- Without an interruption a trace enters one class after the other. -/
theorem Visits.explore_eq {todo : List (Text × List Text)} {visited : List Text}
    {vs : List (SourceUnit × List Text)} (h : Visits t todo visited vs) {budget : Budget}
    (hbudget : budget.left = none) (s : State) :
    explore t todo visited budget s = (.ok budget, vs.foldl (fun s v => enter t v.1 v.2 s) s) := by
  have hcheck := Budget.check_of_left_eq_none hbudget
  induction h generalizing s with
  | done => rw [explore]; rfl
  | seen hseen _ ih =>
    rw [explore, hcheck]
    simp only [List.contains_eq_mem, hseen, decide_true, dite_true]
    exact ih s
  | unknown hnew hunit _ ih =>
    rw [explore, hcheck]
    simp only [List.contains_eq_mem, hnew, decide_false, Bool.false_eq_true, dite_false]
    split
    · exact ih s
    · next u hsome => rw [hunit] at hsome; contradiction
  | @entered name chain rest visited u vs hnew hunit _ ih =>
    rw [explore, hcheck]
    simp only [List.contains_eq_mem, hnew, decide_false, Bool.false_eq_true, dite_false]
    split
    · next hnone => rw [hunit] at hnone; contradiction
    · next u' hsome =>
      rw [hunit] at hsome
      obtain rfl := Option.some.inj hsome
      exact ih _

/-- The work always comes to an end. -/
theorem exists_visits (t : Setting) (todo : List (Text × List Text)) (visited : List Text) :
    ∃ vs, Visits t todo visited vs := by
  have hall : ∀ budget : Budget, budget.left = none → State → ∃ vs, Visits t todo visited vs := by
    intro budget hbudget s
    fun_induction explore t todo visited budget s with
    | case1 => exact ⟨[], .done⟩
    | case2 _ _ _ _ _ _ i hcheck => simp [Budget.check, hbudget] at hcheck
    | case3 visited budget s name chain rest budget' hcheck hseen ih =>
      have hsame : budget = budget' := by simpa [Budget.check, hbudget] using hcheck
      obtain ⟨vs, hvs⟩ := ih (hsame ▸ hbudget)
      exact ⟨vs, .seen (by simpa using hseen) hvs⟩
    | case4 visited budget s name chain rest budget' hcheck hseen hunit ih =>
      have hsame : budget = budget' := by simpa [Budget.check, hbudget] using hcheck
      obtain ⟨vs, hvs⟩ := ih (hsame ▸ hbudget)
      exact ⟨vs, .unknown (by simpa using hseen) hunit hvs⟩
    | case5 visited budget s name chain rest budget' hcheck hseen u hunit chain' next ih =>
      have hsame : budget = budget' := by simpa [Budget.check, hbudget] using hcheck
      obtain ⟨vs, hvs⟩ := ih (hsame ▸ hbudget)
      exact ⟨_, .entered (by simpa using hseen) hunit hvs⟩
  exact hall Budget.unlimited rfl ⟨MatchLog.empty, {}, SortedMap.empty, TextCache.ofSize 0⟩

/-- A class is reachable through classes of the catalog that are not to be avoided. -/
inductive ReachesAvoiding (c : Catalog) (g : ClassGraph) (avoid : List Text) : Text → Text → Prop
  | here {a} (ha : a ∉ avoid) (hunit : c.contains a = true) : ReachesAvoiding c g avoid a a
  | step {a b d} (ha : a ∉ avoid) (hunit : c.contains a = true) (hedge : g.hasEdge a b = true)
    (hrest : ReachesAvoiding c g avoid b d) : ReachesAvoiding c g avoid a d

namespace ReachesAvoiding

variable {c : Catalog} {g : ClassGraph} {avoid : List Text} {a d name : Text}

/-- The start is a class that is not to be avoided. -/
theorem start_allowed (h : ReachesAvoiding c g avoid a d) : a ∉ avoid ∧ c.contains a = true := by
  cases h with
  | here ha hunit => exact ⟨ha, hunit⟩
  | step ha hunit _ _ => exact ⟨ha, hunit⟩

/-- The class that is reached is not to be avoided. -/
theorem end_allowed (h : ReachesAvoiding c g avoid a d) : d ∉ avoid ∧ c.contains d = true := by
  induction h with
  | here ha hunit => exact ⟨ha, hunit⟩
  | step _ _ _ _ ih => exact ih

/-- Fewer classes to avoid leave more ways. -/
theorem weaken (h : ReachesAvoiding c g (name :: avoid) a d) : ReachesAvoiding c g avoid a d := by
  induction h with
  | here ha hunit => exact .here (fun hmem => ha (List.mem_cons_of_mem _ hmem)) hunit
  | step ha hunit hedge _ ih =>
    exact .step (fun hmem => ha (List.mem_cons_of_mem _ hmem)) hunit hedge ih

/-- A way either avoids a class, or ends in it, or avoids it behind its last visit to it. -/
theorem split (h : ReachesAvoiding c g avoid a d) (name : Text) :
    ReachesAvoiding c g (name :: avoid) a d ∨
      (c.contains name = true ∧ (d = name ∨ ∃ b, g.hasEdge name b = true ∧
        ReachesAvoiding c g (name :: avoid) b d)) := by
  induction h with
  | @here a ha hunit =>
    by_cases hname : a = name
    · exact Or.inr ⟨hname ▸ hunit, Or.inl hname⟩
    · exact Or.inl (.here (by simp [hname, ha]) hunit)
  | @step a b d ha hunit hedge _ ih =>
    rcases ih with hrest | hthrough
    · by_cases hname : a = name
      · exact Or.inr ⟨hname ▸ hunit, Or.inr ⟨b, hname ▸ hedge, hrest⟩⟩
      · exact Or.inl (.step (by simp [hname, ha]) hunit hedge hrest)
    · exact Or.inr hthrough

end ReachesAvoiding

/-- With nothing to avoid, everything reachable can be reached. -/
theorem reachesAvoiding_nil_iff {c : Catalog} {g : ClassGraph} {start name : Text} :
    ReachesAvoiding c g [] start name ↔ Reaches c g start name := by
  constructor
  · intro h
    refine ⟨h.start_allowed.2, ?_⟩
    induction h with
    | here => exact .refl
    | step _ _ hedge hrest ih => exact .head ⟨hedge, hrest.start_allowed.2⟩ ih
  · rintro ⟨hstart, hpath⟩
    induction hpath using Relation.ReflTransGen.head_induction_on with
    | refl => exact .here (by simp) hstart
    | head hlead _ ih => exact .step (by simp) hstart hlead.1 (ih hlead.2)

/-- What follows a class are the classes to which it has edges, along the same chain. -/
theorem mem_following_iff (hg : t.graph.WellFormed) {name : Text} {chain : List Text}
    {e : Text × List Text} :
    e ∈ following t name chain ↔ t.graph.hasEdge name e.1 = true ∧ e.2 = chain := by
  unfold following
  rw [hg.hasEdge_iff, ← hg.mem_dependencies_iff, List.mem_map]
  cases hdeps : t.graph.dependencies? name with
  | none => simp
  | some ds =>
    simp only [Option.getD_some, Option.some.injEq, exists_eq_left']
    constructor
    · rintro ⟨d, hd, rfl⟩
      exact ⟨hd, rfl⟩
    · rintro ⟨hd, rfl⟩
      exact ⟨e.1, hd, rfl⟩

/-- A class is entered exactly if a class to visit leads to it around those already visited. -/
theorem Visits.mem_iff (hg : t.graph.WellFormed) {todo : List (Text × List Text)}
    {visited : List Text}
    {vs : List (SourceUnit × List Text)} (h : Visits t todo visited vs) (d : Text) :
    d ∈ vs.map (·.1.name) ↔ ∃ e ∈ todo, ReachesAvoiding t.catalog t.graph visited e.1 d := by
  induction h with
  | done => simp
  | @seen name chain rest visited vs hseen _ ih =>
    rw [ih]
    constructor
    · rintro ⟨e, he, hreach⟩
      exact ⟨e, List.mem_cons_of_mem _ he, hreach⟩
    · rintro ⟨e, he, hreach⟩
      rcases List.mem_cons.mp he with rfl | he
      · exact absurd hseen hreach.start_allowed.1
      · exact ⟨e, he, hreach⟩
  | @unknown name chain rest visited vs hnew hunit _ ih =>
    have hnone : ¬ t.catalog.contains name = true := by
      intro hcontains
      obtain ⟨u, hu⟩ := SortedMap.contains_iff.mp hcontains
      exact absurd (hunit.symm.trans hu) (by simp)
    rw [ih]
    constructor
    · rintro ⟨e, he, hreach⟩
      exact ⟨e, List.mem_cons_of_mem _ he, hreach.weaken⟩
    · rintro ⟨e, he, hreach⟩
      rcases List.mem_cons.mp he with rfl | he
      · exact absurd hreach.start_allowed.2 hnone
      · -- no way leads through a class that is not in the catalog
        rcases hreach.split name with hreach | ⟨hcontains, -⟩
        · exact ⟨e, he, hreach⟩
        · exact absurd hcontains hnone
  | @entered name chain rest visited u vs hnew hunit _ ih =>
    have hcontains : t.catalog.contains name = true := SortedMap.contains_iff.mpr ⟨u, hunit⟩
    have hname : u.name = name := UnitMap.name_of_find? hunit
    rw [List.map_cons, List.mem_cons, ih, hname]
    constructor
    · rintro (rfl | ⟨e, he, hreach⟩)
      · exact ⟨_, List.mem_cons_self .., .here hnew hcontains⟩
      · rcases List.mem_append.mp he with he | he
        · exact ⟨_, List.mem_cons_self ..,
            .step hnew hcontains ((mem_following_iff hg).mp he).1 hreach.weaken⟩
        · exact ⟨e, List.mem_cons_of_mem _ he, hreach.weaken⟩
    · rintro ⟨e, he, hreach⟩
      rcases hreach.split name with hreach | ⟨-, rfl | ⟨b, hedge, hreach⟩⟩
      · rcases List.mem_cons.mp he with rfl | he
        · exact absurd (List.mem_cons_self ..) hreach.start_allowed.1
        · exact Or.inr ⟨e, List.mem_append_right _ he, hreach⟩
      · exact Or.inl rfl
      · exact Or.inr ⟨(b, chain ++ [name]),
          List.mem_append_left _ ((mem_following_iff hg).mpr ⟨hedge, rfl⟩), hreach⟩

/-- No class is entered twice. -/
theorem Visits.nodup (hg : t.graph.WellFormed) {todo : List (Text × List Text)}
    {visited : List Text} {vs : List (SourceUnit × List Text)} (h : Visits t todo visited vs) :
    (vs.map (·.1.name)).Nodup := by
  induction h with
  | done => simp
  | seen _ _ ih => exact ih
  | unknown _ _ _ ih => exact ih
  | @entered name chain rest visited u vs hnew hunit hrest ih =>
    rw [List.map_cons, UnitMap.name_of_find? hunit]
    refine List.nodup_cons.mpr ⟨?_, ih⟩
    intro hmem
    obtain ⟨e, -, hreach⟩ := (hrest.mem_iff hg name).mp hmem
    exact hreach.end_allowed.1 (List.mem_cons_self ..)

/-- What is entered is what the catalog has under its name. -/
theorem Visits.unit_eq {todo : List (Text × List Text)} {visited : List Text}
    {vs : List (SourceUnit × List Text)} (h : Visits t todo visited vs) {v : SourceUnit × List Text}
    (hv : v ∈ vs) :
    t.catalog.unit? v.1.name = some v.1 := by
  induction h with
  | done => simp at hv
  | seen _ _ ih => exact ih hv
  | unknown _ _ _ ih => exact ih hv
  | entered _ hunit _ ih =>
    rcases List.mem_cons.mp hv with rfl | hv
    · rw [UnitMap.name_of_find? hunit]
      exact hunit
    · exact ih hv

end ClassAtlas.Trace
