import ClassAtlas.Proofs.Service.Outcome

namespace ClassAtlas

namespace Trace

variable {t : Setting} {g : ClassGraph}

/-- An exploration uses nothing of the graph but the dependencies of its classes. -/
theorem explore_congr (h : ∀ name, g.dependencies? name = t.graph.dependencies? name)
    (todo : List (Text × List Text)) (visited : List Text) (budget : Budget) (s : State) :
    explore { t with graph := g } todo visited budget s = explore t todo visited budget s := by
  fun_induction explore t todo visited budget s with
  | case1 => rw [explore]
  | case2 visited budget s name chain rest i hcheck => rw [explore, hcheck]
  | case3 visited budget s name chain rest budget' hcheck hseen ih =>
    rw [explore, hcheck]
    simp only [hseen, dite_true, ih]
  | case4 visited budget s name chain rest budget' hcheck hseen hunit ih =>
    rw [explore, hcheck]
    dsimp only
    rw [dif_neg hseen]
    split
    · exact ih
    · next u hu => rw [hunit] at hu; contradiction
  | case5 visited budget s name chain rest budget' hcheck hseen u hunit chain' next ih =>
    rw [explore, hcheck]
    dsimp only
    rw [dif_neg hseen]
    split
    · next hu => rw [hunit] at hu; contradiction
    · next u' hu =>
      obtain rfl := Option.some.inj (hunit.symm.trans hu)
      rw [h]
      exact ih

/-- A trace from several starts uses nothing of the graph but the dependencies of its classes. -/
theorem fromStarts_congr (h : ∀ name, g.dependencies? name = t.graph.dependencies? name)
    (starts : List Text) (budget : Budget) (s : State) :
    fromStarts { t with graph := g } starts budget s = fromStarts t starts budget s := by
  induction starts generalizing budget s with
  | nil => rfl
  | cons start rest ih => simp only [fromStarts, explore_congr h, ih]

/-- A trace follows the dependencies of the graph and sees nothing else of it. -/
theorem run_congr {g' : ClassGraph} (h : ∀ name, g'.dependencies? name = g.dependencies? name)
    (c : Catalog) (d : Disk) (starts patterns : List Text) (budget : Budget) (cache : TextCache) :
    run c d g' starts patterns budget cache = run c d g starts patterns budget cache := by
  have hstarts := fromStarts_congr (t := ⟨c, d, g, normalize patterns⟩) h
  simp only [run, hstarts]

end Trace

namespace Service

variable {s : Service} {w later : Workspace} {context : Budget} {root : Text}

/-- Two analyses differ in nothing but the time if they see the same files and the same settings. -/
theorem analyze_redated (hdisk : later.disk = w.disk)
    (hloaded : ∀ path, s.policy.resolve w.disk.workdir root = .ok path →
      (s.loadedFor later path).result = (s.loadedFor w path).result) :
    ((s.analyze context root).outcome later).1 =
      ((s.analyze context root).outcome w).1.map (Analysis.redated later.clock) := by
  rw [outcome_analyze, outcome_analyze, hdisk]
  cases hpath : s.policy.resolve w.disk.workdir root with
  | error e => rfl
  | ok path =>
    cases context.check with
    | error i => rfl
    | ok _ =>
      dsimp only
      rw [hloaded path hpath]
      cases (s.loadedFor w path).result with
      | error e => rfl
      | ok settings =>
        dsimp only
        rw [Analysis.run_redated settings w.disk s.budget w.clock later.clock path]
        cases Analysis.run settings w.disk s.budget w.clock path <;> rfl

/-- An analysis changes no files and no snapshots, and the environment only by loading settings. -/
theorem analyze_leaves (s : Service) (context : Budget) (root : Text) (w : Workspace) :
    let later := ((s.analyze context root).outcome w).2
    later.disk = w.disk ∧ later.store = w.store ∧ (later.env = w.env ∨
      ∃ path, s.policy.resolve w.disk.workdir root = .ok path ∧
        later.env = (s.loadedFor w path).env) := by
  rw [outcome_analyze]
  cases hpath : s.policy.resolve w.disk.workdir root with
  | error e => exact ⟨rfl, rfl, Or.inl rfl⟩
  | ok path =>
    cases context.check with
    | error i => exact ⟨rfl, rfl, Or.inl rfl⟩
    | ok _ =>
      dsimp only
      cases (s.loadedFor w path).result with
      | error e => exact ⟨rfl, rfl, Or.inr ⟨path, rfl, rfl⟩⟩
      | ok settings => exact ⟨rfl, rfl, Or.inr ⟨path, rfl, rfl⟩⟩

/-- An answer that is found from an analysis and the files is the same if the analyses differ in
nothing but the time. -/
theorem outcome_eq_of_redated {α : Type} {answer : Analysis → ServiceM α}
    (hanswer : ∀ (a : Analysis) (now : Int) (w₁ w₂ : Workspace), w₁.disk = w₂.disk →
      ((answer (a.redated now)).outcome w₁).1 = ((answer a).outcome w₂).1)
    (hdisk : later.disk = w.disk) {now : Int}
    (hredated : ((s.analyze context root).outcome later).1 =
      ((s.analyze context root).outcome w).1.map (Analysis.redated now)) :
    ((s.analyze context root >>= answer).outcome later).1 =
      ((s.analyze context root >>= answer).outcome w).1 := by
  have hlater := (analyze_leaves s context root later).1
  have hearlier := (analyze_leaves s context root w).1
  rw [outcome_bind, outcome_bind]
  generalize (s.analyze context root).outcome later = o₁ at hredated hlater ⊢
  generalize (s.analyze context root).outcome w = o₂ at hredated hearlier ⊢
  obtain ⟨result₁, w₁⟩ := o₁
  obtain ⟨result₂, w₂⟩ := o₂
  obtain rfl : result₁ = result₂.map (Analysis.redated now) := hredated
  cases result₂ with
  | error e => rfl
  | ok a => exact hanswer a now w₁ w₂ (hlater.trans (hdisk.trans hearlier.symm))

/-- The settings of a project are the same behind the analysis of another one that adds nothing which
the project would see. -/
theorem loadedFor_result_eq {before : Budget} {first path : Text}
    (h : s.settings = none → ∀ a, s.policy.resolve w.disk.workdir first = .ok a →
      Settings.Undisturbed w.disk w.env a path) :
    (s.loadedFor ((s.analyze before first).outcome w).2 path).result = (s.loadedFor w path).result := by
  obtain ⟨hdisk, -, henv⟩ := analyze_leaves s before first w
  unfold loadedFor
  cases hsettings : s.settings with
  | some settings => rfl
  | none =>
    dsimp only
    rw [hdisk]
    obtain heq | ⟨a, ha, heq⟩ := henv
    · rw [heq]
    · rw [heq, loadedFor, hsettings]
      exact Settings.load_result_congr ((Settings.agree_iff_undisturbed ..).mpr (h hsettings a ha))

/-- The values that a project sees are those it would see alone, exactly if what was loaded before adds
nothing that it would see. Then its settings are the same, and so are the answers about it, where the
analysis itself has another time and all else alike. Settings that are fixed for the service are the
same in any case. -/
theorem analyze_isolated (s : Service) (w : Workspace) (before context : Budget) (first root : Text)
    (starts patterns : List Text) (showDependency : Bool) :
    (∀ d env a b, (Settings.Agree (Settings.load d (Settings.load d env a []).env b []).env
        (Settings.load d env b []).env ↔ Settings.Undisturbed d env a b) ∧
      (Settings.Undisturbed d env a b → (Settings.load d (Settings.load d env a []).env b []).result =
        (Settings.load d env b []).result)) ∧
    ((s.settings = none → ∀ a b, s.policy.resolve w.disk.workdir first = .ok a →
        s.policy.resolve w.disk.workdir root = .ok b → Settings.Undisturbed w.disk w.env a b) →
      let later := ((s.analyze before first).outcome w).2
      ((s.analyze context root).outcome later).1 =
        ((s.analyze context root).outcome w).1.map (Analysis.redated later.clock) ∧
      ((s.trace context root starts patterns).outcome later).1 =
        ((s.trace context root starts patterns).outcome w).1 ∧
      ((s.expose context root showDependency).outcome later).1 =
        ((s.expose context root showDependency).outcome w).1 ∧
      ((s.tables context root).outcome later).1 = ((s.tables context root).outcome w).1) := by
  constructor
  · intro d env a b
    have hagree := Settings.agree_iff_undisturbed d env a b
    exact ⟨hagree, fun h => Settings.load_result_congr (hagree.mpr h)⟩
  · intro h later
    have hdisk : later.disk = w.disk := (analyze_leaves s before first w).1
    have hredated : ((s.analyze context root).outcome later).1 =
        ((s.analyze context root).outcome w).1.map (Analysis.redated later.clock) := by
      apply analyze_redated hdisk
      intro path hpath
      exact loadedFor_result_eq fun hnone a ha => h hnone a path ha hpath
    refine ⟨hredated, ?_, ?_, ?_⟩
    · refine outcome_eq_of_redated (fun a now w₁ w₂ hsame => ?_) hdisk hredated
      have htrace : ∀ starts patterns budget cache,
          Trace.run a.catalog w₂.disk (a.redated now).graph starts patterns budget cache =
            Trace.run a.catalog w₂.disk a.graph starts patterns budget cache :=
        Trace.run_congr (by intro _; rfl) _ _
      simp only [outcome_bind, outcome_get, hsame, Analysis.redated_settings, Analysis.redated_catalog,
        Analysis.redated_cache, htrace]
      split <;> rfl
    · refine outcome_eq_of_redated (fun a now w₁ w₂ hsame => ?_) hdisk hredated
      simp only [outcome_bind, outcome_get, outcome_attempt, hsame]
      rfl
    · exact outcome_eq_of_redated (fun _ _ _ _ _ => rfl) hdisk hredated

/-- Two projects in one workspace, each with a file of variables. -/
def twoProjects (ofA ofB : Text) : Workspace where
  disk := ((Disk.blank "/").put ["a", ".env"] (.file ofA)).put ["b", ".env"] (.file ofB)
  env := SortedMap.empty
  store := none
  clock := 0

/-- Two projects that set one variable alike do not disturb each other. -/
theorem analyze_isolated_alike :
    let s : Service := {}
    let w := twoProjects "MODTRACE_EXPOSE_DIR=shared\nHOME=/a\n" "MODTRACE_EXPOSE_DIR=shared\n"
    Settings.Undisturbed w.disk w.env "/a" "/b" ∧
      ((s.expose .unlimited "/b" false).outcome ((s.analyze .unlimited "/a").outcome w).2).1 =
        ((s.expose .unlimited "/b" false).outcome w).1 := by
  intro s w
  have hresolve : s.policy.resolve w.disk.workdir "/a" = .ok "/a" ∧
      s.policy.resolve w.disk.workdir "/b" = .ok "/b" := ⟨rfl, rfl⟩
  have hundisturbed : Settings.Undisturbed w.disk w.env "/a" "/b" := by
    unfold Settings.Undisturbed
    decide +kernel
  obtain ⟨-, hanswers⟩ := analyze_isolated s w .unlimited .unlimited "/a" "/b" [] [] false
  refine ⟨hundisturbed, (hanswers ?_).2.2.1⟩
  intro _ a b ha hb
  rw [hresolve.1] at ha
  rw [hresolve.2] at hb
  obtain rfl := Except.ok.inj ha
  obtain rfl := Except.ok.inj hb
  exact hundisturbed

/-- What the first project sets stays in force for the second one, against its own file. -/
theorem analyze_not_isolated :
    let s : Service := {}
    let w := twoProjects "MODTRACE_EXPOSE_DIR=api\n" "MODTRACE_EXPOSE_DIR=shared\n"
    let later := ((s.analyze .unlimited "/a").outcome w).2
    ((s.analyze .unlimited "/b").outcome w).1.toOption.map (·.settings.exposeDir) = some "shared" ∧
      ((s.analyze .unlimited "/b").outcome later).1.toOption.map (·.settings.exposeDir) = some "api" := by
  decide +kernel

end Service

end ClassAtlas
