import ClassAtlas.Proofs.Expose.Callers
import ClassAtlas.Proofs.Impact.Classes
import ClassAtlas.Proofs.Impact.Modules
import ClassAtlas.Proofs.Impact.Seeds

namespace ClassAtlas.Impact

open ClassGraph ModuleGraph

variable {g : ClassGraph} {c : Catalog} {name : Text}

/-- A step between classes stays in the module or is a step between modules. -/
theorem moduleOf_eq_or_mem_dependents (hg : g.WellFormed) {source target : Text}
    (h : source ∈ dependentsOf g target) :
    g.moduleOf source = g.moduleOf target ∨
      g.moduleOf source ∈ (project g).dependents (g.moduleOf target) := by
  obtain ⟨e, he, hends⟩ := (mem_dependentsOf_iff hg).mp h
  obtain ⟨rfl, rfl⟩ := Prod.mk.inj hends
  by_cases hsame : g.moduleOf e.source = g.moduleOf e.target
  · exact Or.inl hsame
  · apply Or.inr
    apply mem_dependents_project_iff.mpr
    exact (exists_joins_iff hg _ _).mpr ⟨hsame, e, he, (hg.joins_iff he).mpr ⟨rfl, rfl⟩⟩

/-- Without a limit, every module from which a way leads to a changed one is changed or impacted. -/
theorem module_covered {modules : List Text} {n : Nat}
    (hway : Reverse.Way (project g).dependents modules n name) :
    name ∈ modules ∨ ∃ i ∈ impactedModules (project g) 0 modules, i.module = name := by
  by_cases hmem : name ∈ modules
  · exact Or.inl hmem
  · obtain ⟨r, hr, rfl⟩ :=
      (Reverse.mem_closure_zero_iff mem_sources_of_mem_dependents).mpr ⟨hmem, n, hway⟩
    exact Or.inr ⟨_, List.mem_map_of_mem (mem_sortBy.mpr hr), rfl⟩

/-- The modules of affected classes are changed or impacted, if those of the changed classes are
changed. -/
theorem moduleOf_covered (hg : g.WellFormed) {classes modules : List Text}
    (hseeds : ∀ s ∈ classes, g.moduleOf s ∈ modules) (hname : name ∈ affectedClasses g classes) :
    g.moduleOf name ∈ modules ∨
      ∃ i ∈ impactedModules (project g) 0 modules, i.module = g.moduleOf name := by
  obtain ⟨-, n, hway⟩ := (mem_affectedClasses_iff hg).mp hname
  obtain ⟨k, -, hmodules⟩ :=
    hway.map hseeds fun _ _ hstep => moduleOf_eq_or_mem_dependents hg hstep
  exact module_covered hmodules

/-- A class of the graph is the one of the catalog, with the same module. -/
theorem moduleOf_eq_module (hg : g.Draws c) {u : SourceUnit} (hu : g.units.find? name = some u) :
    c.unit? name = some u ∧ g.moduleOf name = u.module := by
  refine ⟨hg.unit? name u hu, ?_⟩
  rw [moduleOf_eq, hu]
  rfl

/-- All affected classes are classes of the graph. -/
theorem exists_unit_of_mem_affectedClasses (hg : g.WellFormed) {changed : List Text}
    (hname : name ∈ affectedClasses g changed) : ∃ u, g.units.find? name = some u := by
  obtain ⟨hnew, n, hway⟩ := (mem_affectedClasses_iff hg).mp hname
  cases hway with
  | seed hs => exact absurd hs hnew
  | step _ hb =>
    obtain ⟨e, he, hends⟩ := (mem_dependentsOf_iff hg).mp hb
    obtain ⟨rfl, rfl⟩ := Prod.mk.inj hends
    obtain ⟨⟨n, hn⟩, -⟩ := hg.node_of_mem he
    exact ⟨n.unit, units_of_node? hn⟩

/-- In the graph of a catalog whose classes all have known modules, the report on modules covers the
report on classes, if the search for modules has no limit. -/
theorem analyzeFiles_covers {x : Extractor} (hc : x.Grounded) (hknown : ∀ u ∈ x.list, u.module ≠ Module.unknown)
    (d : Disk) (building : BuildOptions) (allowed : Budget) (now : Int) (cache : TextCache)
    (options : ImpactOptions) (hdepth : options.maxDepth = 0) (files : List ChangedFile)
    (budget : Budget) :
    (budget.left = none → ∃ r, analyzeFiles (Build.run x d building allowed now cache).graph options
      files budget = .ok r) ∧
    ∀ r, analyzeFiles (Build.run x d building allowed now cache).graph options files budget = .ok r →
      (∀ name ∈ r.changedClasses, ∃ u, x.unit? name = some u ∧ u.module ∈ r.changedModules) ∧
      ∀ name ∈ r.affectedClasses, ∃ u, x.unit? name = some u ∧
        (u.module ∈ r.changedModules ∨ ∃ i ∈ r.impactedModules, i.module = u.module) := by
  refine ⟨exists_analyzeFiles _ _ _, ?_⟩
  intro r hr
  have hdraws := Build.run_draws hc d building allowed now cache
  have hwell := (Build.run_reachable x d building allowed now cache).wellFormed
  obtain ⟨-, -, haffected, himpacted⟩ := analyzeFiles_eq_ok hr
  have hchanged : ∀ name ∈ r.changedClasses, ∃ u, x.unit? name = some u ∧
      (Build.run x d building allowed now cache).graph.moduleOf name = u.module ∧
      u.module ∈ r.changedModules := by
    intro name hname
    obtain ⟨u, hu, -⟩ := (mem_changedClasses_iff hdraws hr).mp hname
    obtain ⟨hunit, hmodule⟩ := moduleOf_eq_module hdraws hu
    refine ⟨u, hunit, hmodule, ?_⟩
    apply (module_mem_changedModules_iff hdraws hr hu hname).mpr
    exact hknown u (SortedMap.mem_values_iff.mpr ⟨name, hunit⟩)
  refine ⟨?_, ?_⟩
  · intro name hname
    obtain ⟨u, hunit, -, hmem⟩ := hchanged name hname
    exact ⟨u, hunit, hmem⟩
  · intro name hname
    rw [haffected] at hname
    obtain ⟨u, hu⟩ := exists_unit_of_mem_affectedClasses hwell hname
    obtain ⟨hunit, hmodule⟩ := moduleOf_eq_module hdraws hu
    have hseeds : ∀ s ∈ r.changedClasses,
        (Build.run x d building allowed now cache).graph.moduleOf s ∈ r.changedModules := by
      intro s hs
      obtain ⟨v, -, hv, hmem⟩ := hchanged s hs
      exact hv ▸ hmem
    have hcovered := moduleOf_covered hwell hseeds hname
    rw [hmodule] at hcovered
    rw [himpacted, hdepth]
    exact ⟨u, hunit, hcovered⟩

open CallerIndex in
/-- The class that uses a changed one is in a module of its own, which is impacted and not changed. -/
theorem analyzeFiles_covers_shared : sharedCatalog.Grounded ∧
    (∀ u ∈ sharedCatalog.list, u.module ≠ Module.unknown) ∧ ({} : ImpactOptions).maxDepth = 0 ∧
    ∃ r, analyzeFiles (Build.run sharedExtractor sharedDisk {} .unlimited 7 sharedCache).graph {}
        [.plain "b/B.java" [] .modified] .unlimited = .ok r ∧
      Text.ofString "p.A" ∈ r.affectedClasses ∧ Text.ofString "a" ∉ r.changedModules ∧
      ∃ i ∈ r.impactedModules, i.module = "a" := by
  have hgrounded : sharedCatalog.Grounded := ⟨_, _, _, _, _, by decide, scan_sharedDisk⟩
  have hknown : ∀ u ∈ sharedCatalog.list, u.module ≠ Module.unknown := by decide
  obtain ⟨hexists, hcovers⟩ := analyzeFiles_covers (x := sharedExtractor) hgrounded hknown sharedDisk {}
    .unlimited 7 sharedCache {} rfl [.plain "b/B.java" [] .modified] .unlimited
  obtain ⟨r, hr⟩ := hexists rfl
  have hdraws := Build.run_draws (x := sharedExtractor) hgrounded sharedDisk {} .unlimited 7 sharedCache
  have hwell := (Build.run_reachable sharedExtractor sharedDisk {} .unlimited 7 sharedCache).wellFormed
  obtain ⟨-, hmodules, haffected, -⟩ := analyzeFiles_eq_ok hr
  have hseed : ∀ p, IsSeed ({} : ImpactOptions).extension [.plain "b/B.java" [] .modified] p →
      p = "b/B.java" := by
    rintro p ⟨hne, f, hf, -, hp⟩
    obtain rfl := List.mem_singleton.mp hf
    exact hp.resolve_right hne
  have hunit : sharedCatalog.unit? "p.A" = some ⟨"p.A", "p", "/a/A.java", "a"⟩ := by decide
  have hused : Text.ofString "p.B" ∈ r.changedClasses := by
    apply (mem_changedClasses_iff hdraws hr).mpr
    refine ⟨⟨"p.B", "p", "/b/B.java", "b"⟩, by decide, "b/B.java", by decide, ?_⟩
    exact ⟨by decide, _, List.mem_singleton_self _, by decide, Or.inl rfl⟩
  have huser : Text.ofString "p.A" ∉ r.changedClasses := by
    intro hmem
    obtain ⟨u, hu, p, hrel, hp⟩ := (mem_changedClasses_iff hdraws hr).mp hmem
    obtain rfl := hseed p hp
    obtain rfl := Option.some.inj (hunit.symm.trans (hdraws.unit? _ _ hu))
    revert hrel
    decide
  have hfound : Text.ofString "p.A" ∈ r.affectedClasses := by
    rw [haffected]
    apply (mem_affectedClasses_iff hwell).mpr
    exact ⟨huser, 1, .step (.seed hused) (by decide +kernel)⟩
  have hunchanged : Text.ofString "a" ∉ r.changedModules := by
    intro hmem
    obtain ⟨-, p, hp, hmodule⟩ := (hmodules "a").mp hmem
    obtain rfl := hseed p hp
    revert hmodule
    decide
  obtain ⟨u, hu, hcovered⟩ := (hcovers r hr).2 "p.A" hfound
  obtain rfl := Option.some.inj (hunit.symm.trans hu)
  exact ⟨hgrounded, hknown, rfl, r, hr, hfound, hunchanged, hcovered.resolve_left hunchanged⟩

end ClassAtlas.Impact
