import ClassAtlas.Proofs.Graph.Refinement

namespace ClassAtlas.Build

open Dependency

variable {c : Catalog} {x : Extractor} {d : Disk} {b : Build}

/-- If nothing has failed behind a step, nothing had before it. -/
theorem andThen_failure_eq_none {next : Build → Build} (h : (b.andThen next).failure = none) :
    b.failure = none ∧ (next b).failure = none := by
  cases hfailure : b.failure with
  | none =>
    rw [andThen_of_none hfailure] at h
    exact ⟨rfl, h⟩
  | some e =>
    rw [andThen_of_some hfailure, hfailure] at h
    contradiction

/-- Edges that were found without a failure are those found without a limit. -/
theorem extractEdges_uninterrupted {every total done : Nat} {names : List Text} {budget : Budget}
    (h : (extractEdges x d every total done names budget b).failure = none) :
    extractEdges x d every total done names budget b =
      extractEdges x d every total done names .unlimited b := by
  induction names generalizing done budget b with
  | nil => rfl
  | cons name rest ih =>
    rw [extractEdges] at h
    rw [extractEdges, extractEdges]
    cases hcheck : budget.check with
    | error i =>
      rw [hcheck] at h
      contradiction
    | ok budget' =>
      rw [hcheck] at h
      obtain ⟨hclass, hrest⟩ := andThen_failure_eq_none h
      simp only [Budget.check, Budget.unlimited, andThen_of_none hclass]
      exact ih hrest

/-- A build up to its last step, which sets the time. -/
def unfinished (x : Extractor) (d : Disk) (options : BuildOptions) (budget : Budget)
    (cache : TextCache) : Build :=
  let every := if options.progressEvery ≤ 0 then 500 else options.progressEvery.toNat
  let start : Build := ⟨ClassGraph.new x.root options.limits, none, [], {}, [], none, cache⟩
  ((addModules x.modules start).andThen (addClasses x.list)).andThen fun b =>
    extractEdges x d every x.size 0 x.names budget (b.report .collecting x.size 0)

/-- The last step of a build sets the time, unless the build has failed. -/
theorem run_eq (x : Extractor) (d : Disk) (options : BuildOptions) (budget : Budget) (now : Int)
    (cache : TextCache) : run x d options budget now cache =
      (unfinished x d options budget cache).andThen (finish now x.size) := rfl

/-- A build without a failure is the one without a limit on its checks. -/
theorem run_uninterrupted {options : BuildOptions} {budget : Budget} {now : Int} {cache : TextCache}
    (h : (run x d options budget now cache).failure = none) :
    run x d options budget now cache = run x d options .unlimited now cache := by
  have hunfinished : (unfinished x d options budget cache).failure = none :=
    (andThen_failure_eq_none (run_eq .. ▸ h)).1
  rw [run_eq, run_eq]
  congr 1
  unfold unfinished at hunfinished ⊢
  obtain ⟨hclasses, hedges⟩ := andThen_failure_eq_none hunfinished
  rw [andThen_of_none hclasses, andThen_of_none hclasses]
  exact extractEdges_uninterrupted hedges

/-- A build that came to its end has dealt with all classes, and there was room for them and for their
edges. -/
theorem run_completed (hscanned : x.Scanned) {options : BuildOptions} {budget : Budget} {now : Int}
    {cache : TextCache} (h : (run x d options budget now cache).failure = none) :
    ∃ b, run x d options budget now cache = finish now x.size b ∧
      Advances x d (extraction x d cache) x.names (collected x options.limits cache) b ∧
      Fits 0 x.size options.limits.nodes ∧
      Fits 0 (x.names.flatMap (edgesFound (extraction x d cache))).length options.limits.edges := by
  have hunlimited : Budget.unlimited.left = none := rfl
  have hsame := run_uninterrupted h
  rw [hsame] at h ⊢
  obtain ⟨-, name, hfailure⟩ | ⟨hnodes, b, hrun, hgrows⟩ := run_cases (d := d) options now cache
    (fun name u hu => (hscanned.proper hu).1) hunlimited
  · rw [hfailure] at h
    contradiction
  · rw [hrun] at h ⊢
    obtain ⟨hnone, -⟩ := andThen_failure_eq_none h
    obtain ⟨hedges, hadvances⟩ | ⟨-, source, target, hfailure⟩ := hgrows
    · exact ⟨b, andThen_of_none hnone, hadvances, hnodes, hedges⟩
    · rw [hfailure] at hnone
      contradiction

section

variable (hscanned : x.Scanned) {options : BuildOptions} {budget : Budget} {now : Int} {cache : TextCache}
  (h : (run x d options budget now cache).failure = none)

include hscanned h

/-- A build that came to its end shows its catalog with the dependencies found on the way. -/
theorem run_reflects : (run x d options budget now cache).Reflects x (extraction x d cache) := by
  have hreach := run_reachable x d options budget now cache
  obtain ⟨b, hrun, hadvances, -, -⟩ := run_completed hscanned h
  rw [hrun] at hreach ⊢
  exact hadvances.reflects (fun name u hu => hscanned.proper hu) hreach

/-- The time of the graph is that of the build. -/
theorem run_builtAt : (run x d options budget now cache).graph.builtAt = now := by
  obtain ⟨b, hrun, -⟩ := run_completed hscanned h
  rw [hrun]
  rfl

/-- The graph of a build that came to its end is within its limits. -/
theorem run_within_limits :
    ((run x d options budget now cache).graph.nodeCount : Int) ≤ max 0 options.limits.nodes ∧
      ((run x d options budget now cache).graph.edgeCount : Int) ≤ max 0 options.limits.edges := by
  obtain ⟨b, hrun, hadvances, hnodes, hedges⟩ := run_completed hscanned h
  have hnodeCount : (finish now x.size b).graph.nodeCount = x.size :=
    (SortedMap.size_map ..).trans hadvances.nodeCount
  have hedgeCount : (finish now x.size b).graph.edgeCount =
      (x.names.flatMap (edgesFound (extraction x d cache))).length := by
    change b.graph.edges.size = _
    rw [hadvances.graph, ← Array.length_toList, (GraphDocument.linkAll_keeps _ _).2.2.2, List.length_append,
      List.length_map]
    exact Nat.zero_add _
  unfold Fits at hnodes hedges
  rw [hrun, hnodeCount, hedgeCount]
  omega

end

end ClassAtlas.Build
