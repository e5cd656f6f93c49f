import ClassAtlas.Proofs.Graph.Order

namespace ClassAtlas

namespace ClassGraph

variable {g g' : ClassGraph}

/-- No calls leave the graph as it is. -/
theorem perform_nil_eq_ok_iff : g.perform [] = .ok g' ↔ g = g' := by
  simp [perform, pure, Except.pure]

/-- Calls in two parts succeed if the first ones do and the others do on what they give. -/
theorem perform_append_eq_ok_iff {calls more : List GraphCall} :
    g.perform (calls ++ more) = .ok g' ↔ ∃ g₁, g.perform calls = .ok g₁ ∧ g₁.perform more = .ok g' := by
  induction calls generalizing g with
  | nil => simp [perform_nil_eq_ok_iff]
  | cons call rest ih =>
    rw [List.cons_append, perform_cons_eq_ok_iff]
    simp only [ih, perform_cons_eq_ok_iff]
    grind

/-- Adding one thing after the other is a run of calls, whatever the errors are. -/
theorem foldlM_eq_ok_iff {α : Type} (call : α → GraphCall) (fault : α → GraphError → DocumentError)
    {xs : List α} :
    xs.foldlM (fun g x => ((call x).answer g).mapError (fault x)) g = .ok g' ↔
      g.perform (xs.map call) = .ok g' := by
  induction xs generalizing g with
  | nil => simp [perform_nil_eq_ok_iff, pure, Except.pure]
  | cons x rest ih =>
    rw [List.foldlM_cons, List.map_cons, perform_cons_eq_ok_iff]
    cases hx : (call x).answer g with
    | error e => simp [Except.mapError, bind, Except.bind]
    | ok g₁ =>
      simp only [Except.ok.injEq, exists_eq_left']
      exact ih

end ClassGraph

namespace GraphDocument

open ClassGraph

variable {doc : GraphDocument} {limits : GraphLimits} {g : ClassGraph}

/-- Adding the edges of a document is making a call for each. The number in errors does not matter. -/
theorem addEdges_eq_ok_iff (index : Nat) {edges : List EdgeRecord} {g' : ClassGraph} :
    addEdges index edges g = .ok g' ↔
      g.perform (edges.map fun e => .addEdge e.source e.target e.rules) = .ok g' := by
  induction edges generalizing g index with
  | nil => simp [addEdges, perform_nil_eq_ok_iff]
  | cons e rest ih =>
    rw [addEdges, List.map_cons, perform_cons_eq_ok_iff]
    change _ ↔ ∃ g₁, g.addEdge e.source e.target e.rules = .ok g₁ ∧ _
    cases g.addEdge e.source e.target e.rules with
    | error cause => simp
    | ok g₁ =>
      simp only [Except.ok.injEq, exists_eq_left']
      exact ih (index + 1)

/-- The calls that a document stands for. -/
def calls (doc : GraphDocument) : List GraphCall :=
  doc.modules.map .addModule ++ (doc.nodes.map .addNode ++
    (doc.edges.map (fun e => .addEdge e.source e.target e.rules) ++ [.freeze doc.builtAt]))

/-- A document is read exactly if its schema is the current one and the calls that it stands for
succeed. -/
theorem toGraph_eq_ok_iff : doc.toGraph limits = .ok g ↔
    doc.schema = currentSchema ∧ (ClassGraph.new doc.root limits).perform doc.calls = .ok g := by
  have hmodules : ∀ {g g'}, addModules doc.modules g = .ok g' ↔
      g.perform (doc.modules.map .addModule) = .ok g' := foldlM_eq_ok_iff .addModule .addingModule
  have hnodes : ∀ {g g'}, addNodes doc.nodes g = .ok g' ↔
      g.perform (doc.nodes.map .addNode) = .ok g' := foldlM_eq_ok_iff .addNode (.addingNode ·.name)
  have hfreeze : ∀ {g g' : ClassGraph}, g.perform [.freeze doc.builtAt] = .ok g' ↔
      g.freeze doc.builtAt = g' := by
    intro g g'
    rw [perform_cons_eq_ok_iff]
    change (∃ g₁, Except.ok (g.freeze doc.builtAt) = .ok g₁ ∧ _) ↔ _
    simp [perform_nil_eq_ok_iff]
  simp only [calls, perform_append_eq_ok_iff, ← hmodules, ← hnodes, ← addEdges_eq_ok_iff 0,
    hfreeze]
  unfold toGraph
  by_cases hschema : doc.schema = currentSchema
  · simp only [hschema, bne_self_eq_false, Bool.false_eq_true, if_false, true_and]
    cases addModules doc.modules (ClassGraph.new doc.root limits) with
    | error e => simp [bind, Except.bind]
    | ok named =>
      cases hpeopled : addNodes doc.nodes named with
      | error e => simp [hpeopled, bind, Except.bind]
      | ok peopled =>
        cases hlinked : addEdges 0 doc.edges peopled with
        | error e => simp [hpeopled, hlinked, bind, Except.bind]
        | ok linked => simp [hpeopled, hlinked, bind, Except.bind, pure, Except.pure]
  · have hne : (doc.schema != currentSchema) = true := by simpa using hschema
    simp [hne, hschema, throw, throwThe, MonadExceptOf.throw, bind, Except.bind]

/-- The graph of a document has the classes that the document lists. -/
theorem units_toGraph (h : doc.toGraph limits = .ok g) (name : Text) (u : SourceUnit) :
    g.units.find? name = some u ↔ u ∈ doc.nodes ∧ u.name = name := by
  obtain ⟨-, hgiven, -⟩ := given_of_perform (toGraph_eq_ok_iff.mp h).2
  rw [hgiven.unit_iff]
  simp [calls]

/-- The graph of a document has edges between the classes between which the document lists edges. -/
theorem hasEdge_toGraph (h : doc.toGraph limits = .ok g) (source target : Text) :
    g.hasEdge source target = true ↔ ∃ e ∈ doc.edges, e.source = source ∧ e.target = target := by
  obtain ⟨hwell, hgiven, -⟩ := given_of_perform (toGraph_eq_ok_iff.mp h).2
  have hrules : rulesBetween (doc.calls.filterMap GraphCall.edge?) source target ≠ [] ↔
      rulesGiven doc.calls source target ≠ none := by simp [rulesGiven]
  rw [hgiven.recorded.hasEdge_iff hwell, hrules, ne_eq, rulesGiven_eq_none_iff]
  simp [calls]

end GraphDocument

end ClassAtlas
