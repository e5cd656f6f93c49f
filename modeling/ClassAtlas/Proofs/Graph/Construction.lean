import ClassAtlas.Graph.Basic
import ClassAtlas.Proofs.Collection.SortedMap

namespace ClassAtlas

/-- A call that builds up a graph. -/
inductive GraphCall where
  | addNode (u : SourceUnit)
  | addModule (name : Text)
  | addEdge (source target : Text) (rules : Rules)
  | freeze (now : Int)
  deriving DecidableEq, Repr

/-- What a call gives on a graph. Freezing never fails. -/
def GraphCall.answer (g : ClassGraph) : GraphCall → Except GraphError ClassGraph
  | .addNode u => g.addNode u
  | .addModule name => g.addModule name
  | .addEdge source target rules => g.addEdge source target rules
  | .freeze now => .ok (g.freeze now)

namespace ClassGraph

/-- The graph after a call. -/
def after (g : ClassGraph) (call : GraphCall) : ClassGraph :=
  match call.answer g with
  | .ok g' => g'
  | .error _ => g

/-- The graph after calls, from the first to the last. -/
def runCalls (g : ClassGraph) (calls : List GraphCall) : ClassGraph := calls.foldl after g

/-- The graph is built up by calls from a graph without nodes. -/
def Reachable (g : ClassGraph) : Prop :=
  ∃ root limits calls, g = (new root limits).runCalls calls

/-- The edge that a call gives to a graph. -/
def givenEdge? (g : ClassGraph) : GraphCall → Option ClassEdge
  | .addEdge source target rules =>
    match g.addEdge source target rules with
    | .ok _ => some ⟨source, target, rules⟩
    | .error _ => none
  | _ => none

/-- The edges that calls give to a graph, in their order. -/
def givenEdges : ClassGraph → List GraphCall → List ClassEdge
  | _, [] => []
  | g, call :: rest => (g.givenEdge? call).toList ++ givenEdges (g.after call) rest

end ClassGraph

/-- The rules of all edges between two classes. -/
def rulesBetween (given : List ClassEdge) (source target : Text) : List Rules :=
  (given.filter fun e => e.source == source && e.target == target).map (·.rules)

/-- The rules of any of the sets. -/
def Rules.unionAll (sets : List Rules) : Rules := sets.foldl union none

namespace ClassGraph

variable {g g' : ClassGraph}

/-- When a class is added, and to what. -/
theorem addNode_eq_ok_iff {u : SourceUnit} :
    g.addNode u = .ok g' ↔
      g.frozen = false ∧ u.name ≠ [] ∧ g.nodes.find? u.name = none ∧
        (g.nodeCount : Int) < g.limits.nodes ∧
        { g with nodes := g.nodes.insert u.name ⟨u, [], []⟩ } = g' := by
  unfold addNode
  cases hfrozen : g.frozen with
  | true => simp
  | false =>
    by_cases hname : u.name = []
    · simp [hname]
    by_cases hfresh : g.nodes.contains u.name = true
    · obtain ⟨n, hn⟩ := SortedMap.contains_iff.mp hfresh
      simp [hname, hfresh, hn]
    · have hnone := SortedMap.contains_eq_false_iff.mp (by simpa using hfresh)
      by_cases hroom : g.limits.nodes ≤ g.nodeCount
      · simp [hname, hfresh, hroom]
      · simp [hname, hfresh, hroom, hnone]
        omega

/-- When a module is named, and what it changes. -/
theorem addModule_eq_ok_iff {name : Text} :
    g.addModule name = .ok g' ↔
      g.frozen = false ∧
        (if name = [] then g else { g with named := SortedSet.add g.named name }) = g' := by
  unfold addModule
  cases hfrozen : g.frozen with
  | true => simp
  | false => by_cases hname : name = [] <;> simp [hname]

/-- When an edge is added: the graph is not frozen, the ends are two different classes of it, and
the edge is there already or there is room for it. -/
theorem addEdge_eq_ok_iff {source target : Text} {rules : Rules} :
    g.addEdge source target rules = .ok g' ↔
      g.frozen = false ∧ source ≠ target ∧ g.nodes.contains source = true ∧
        g.nodes.contains target = true ∧
        ((∃ place, g.places.find? (source, target) = some place ∧ g.addRules place rules = g') ∨
          (g.places.find? (source, target) = none ∧ (g.edgeCount : Int) < g.limits.edges ∧
            g.link source target rules = g')) := by
  unfold addEdge
  cases hfrozen : g.frozen with
  | true => simp
  | false =>
    by_cases hself : source = target
    · simp [hself]
    cases hsource : g.nodes.contains source with
    | false => simp [hself]
    | true =>
      cases htarget : g.nodes.contains target with
      | false => simp [hself]
      | true =>
        cases hplace : g.places.find? (source, target) with
        | some place => simp [hself]
        | none =>
          by_cases hroom : g.limits.edges ≤ g.edgeCount
          · simp [hself, hroom]
          · simp [hself, hroom]
            omega

/-- What a call can do to a graph: nothing, if it fails, or one of five changes. -/
theorem after_cases (g : ClassGraph) (call : GraphCall) :
    (g.givenEdge? call = none ∧
      (g.after call = g ∨ (∃ u, g.addNode u = .ok (g.after call)) ∨
        (∃ name, g.addModule name = .ok (g.after call)) ∨ ∃ now, g.after call = g.freeze now)) ∨
    ∃ source target rules, g.givenEdge? call = some ⟨source, target, rules⟩ ∧
      g.addEdge source target rules = .ok (g.after call) := by
  cases call with
  | addNode u =>
    refine Or.inl ⟨rfl, ?_⟩
    cases h : g.addNode u with
    | error e => exact Or.inl (by simp [after, GraphCall.answer, h])
    | ok g' => exact Or.inr (Or.inl ⟨u, by simp [after, GraphCall.answer, h]⟩)
  | addModule name =>
    refine Or.inl ⟨rfl, ?_⟩
    cases h : g.addModule name with
    | error e => exact Or.inl (by simp [after, GraphCall.answer, h])
    | ok g' => exact Or.inr (Or.inr (Or.inl ⟨name, by simp [after, GraphCall.answer, h]⟩))
  | addEdge source target rules =>
    cases h : g.addEdge source target rules with
    | error e =>
      exact Or.inl ⟨by simp [givenEdge?, h], Or.inl (by simp [after, GraphCall.answer, h])⟩
    | ok g' =>
      exact Or.inr ⟨source, target, rules, by simp [givenEdge?, h],
        by simp [after, GraphCall.answer, h]⟩
  | freeze now => exact Or.inl ⟨rfl, Or.inr (Or.inr (Or.inr ⟨now, rfl⟩))⟩

/-- What holds of the graph without nodes and is kept by every call holds of every graph that calls
build up, together with the edges that they gave. -/
theorem runCalls_induction {P : ClassGraph → List ClassEdge → Prop}
    (hstep : ∀ g given call, P g given → P (g.after call) (given ++ (g.givenEdge? call).toList))
    (g : ClassGraph) (given : List ClassEdge) (calls : List GraphCall) (h : P g given) :
    P (g.runCalls calls) (given ++ g.givenEdges calls) := by
  induction calls generalizing g given with
  | nil => simpa [runCalls, givenEdges] using h
  | cons call rest ih =>
    have hrest := ih (g.after call) _ (hstep g given call h)
    simpa [runCalls, givenEdges] using hrest

/-- A call on a graph that is built up by calls gives another one. -/
theorem Reachable.of_answer (h : g.Reachable) (call : GraphCall) (hcall : call.answer g = .ok g') :
    g'.Reachable := by
  obtain ⟨root, limits, calls, rfl⟩ := h
  refine ⟨root, limits, calls ++ [call], ?_⟩
  simp only [runCalls] at hcall
  simp [runCalls, after, hcall]

end ClassGraph

end ClassAtlas
