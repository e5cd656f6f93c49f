import ClassAtlas.Proofs.Graph.Representation

namespace ClassAtlas

/-- Work on a graph in place. What was done stays done, also if a later step is refused. -/
abbrev InPlace := EStateM GraphError ClassGraph Unit

namespace InPlace

/-- Ends the work with an error if the test holds of the graph. -/
def refuseIf (test : ClassGraph → Bool) (e : GraphError) : InPlace := do
  if test (← get) then throw e

/-- Adds a class without edges, unless the graph is frozen or full or the name is empty or taken. -/
def addNode (u : SourceUnit) : InPlace := do
  refuseIf (·.frozen) .frozen
  refuseIf (fun _ => u.name.isEmpty) .emptyName
  refuseIf (fun g => g.nodes.contains u.name) (.duplicate u.name)
  refuseIf (fun g => g.limits.nodes ≤ g.nodeCount) .tooManyNodes
  modify fun g => { g with nodes := g.nodes.insert u.name ⟨u, [], []⟩ }

/-- Adds a module that has a name, unless the graph is frozen. -/
def addModule (name : Text) : InPlace := do
  refuseIf (·.frozen) .frozen
  if !name.isEmpty then
    modify fun g => { g with named := SortedSet.add g.named name }

/-- Puts a new edge behind the others, into the index, and into the two nodes one after the other. -/
def link (source target : Text) (rules : Rules) : InPlace := do
  refuseIf (fun g => g.limits.edges ≤ g.edgeCount) .tooManyEdges
  let place := (← get).edges.size
  modify fun g => { g with edges := g.edges.push ⟨source, target, rules⟩ }
  modify fun g => { g with places := g.places.insert (source, target) place }
  modify fun g => { g with
    nodes := g.nodes.modify source fun n => { n with outgoing := n.outgoing ++ [place] } }
  modify fun g => { g with
    nodes := g.nodes.modify target fun n => { n with incoming := n.incoming ++ [place] } }

/-- Adds an edge between two classes of the graph, or rules to the one that is there. -/
def addEdge (source target : Text) (rules : Rules) : InPlace := do
  refuseIf (·.frozen) .frozen
  refuseIf (fun _ => source == target) (.selfEdge source)
  refuseIf (fun g => !g.nodes.contains source) (.missingSource source)
  refuseIf (fun g => !g.nodes.contains target) (.missingTarget target)
  ((← get).places.find? (source, target)).elim (link source target rules) fun place =>
    modify fun g => g.addRules place rules

/-- Puts the edges of every node in order, and then freezes the graph and sets its time. -/
def freeze (now : Int) : InPlace := do
  modify fun g => { g with nodes := g.nodes.map fun _ n =>
    { n with outgoing := sortBy g.targetAt n.outgoing, incoming := sortBy g.sourceAt n.incoming } }
  modify fun g => { g with frozen := true }
  modify fun g => { g with builtAt := now }

end InPlace

/-- A call as work in place. -/
def GraphCall.inPlace : GraphCall → InPlace
  | .addNode u => InPlace.addNode u
  | .addModule name => InPlace.addModule name
  | .addEdge source target rules => InPlace.addEdge source target rules
  | .freeze now => InPlace.freeze now

namespace InPlace

/-- How work ends that gives a graph or none: with the new graph, or with an error and the old one. -/
def ending (g : ClassGraph) (result : Except GraphError ClassGraph) :
    EStateM.Result GraphError ClassGraph Unit :=
  match result with
  | .ok g' => .ok () g'
  | .error e => .error e g

/-- If the test holds, the work ends with the error and leaves the graph as it is. Otherwise it goes on. -/
theorem run_refuseIf_then (test : ClassGraph → Bool) (e : GraphError) (next : InPlace)
    (g : ClassGraph) :
    (do refuseIf test e; next : InPlace).run g = if test g then .error e g else next.run g := by
  have hread : (do refuseIf test e; next : InPlace).run g =
      (do (if test g then throw e else pure () : InPlace); next : InPlace).run g := rfl
  rw [hread]
  cases test g with
  | true => rfl
  | false => rfl

/-- A change in place always succeeds. -/
@[simp] theorem run_modify (f : ClassGraph → ClassGraph) (g : ClassGraph) :
    (modify f : InPlace).run g = .ok () (f g) := rfl

/-- Adding a class in place does what adding it gives, and leaves a graph that refuses it as it was. -/
theorem run_addNode (u : SourceUnit) (g : ClassGraph) :
    (addNode u).run g = ending g (g.addNode u) := by
  simp only [addNode, ClassGraph.addNode, run_refuseIf_then, run_modify, apply_ite (ending g)]
  simp [ending]

/-- Adding a module in place does what adding it gives. -/
theorem run_addModule (name : Text) (g : ClassGraph) :
    (addModule name).run g = ending g (g.addModule name) := by
  simp only [addModule, ClassGraph.addModule, run_refuseIf_then, apply_ite (ending g)]
  cases name.isEmpty with
  | true => rfl
  | false => rfl

/-- Linking two classes in place tests the limit first, so that a refusal changes nothing. -/
theorem run_link (source target : Text) (rules : Rules) (g : ClassGraph) :
    (link source target rules).run g = ending g
      (if g.limits.edges ≤ g.edgeCount then .error .tooManyEdges
        else .ok (g.link source target rules)) := by
  simp only [link, run_refuseIf_then, apply_ite (ending g), decide_eq_true_eq]
  rfl

/-- Adding an edge in place does what adding it gives, whether the edge is new or takes on more rules. -/
theorem run_addEdge (source target : Text) (rules : Rules) (g : ClassGraph) :
    (addEdge source target rules).run g = ending g (g.addEdge source target rules) := by
  have hlast : (do
      let now ← get
      (now.places.find? (source, target)).elim (link source target rules) fun place =>
        modify fun g => g.addRules place rules : InPlace).run g =
      ((g.places.find? (source, target)).elim (link source target rules) fun place =>
        modify fun g => g.addRules place rules).run g := rfl
  simp only [addEdge, ClassGraph.addEdge, run_refuseIf_then, apply_ite (ending g), hlast]
  cases g.places.find? (source, target) with
  | none =>
    rw [Option.elim_none, run_link]
    rfl
  | some place => rfl

/-- Work in place ends with the graph that the call gives, and with the graph as it was if the call
is refused. -/
theorem run_inPlace (call : GraphCall) (g : ClassGraph) :
    call.inPlace.run g = ending g (call.answer g) := by
  cases call with
  | addNode u => exact run_addNode u g
  | addModule name => exact run_addModule name g
  | addEdge source target rules => exact run_addEdge source target rules g
  | freeze now => rfl

end InPlace

/-- The time that a call sets. -/
def GraphCall.time? : GraphCall → Option Int
  | .freeze now => some now
  | _ => none

/-- The time that a graph shows after calls of which only those that freeze it succeed. -/
def lastFreeze (builtAt : Int) (calls : List GraphCall) : Int :=
  calls.foldl (fun t call => call.time?.getD t) builtAt

namespace ClassGraph

variable {g g' : ClassGraph}

/-- A call fails exactly if it gives no graph. -/
theorem exists_error_iff {result : Except GraphError ClassGraph} :
    (∃ e, result = .error e) ↔ ∀ g', result ≠ .ok g' := by
  cases result with
  | error e => simp
  | ok g' => simp

/-- A class is refused exactly by a frozen or full graph, or if it has no name or one that is taken. -/
theorem addNode_fails_iff (g : ClassGraph) (u : SourceUnit) :
    (∃ e, g.addNode u = .error e) ↔ g.frozen = true ∨ u.name = [] ∨
      (∃ n, g.node? u.name = some n) ∨ g.limits.nodes ≤ g.nodeCount := by
  rw [exists_error_iff]
  constructor
  · intro hfails
    by_contra hnone
    simp only [not_or, not_exists, not_le, Bool.not_eq_true] at hnone
    obtain ⟨hfrozen, hname, hfresh, hroom⟩ := hnone
    have hnew : g.nodes.find? u.name = none := Option.eq_none_iff_forall_ne_some.mpr hfresh
    exact hfails _ (addNode_eq_ok_iff.mpr ⟨hfrozen, hname, hnew, hroom, rfl⟩)
  · intro hcause g' hadd
    obtain ⟨hfrozen, hname, hnew, hroom, -⟩ := addNode_eq_ok_iff.mp hadd
    rcases hcause with hcause | hcause | ⟨n, hn⟩ | hcause
    · simp [hfrozen] at hcause
    · exact hname hcause
    · exact absurd (hn.symm.trans hnew) (by simp)
    · omega

/-- A module is refused exactly by a frozen graph, whatever its name. -/
theorem addModule_fails_iff (g : ClassGraph) (name : Text) :
    (∃ e, g.addModule name = .error e) ↔ g.frozen = true := by
  rw [exists_error_iff]
  constructor
  · intro hfails
    by_contra hfrozen
    rw [Bool.not_eq_true] at hfrozen
    exact hfails _ (addModule_eq_ok_iff.mpr ⟨hfrozen, rfl⟩)
  · intro hfrozen g' hadd
    rw [(addModule_eq_ok_iff.mp hadd).1] at hfrozen
    contradiction

/-- An edge is refused exactly by a frozen graph, from a class to itself, if one of its classes is
missing, or if it is new and there is no room. -/
theorem addEdge_fails_iff (g : ClassGraph) (source target : Text) (rules : Rules) :
    (∃ e, g.addEdge source target rules = .error e) ↔ g.frozen = true ∨ source = target ∨
      g.node? source = none ∨ g.node? target = none ∨
      (g.hasEdge source target = false ∧ g.limits.edges ≤ g.edgeCount) := by
  have hknown : ∀ name, g.node? name = none ↔ g.nodes.contains name = false :=
    fun _ => SortedMap.contains_eq_false_iff.symm
  have hnew : g.hasEdge source target = false ↔ g.places.find? (source, target) = none :=
    SortedMap.contains_eq_false_iff
  rw [exists_error_iff, hknown, hknown, hnew]
  constructor
  · intro hfails
    by_contra hnone
    simp only [not_or, Bool.not_eq_true, Bool.not_eq_false, not_and, not_le] at hnone
    obtain ⟨hfrozen, hne, hsource, htarget, hroom⟩ := hnone
    cases hplace : g.places.find? (source, target) with
    | some place =>
      exact hfails _ (addEdge_eq_ok_iff.mpr
        ⟨hfrozen, hne, hsource, htarget, Or.inl ⟨place, hplace, rfl⟩⟩)
    | none =>
      exact hfails _ (addEdge_eq_ok_iff.mpr
        ⟨hfrozen, hne, hsource, htarget, Or.inr ⟨hplace, hroom hplace, rfl⟩⟩)
  · intro hcause g' hadd
    obtain ⟨hfrozen, hne, hsource, htarget, hedge⟩ := addEdge_eq_ok_iff.mp hadd
    rcases hcause with hcause | hcause | hcause | hcause | ⟨hfresh, hfull⟩
    · simp [hfrozen] at hcause
    · exact hne hcause
    · simp [hsource] at hcause
    · simp [htarget] at hcause
    · rcases hedge with ⟨place, hplace, -⟩ | ⟨-, hroom, -⟩
      · simp [hfresh] at hplace
      · omega

/-- One edge has taken on more rules, and nothing else has changed. -/
structure Merges (g g' : ClassGraph) (source target : Text) (rules : Rules) : Prop where
  rest : g' = { g with edges := g'.edges }
  ends : g'.edges.map ClassEdge.ends = g.edges.map ClassEdge.ends
  edge? : ∀ a b, g'.edge? a b = (g.edge? a b).map fun e =>
    if (a, b) = (source, target) then { e with rules := e.rules.union rules } else e

/-- An edge that is there takes on more rules, even in a graph that is full. -/
theorem WellFormed.addEdge_merges (h : g.WellFormed) (hfrozen : g.frozen = false)
    {source target : Text} (hedge : g.hasEdge source target = true) (rules : Rules) :
    ∃ g', g.addEdge source target rules = .ok g' ∧ g.Merges g' source target rules := by
  obtain ⟨place, hplace⟩ := SortedMap.contains_iff.mp hedge
  obtain ⟨e, he, rfl, rfl⟩ := h.place_iff.mp hplace
  obtain ⟨hne, hsource, htarget⟩ := h.ends he
  refine ⟨g.addRules place rules, addEdge_eq_ok_iff.mpr
    ⟨hfrozen, hne, hsource, htarget, Or.inl ⟨place, hplace, rfl⟩⟩, rfl, ?_, h.addRules_edge? hplace rules⟩
  apply Array.ext_getElem?
  intro i
  rw [Array.getElem?_map, Array.getElem?_map, addRules_getElem?]
  cases g.edges[i]? with
  | none => rfl
  | some e' =>
    simp only [Option.map_some]
    split <;> rfl

/-- The edges of a frozen graph are sorted already. -/
theorem WellFormed.freeze_of_frozen (h : g.WellFormed) (hfrozen : g.frozen = true) (now : Int) :
    g.freeze now = { g with builtAt := now } := by
  have hnodes : (g.freeze now).nodes = g.nodes := by
    apply SortedMap.ext
    intro name
    simp only [ClassGraph.freeze, SortedMap.find?_map]
    cases hn : g.nodes.find? name with
    | none => rfl
    | some n =>
      obtain ⟨hout, hin⟩ := h.sorted hfrozen hn
      rw [Option.map_some, sortBy_eq_self hout, sortBy_eq_self hin]
  have hparts : g.freeze now =
      { g with nodes := (g.freeze now).nodes, frozen := true, builtAt := now } := rfl
  rw [hparts, hnodes, ← hfrozen]

/-- A call changes nothing of a frozen graph but its time, and this only if it freezes the graph again. -/
theorem WellFormed.after_of_frozen (h : g.WellFormed) (hfrozen : g.frozen = true)
    (call : GraphCall) : g.after call = { g with builtAt := call.time?.getD g.builtAt } := by
  have hrefused : ∀ {call : GraphCall}, (∃ e, call.answer g = .error e) → g.after call = g := by
    rintro call ⟨e, he⟩
    simp [ClassGraph.after, he]
  cases call with
  | addNode u => exact hrefused ((addNode_fails_iff g u).mpr (Or.inl hfrozen))
  | addModule name => exact hrefused ((addModule_fails_iff g name).mpr hfrozen)
  | addEdge source target rules =>
    exact hrefused ((addEdge_fails_iff g source target rules).mpr (Or.inl hfrozen))
  | freeze now => exact h.freeze_of_frozen hfrozen now

/-- However many calls are made, a frozen graph changes only its time. -/
theorem WellFormed.runCalls_of_frozen (h : g.WellFormed) (hfrozen : g.frozen = true)
    (calls : List GraphCall) :
    g.runCalls calls = { g with builtAt := lastFreeze g.builtAt calls } := by
  induction calls generalizing g with
  | nil => rfl
  | cons call rest ih =>
    have hstep := h.after_of_frozen hfrozen call
    have hrest := ih (h.after call) (by rw [hstep]; exact hfrozen)
    rw [hstep] at hrest
    exact (congrArg (·.runCalls rest) hstep).trans hrest

/-- How a graph meets the calls that would change it. -/
structure Guarded (g : ClassGraph) (limits : GraphLimits) : Prop where
  addNode_fails : ∀ u, (∃ e, g.addNode u = .error e) ↔ g.frozen = true ∨ u.name = [] ∨
    (∃ n, g.node? u.name = some n) ∨ limits.nodes ≤ g.nodeCount
  addModule_fails : ∀ name, (∃ e, g.addModule name = .error e) ↔ g.frozen = true
  addEdge_fails : ∀ source target rules, (∃ e, g.addEdge source target rules = .error e) ↔
    g.frozen = true ∨ source = target ∨ g.node? source = none ∨ g.node? target = none ∨
      (g.hasEdge source target = false ∧ limits.edges ≤ g.edgeCount)
  /-- An edge that is there takes on rules also where there is no room for another one. -/
  merges : g.frozen = false → ∀ source target rules, g.hasEdge source target = true →
    ∃ g', g.addEdge source target rules = .ok g' ∧ g.Merges g' source target rules
  /-- A call that is refused leaves the graph as it was, even if it works in place. -/
  refused : ∀ (call : GraphCall) e, call.answer g = .error e → call.inPlace.run g = .error e g
  performed : ∀ (call : GraphCall) g', call.answer g = .ok g' → call.inPlace.run g = .ok () g'
  /-- Nothing but the time changes in a graph that is frozen. -/
  sealed : g.frozen = true → ∀ calls,
    g.runCalls calls = { g with builtAt := lastFreeze g.builtAt calls }

/-- A graph that calls have built up refuses a call exactly for the reasons that the call has, is left
as it was then, and never changes once it is frozen, but for its time. -/
theorem runCalls_guarded (root : Text) (limits : GraphLimits) (calls : List GraphCall) :
    ((new root limits).runCalls calls).Guarded limits := by
  obtain ⟨h, hlimits⟩ := runCalls_induction
    (P := fun g _ => g.WellFormed ∧ g.limits = limits)
    (fun g _ call hg => ⟨hg.1.after call, (after_limits g call).trans hg.2⟩)
    (new root limits) [] calls ⟨new_wellFormed root limits, rfl⟩
  constructor
  case addNode_fails =>
    intro u
    rw [addNode_fails_iff, hlimits]
  case addModule_fails => exact addModule_fails_iff _
  case addEdge_fails =>
    intro source target rules
    rw [addEdge_fails_iff, hlimits]
  case merges =>
    intro hfrozen source target rules hedge
    exact h.addEdge_merges hfrozen hedge rules
  case refused =>
    intro call e hcall
    rw [InPlace.run_inPlace, hcall]
    rfl
  case performed =>
    intro call g' hcall
    rw [InPlace.run_inPlace, hcall]
    rfl
  case sealed => exact h.runCalls_of_frozen

end ClassGraph

end ClassAtlas
