import ClassAtlas.Proofs.Graph.Views
import Mathlib.Data.List.TFAE

namespace ClassAtlas

/-- The union of sets with one more is the union with it. -/
theorem Rules.unionAll_append (sets : List Rules) (r : Rules) :
    Rules.unionAll (sets ++ [r]) = (Rules.unionAll sets).union r := by
  simp [Rules.unionAll]

/-- The union of one set is the set. -/
@[simp] theorem Rules.unionAll_singleton (r : Rules) : Rules.unionAll [r] = r := by
  simp [Rules.unionAll, Rules.union, Rules.none]

/-- One more edge that was given adds its rules to those between its ends. -/
theorem rulesBetween_append (given : List ClassEdge) (e : ClassEdge) (source target : Text) :
    rulesBetween (given ++ [e]) source target =
      rulesBetween given source target ++ if (source, target) = e.ends then [e.rules] else [] := by
  by_cases h : (source, target) = e.ends
  · obtain ⟨rfl, rfl⟩ := Prod.mk.inj h
    simp [rulesBetween, ClassEdge.ends]
  · have hfalse : (e.source == source && e.target == target) = false := by
      rw [Bool.and_eq_false_iff]
      by_contra hboth
      simp only [not_or, Bool.not_eq_false, beq_iff_eq] at hboth
      exact h (Prod.ext hboth.1.symm hboth.2.symm)
    simp [rulesBetween, h, hfalse]

namespace ClassGraph

variable {g g' : ClassGraph} {given : List ClassEdge}

/-- The rules found between two classes are those given there. -/
def Recorded (g : ClassGraph) (given : List ClassEdge) : Prop :=
  ∀ source target, (g.edge? source target).map (·.rules) =
    if rulesBetween given source target = [] then none
    else some (Rules.unionAll (rulesBetween given source target))

/-- A change that keeps the index and the list of edges keeps what is found. -/
theorem Recorded.of_edges_eq (hrec : g.Recorded given) (hedges : g'.edges = g.edges)
    (hplaces : g'.places = g.places) : g'.Recorded given := by
  unfold Recorded edge?
  rw [hedges, hplaces]
  exact hrec

/-- A new graph was given no edges. -/
theorem new_recorded (root : Text) (limits : GraphLimits) : (new root limits).Recorded [] := by
  intro source target
  simp [new, edge?, rulesBetween]

/-- The edges found after rules were added to one of them. -/
theorem WellFormed.addRules_edge? (h : g.WellFormed) {source target : Text} {place : Nat}
    (hplace : g.places.find? (source, target) = some place) (rules : Rules) (a b : Text) :
    (g.addRules place rules).edge? a b =
      (g.edge? a b).map fun e =>
        if (a, b) = (source, target) then { e with rules := e.rules.union rules } else e := by
  have hplaces : (g.addRules place rules).places = g.places := rfl
  unfold edge?
  rw [hplaces]
  cases hi : g.places.find? (a, b) with
  | none => rfl
  | some i =>
    simp only [Option.bind_some, addRules_getElem?]
    by_cases hpair : (a, b) = (source, target)
    · have hsame : i = place := Option.some.inj (hi.symm.trans (hpair ▸ hplace))
      simp [hsame, hpair]
    · -- the index has one pair of ends for a place
      have hother : i ≠ place := by
        rintro rfl
        obtain ⟨d, hd, hds, hdt⟩ := h.place_iff.mp hi
        obtain ⟨e, he, hes, het⟩ := h.place_iff.mp hplace
        rw [hd] at he
        obtain rfl := Option.some.inj he
        exact hpair (Prod.ext (hds.symm.trans hes) (hdt.symm.trans het))
      simp [hother, hpair]

/-- The edges found after a new one was put in. -/
theorem WellFormed.link_edge? (h : g.WellFormed) (source target : Text) (rules : Rules)
    (a b : Text) :
    (g.link source target rules).edge? a b =
      if (a, b) = (source, target) then some ⟨source, target, rules⟩ else g.edge? a b := by
  unfold edge?
  simp only [ClassGraph.link, SortedMap.find?_insert]
  split
  · simp
  · cases hi : g.places.find? (a, b) with
    | none => rfl
    | some i =>
      obtain ⟨e, he, -⟩ := h.place_iff.mp hi
      have hlt : i < g.edges.size := (Array.getElem?_eq_some_iff.mp he).1
      simp [Array.getElem?_push, Nat.ne_of_lt hlt]

/-- An edge that is added is recorded, with the rules that were there before. -/
theorem Recorded.addEdge (hrec : g.Recorded given) (h : g.WellFormed) {source target : Text}
    {rules : Rules} (hadd : g.addEdge source target rules = .ok g') :
    g'.Recorded (given ++ [⟨source, target, rules⟩]) := by
  obtain ⟨-, -, -, -, ⟨place, hplace, rfl⟩ | ⟨hfresh, -, rfl⟩⟩ := addEdge_eq_ok_iff.mp hadd
  · intro a b
    have hold := hrec a b
    rw [h.addRules_edge? hplace, rulesBetween_append, Option.map_map]
    by_cases hpair : (a, b) = (source, target)
    · obtain ⟨e, he, hes, het⟩ := h.place_iff.mp hplace
      obtain ⟨rfl, rfl⟩ := Prod.mk.inj hpair
      have hfound := h.edge?_eq_some_iff.mpr ⟨Array.mem_of_getElem? he, Prod.ext hes het⟩
      rw [hfound] at hold ⊢
      split at hold
      · contradiction
      · simp only [Option.map_some, Option.some.injEq] at hold
        simp [ClassEdge.ends, Rules.unionAll_append, hold]
    · simpa [Function.comp_def, ClassEdge.ends, hpair] using hold
  · intro a b
    have hold := hrec a b
    rw [h.link_edge?, rulesBetween_append]
    by_cases hpair : (a, b) = (source, target)
    · obtain ⟨rfl, rfl⟩ := Prod.mk.inj hpair
      -- no edge was found here, so no rules were given here before
      have hempty : rulesBetween given a b = [] := by
        by_contra hsome
        simp [edge?, hfresh, hsome] at hold
      simp [ClassEdge.ends, hempty]
    · simpa [ClassEdge.ends, hpair] using hold

/-- Every call records the edge that it gives, if any. A call that fails gives none. -/
theorem Recorded.after (hrec : g.Recorded given) (h : g.WellFormed) (call : GraphCall) :
    (g.after call).Recorded (given ++ (g.givenEdge? call).toList) := by
  rcases after_cases g call with ⟨hnone, hcase⟩ | ⟨source, target, rules, hgiven, hadd⟩
  · rw [hnone, Option.toList_none, List.append_nil]
    rcases hcase with hsame | ⟨u, hadd⟩ | ⟨name, hadd⟩ | ⟨now, hfreeze⟩
    · rwa [hsame]
    · obtain ⟨-, -, -, -, heq⟩ := addNode_eq_ok_iff.mp hadd
      rw [← heq]
      exact hrec.of_edges_eq rfl rfl
    · obtain ⟨-, heq⟩ := addModule_eq_ok_iff.mp hadd
      rw [← heq]
      split
      · exact hrec
      · exact hrec.of_edges_eq rfl rfl
    · rw [hfreeze]
      exact hrec.of_edges_eq rfl rfl
  · rw [hgiven]
    exact hrec.addEdge h hadd

/-- No call changes the limits. -/
theorem after_limits (g : ClassGraph) (call : GraphCall) : (g.after call).limits = g.limits := by
  rcases after_cases g call with ⟨-, hsame | ⟨u, hadd⟩ | ⟨name, hadd⟩ | ⟨now, hfreeze⟩⟩ |
    ⟨source, target, rules, -, hadd⟩
  · rw [hsame]
  · obtain ⟨-, -, -, -, heq⟩ := addNode_eq_ok_iff.mp hadd
    rw [← heq]
  · obtain ⟨-, heq⟩ := addModule_eq_ok_iff.mp hadd
    rw [← heq]
    split <;> rfl
  · rw [hfreeze]
    rfl
  · obtain ⟨-, -, -, -, ⟨place, -, heq⟩ | ⟨-, -, heq⟩⟩ := addEdge_eq_ok_iff.mp hadd
    · rw [← heq]
      rfl
    · rw [← heq]
      rfl

/-- The index has one entry for every edge. -/
theorem WellFormed.keys_perm (h : g.WellFormed) :
    g.places.keys.Perm (g.edges.toList.map ClassEdge.ends) := by
  rw [List.perm_ext_iff_of_nodup g.places.increasingBy_keys.nodup h.ends_nodup]
  rintro ⟨source, target⟩
  rw [SortedMap.mem_keys_iff]
  refine h.hasEdge_iff.trans ?_
  simp

/-- How a graph stores the edges given to it. -/
structure Representation (g : ClassGraph) (limits : GraphLimits) (given : List ClassEdge) :
    Prop where
  /-- A class is stored under its own name, which is not empty. -/
  stored : ∀ {name n}, g.node? name = some n → n.unit.name = name ∧ n.unit.name ≠ []
  /-- The list of edges has at most one edge between two classes. -/
  distinct : (g.edges.toList.map ClassEdge.ends).Nodup
  /-- The sorted list of edges holds the same edges. -/
  sorted : g.edgeList.Perm g.edges.toList
  /-- The index has one entry for every edge of the list. -/
  indexed : g.places.keys.Perm (g.edges.toList.map ClassEdge.ends)
  /-- The index finds exactly the edges of the list. -/
  found : ∀ {source target e}, g.edge? source target = some e ↔ e ∈ g.edges ∧
    e.ends = (source, target)
  /-- A node holds exactly the edges that leave it, each once. -/
  outgoing : ∀ {name n}, g.node? name = some n → n.outgoing.length = (g.edgesOut n).length ∧
    (g.edgesOut n).Perm (g.edges.toList.filter fun e => e.source == name)
  /-- A node holds exactly the edges that reach it, each once. -/
  incoming : ∀ {name n}, g.node? name = some n → n.incoming.length = (g.edgesIn n).length ∧
    (g.edgesIn n).Perm (g.edges.toList.filter fun e => e.target == name)
  /-- All views agree on whether there is an edge. -/
  agree : ∀ source target, List.TFAE [
    g.hasEdge source target = true,
    ∃ ds, g.dependencies? source = some ds ∧ target ∈ ds,
    ∃ ds, g.dependents? target = some ds ∧ source ∈ ds,
    ∃ e ∈ g.edgeList, e.ends = (source, target)]
  /-- An edge joins two different classes of the graph. -/
  joined : ∀ {e}, e ∈ g.edges →
    e.source ≠ e.target ∧ (∃ n, g.node? e.source = some n) ∧ ∃ n, g.node? e.target = some n
  /-- There is an edge where one was given. -/
  given_iff : ∀ source target, g.hasEdge source target = true ↔
    rulesBetween given source target ≠ []
  /-- In every view an edge shows the rules given to it. -/
  rules : ∀ {e}, (e ∈ g.edges ∨ e ∈ g.edgeList ∨ (∃ source target, g.edge? source target = some e) ∨
      ∃ name n, g.node? name = some n ∧ (e ∈ g.edgesOut n ∨ e ∈ g.edgesIn n)) →
    e.rules = Rules.unionAll (rulesBetween given e.source e.target)
  /-- The limits are kept; a negative one counts as zero. -/
  limited : (g.nodeCount : Int) ≤ max 0 limits.nodes ∧ (g.edgeCount : Int) ≤ max 0 limits.edges
  /-- A frozen graph has the edges of a node by the class at the other end. -/
  ordered : g.frozen = true → ∀ {name n}, g.node? name = some n →
    IncreasingBy (·.target) (g.edgesOut n) ∧ IncreasingBy (·.source) (g.edgesIn n)

/-- The four ways to ask for an edge agree in a well-formed graph. -/
theorem WellFormed.agree (h : g.WellFormed) (source target : Text) : List.TFAE [
    g.hasEdge source target = true,
    ∃ ds, g.dependencies? source = some ds ∧ target ∈ ds,
    ∃ ds, g.dependents? target = some ds ∧ source ∈ ds,
    ∃ e ∈ g.edgeList, e.ends = (source, target)] := by
  simp only [h.hasEdge_iff, h.mem_dependencies_iff, h.mem_dependents_iff, mem_edgeList]
  simp

/-- The rules of an edge are all that were given for its ends. -/
theorem Recorded.rules_eq (hrec : g.Recorded given) (h : g.WellFormed) {e : ClassEdge}
    (he : e ∈ g.edges) :
    e.rules = Rules.unionAll (rulesBetween given e.source e.target) := by
  have hfound := h.edge?_eq_some_iff.mpr ⟨he, rfl⟩
  have hrules := hrec e.source e.target
  rw [hfound] at hrules
  split at hrules
  · contradiction
  · exact Option.some.inj hrules

/-- There is an edge exactly between classes for which one was given. -/
theorem Recorded.hasEdge_iff (hrec : g.Recorded given) (h : g.WellFormed) (source target : Text) :
    g.hasEdge source target = true ↔ rulesBetween given source target ≠ [] := by
  have hrules := hrec source target
  rw [h.hasEdge_iff]
  constructor
  · rintro ⟨e, he, hends⟩ hempty
    rw [h.edge?_eq_some_iff.mpr ⟨he, hends⟩, if_pos hempty] at hrules
    contradiction
  · intro hne
    rw [if_neg hne] at hrules
    obtain ⟨e, he, -⟩ := Option.map_eq_some_iff.mp hrules
    exact ⟨e, h.edge?_eq_some_iff.mp he⟩

/-- Whatever calls are made, whether they fail or not, the graph that they build up represents the
edges that the successful ones gave to it. -/
theorem runCalls_representation (root : Text) (limits : GraphLimits) (calls : List GraphCall) :
    ((new root limits).runCalls calls).Representation limits
      ((new root limits).givenEdges calls) := by
  obtain ⟨h, hrec, hlimits⟩ := runCalls_induction
    (P := fun g given => g.WellFormed ∧ g.Recorded given ∧ g.limits = limits)
    (fun g given call hg => ⟨hg.1.after call, hg.2.1.after hg.1 call,
      (after_limits g call).trans hg.2.2⟩)
    (new root limits) [] calls ⟨new_wellFormed root limits, new_recorded root limits, rfl⟩
  rw [List.nil_append] at hrec
  constructor
  case stored =>
    intro name n hn
    obtain ⟨hname, hne⟩ := h.node_name hn
    exact ⟨hname, hname ▸ hne⟩
  case distinct => exact h.ends_nodup
  case sorted => exact sortBy_perm _ _
  case indexed => exact h.keys_perm
  case found => exact h.edge?_eq_some_iff
  case outgoing =>
    intro name n hn
    exact ⟨(h.outgoing.length_filterMap hn).symm, h.edgesOut_perm hn⟩
  case incoming =>
    intro name n hn
    exact ⟨(h.incoming.length_filterMap hn).symm, h.edgesIn_perm hn⟩
  case agree => exact h.agree
  case joined =>
    intro e he
    obtain ⟨place, hplace⟩ := Array.mem_iff_getElem?.mp he
    exact ⟨(h.ends hplace).1, h.node_of_mem he⟩
  case given_iff => exact hrec.hasEdge_iff h
  case rules =>
    rintro e (he | he | ⟨source, target, he⟩ | ⟨name, n, hn, he | he⟩)
    · exact hrec.rules_eq h he
    · exact hrec.rules_eq h (mem_edgeList.mp he)
    · exact hrec.rules_eq h (h.edge?_eq_some_iff.mp he).1
    · exact hrec.rules_eq h ((h.mem_edgesOut_iff hn).mp he).1
    · exact hrec.rules_eq h ((h.mem_edgesIn_iff hn).mp he).1
  case limited =>
    have hnodes := h.nodes_le
    have hedges := h.edges_le
    rw [hlimits] at hnodes hedges
    exact ⟨hnodes, hedges⟩
  case ordered =>
    intro hfrozen name n hn
    exact ⟨h.increasingBy_edgesOut hfrozen hn, h.increasingBy_edgesIn hfrozen hn⟩

end ClassGraph

end ClassAtlas
