import ClassAtlas.Proofs.Graph.Document
import ClassAtlas.Proofs.Graph.Representation

namespace ClassAtlas

/-- The edge that a call names. -/
def GraphCall.edge? : GraphCall → Option ClassEdge
  | .addEdge source target rules => some ⟨source, target, rules⟩
  | _ => none

/-- All rules that calls give to an edge. An edge that is given without any rule is still given, so
this is not the same as the empty set. -/
def rulesGiven (calls : List GraphCall) (source target : Text) : Option Rules :=
  let sets := rulesBetween (calls.filterMap GraphCall.edge?) source target
  if sets = [] then none else some (Rules.unionAll sets)

namespace ClassGraph

variable {g g' : ClassGraph} {done : List GraphCall}

/-- The graph after calls, unless one of them fails. -/
def perform (g : ClassGraph) (calls : List GraphCall) : Except GraphError ClassGraph :=
  calls.foldlM (fun g call => call.answer g) g

/-- Calls succeed if the first one does and the others do on what it gives. -/
theorem perform_cons_eq_ok_iff {call : GraphCall} {rest : List GraphCall} :
    g.perform (call :: rest) = .ok g' ↔
      ∃ g₁, call.answer g = .ok g₁ ∧ g₁.perform rest = .ok g' := by
  unfold perform
  rw [List.foldlM_cons]
  cases call.answer g with
  | error e => simp [bind, Except.bind]
  | ok g₁ => simp [bind, Except.bind]

/-- What every call that succeeds keeps, of the graph and of the calls made so far, holds after a
run. -/
theorem perform_induction {P : ClassGraph → List GraphCall → Prop}
    (hstep : ∀ {g done call g'}, P g done → call.answer g = .ok g' → P g' (done ++ [call]))
    {calls : List GraphCall} (h : P g done) (hrun : g.perform calls = .ok g') :
    P g' (done ++ calls) := by
  induction calls generalizing g done with
  | nil =>
    obtain rfl := Except.ok.inj hrun
    simpa using h
  | cons call rest ih =>
    obtain ⟨g₁, hcall, hrest⟩ := perform_cons_eq_ok_iff.mp hrun
    simpa using ih (hstep h hcall) hrest

/-- A graph has what calls gave to it, and nothing else. -/
structure Given (g : ClassGraph) (calls : List GraphCall) : Prop where
  unit_iff : ∀ name u, g.units.find? name = some u ↔ .addNode u ∈ calls ∧ u.name = name
  named_iff : ∀ m, g.named.contains m = true ↔ .addModule m ∈ calls ∧ m ≠ []
  recorded : g.Recorded (calls.filterMap GraphCall.edge?)

/-- A new graph was given nothing. -/
theorem new_given (root : Text) (limits : GraphLimits) : (new root limits).Given [] where
  unit_iff := by simp [units_find?, node?, new]
  named_iff := by simp [new, SortedMap.contains]
  recorded := new_recorded root limits

/-- A class that is added is entered under its name, and all else stays. -/
theorem addNode_units {u : SourceUnit} (hadd : g.addNode u = .ok g') :
    g'.units = g.units.insert u.name u := by
  obtain ⟨-, -, -, -, rfl⟩ := addNode_eq_ok_iff.mp hadd
  apply SortedMap.ext
  intro name
  rw [units_find?, node?, SortedMap.find?_insert, SortedMap.find?_insert, units_find?, node?]
  split <;> rfl

/-- An edge changes no class. -/
theorem addEdge_units {source target : Text} {rules : Rules}
    (hadd : g.addEdge source target rules = .ok g') : g'.units = g.units := by
  obtain ⟨-, -, -, -, ⟨place, -, rfl⟩ | ⟨-, -, rfl⟩⟩ := addEdge_eq_ok_iff.mp hadd
  · rfl
  · exact link_units ..

/-- A class that is added is new, so it takes no other class away. -/
theorem Given.unit_addNode (h : g.Given done) {u : SourceUnit} (hadd : g.addNode u = .ok g')
    (name : Text) (v : SourceUnit) :
    g'.units.find? name = some v ↔ .addNode v ∈ done ++ [.addNode u] ∧ v.name = name := by
  have hfresh : g.units.find? u.name = none := by
    rw [units_find?, node?, (addNode_eq_ok_iff.mp hadd).2.2.1, Option.map_none]
  have hmem : GraphCall.addNode v ∈ done ++ [.addNode u] ↔ .addNode v ∈ done ∨ v = u := by simp
  rw [addNode_units hadd, SortedMap.find?_insert, hmem]
  by_cases hname : name = u.name
  · subst hname
    rw [if_pos rfl, Option.some.injEq]
    constructor
    · rintro rfl
      exact ⟨Or.inr rfl, rfl⟩
    · rintro ⟨hdone | hsame, hv⟩
      · have hfound := (h.unit_iff u.name v).mpr ⟨hdone, hv⟩
        rw [hfresh] at hfound
        contradiction
      · exact hsame.symm
  · rw [if_neg hname, h.unit_iff]
    constructor
    · rintro ⟨hdone, hv⟩
      exact ⟨Or.inl hdone, hv⟩
    · rintro ⟨hdone | rfl, hv⟩
      · exact ⟨hdone, hv⟩
      · exact absurd hv.symm hname

/-- A call that succeeds records the edge that it names, if any. -/
theorem Given.recorded_answer (h : g.Given done) (hg : g.WellFormed) {call : GraphCall}
    (hcall : call.answer g = .ok g') :
    g'.Recorded ((done ++ [call]).filterMap GraphCall.edge?) := by
  have hafter : g.after call = g' := by simp [after, hcall]
  have hedge : g.givenEdge? call = call.edge? := by
    cases call with
    | addEdge source target rules =>
      have hadd : g.addEdge source target rules = .ok g' := hcall
      simp [givenEdge?, GraphCall.edge?, hadd]
    | addNode u => rfl
    | addModule name => rfl
    | freeze now => rfl
  have hrecorded := h.recorded.after hg call
  rw [hafter, hedge] at hrecorded
  rw [List.filterMap_append]
  cases hcase : call.edge? with
  | none => simpa [hcase] using hrecorded
  | some e => simpa [hcase] using hrecorded

/-- After one more call that succeeds, the graph has what this call gave as well. -/
theorem Given.answer (h : g.Given done) (hg : g.WellFormed) {call : GraphCall}
    (hcall : call.answer g = .ok g') : g'.Given (done ++ [call]) := by
  have hrecorded := h.recorded_answer hg hcall
  cases call with
  | addNode u =>
    refine ⟨h.unit_addNode hcall, ?_, hrecorded⟩
    obtain ⟨-, -, -, -, rfl⟩ := addNode_eq_ok_iff.mp hcall
    intro m
    simpa using h.named_iff m
  | addModule name =>
    obtain ⟨-, rfl⟩ := addModule_eq_ok_iff.mp hcall
    refine ⟨?_, ?_, hrecorded⟩
    · intro name' u
      have hsame : (if name = [] then g else { g with named := SortedSet.add g.named name }).units =
          g.units := by
        split <;> rfl
      rw [hsame]
      simpa using h.unit_iff name' u
    · intro m
      have hnamed := h.named_iff m
      by_cases hempty : name = []
      · simp only [hempty, if_true, hnamed, List.mem_append, List.mem_singleton,
          GraphCall.addModule.injEq]
        grind
      · simp only [hempty, if_false, SortedSet.add, SortedMap.contains_insert, Bool.or_eq_true,
          decide_eq_true_eq, hnamed, List.mem_append, List.mem_singleton,
          GraphCall.addModule.injEq]
        grind
  | addEdge source target rules =>
    refine ⟨?_, ?_, hrecorded⟩
    · intro name u
      rw [addEdge_units hcall]
      simpa using h.unit_iff name u
    · obtain ⟨-, -, -, -, ⟨place, -, rfl⟩ | ⟨-, -, rfl⟩⟩ := addEdge_eq_ok_iff.mp hcall
      · intro m
        simpa [addRules] using h.named_iff m
      · intro m
        simpa [link] using h.named_iff m
  | freeze now =>
    obtain rfl := Except.ok.inj hcall
    refine ⟨?_, ?_, hrecorded⟩
    · intro name u
      simpa using h.unit_iff name u
    · intro m
      simpa [freeze] using h.named_iff m

/-- No call changes the root. -/
theorem answer_root {call : GraphCall} (hcall : call.answer g = .ok g') : g'.root = g.root := by
  cases call with
  | addNode u =>
    obtain ⟨-, -, -, -, rfl⟩ := addNode_eq_ok_iff.mp hcall
    rfl
  | addModule name =>
    obtain ⟨-, rfl⟩ := addModule_eq_ok_iff.mp hcall
    split <;> rfl
  | addEdge source target rules =>
    obtain ⟨-, -, -, -, ⟨place, -, rfl⟩ | ⟨-, -, rfl⟩⟩ := addEdge_eq_ok_iff.mp hcall
    · rfl
    · rfl
  | freeze now =>
    obtain rfl := Except.ok.inj hcall
    rfl

/-- A run without failures ends in a graph with exactly what its calls name. -/
theorem given_of_perform {root : Text} {limits : GraphLimits} {calls : List GraphCall}
    (hrun : (new root limits).perform calls = .ok g) :
    g.WellFormed ∧ g.Given calls ∧ g.root = root := by
  have hstart : (new root limits).WellFormed ∧ (new root limits).Given [] ∧
      (new root limits).root = root :=
    ⟨new_wellFormed root limits, new_given root limits, rfl⟩
  have hend := perform_induction
    (P := fun g done => g.WellFormed ∧ g.Given done ∧ g.root = root) ?_ hstart hrun
  · simpa using hend
  · rintro g done call g' ⟨hwell, hgiven, hroot⟩ hcall
    have hafter : g.after call = g' := by simp [after, hcall]
    exact ⟨hafter ▸ hwell.after call, hgiven.answer hwell hcall, (answer_root hcall).trans hroot⟩

end ClassGraph

end ClassAtlas
