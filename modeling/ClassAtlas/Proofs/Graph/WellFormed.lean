import ClassAtlas.Proofs.Graph.Construction

namespace ClassAtlas.ClassGraph

/-- The places that the nodes hold are those of the edges with the node at one of their ends, each
place once. -/
structure Listed (g : ClassGraph) (held : ClassNode → List Nat) (tip : ClassEdge → Text) :
    Prop where
  mem_iff : ∀ {name n} {place : Nat}, g.nodes.find? name = some n →
    (place ∈ held n ↔ ∃ e, g.edges[place]? = some e ∧ tip e = name)
  nodup : ∀ {name n}, g.nodes.find? name = some n → (held n).Nodup

/-- What every call keeps. -/
structure WellFormed (g : ClassGraph) : Prop where
  node_name : ∀ {name n}, g.nodes.find? name = some n → n.unit.name = name ∧ name ≠ []
  place_iff : ∀ {source target place}, g.places.find? (source, target) = some place ↔
    ∃ e, g.edges[place]? = some e ∧ e.source = source ∧ e.target = target
  ends : ∀ {place : Nat} {e : ClassEdge}, g.edges[place]? = some e →
    e.source ≠ e.target ∧ g.nodes.contains e.source = true ∧ g.nodes.contains e.target = true
  outgoing : g.Listed (·.outgoing) (·.source)
  incoming : g.Listed (·.incoming) (·.target)
  nodes_le : (g.nodes.size : Int) ≤ max 0 g.limits.nodes
  edges_le : (g.edges.size : Int) ≤ max 0 g.limits.edges
  named_nonempty : g.named.contains [] = false
  sorted : g.frozen = true → ∀ {name n}, g.nodes.find? name = some n →
    IncreasingBy g.targetAt n.outgoing ∧ IncreasingBy g.sourceAt n.incoming

variable {g g' : ClassGraph}

/-- A new graph is well-formed, whatever its limits. -/
theorem new_wellFormed (root : Text) (limits : GraphLimits) : (new root limits).WellFormed where
  node_name h := by simp [new] at h
  place_iff := by simp [new]
  ends h := by simp [new] at h
  outgoing := ⟨fun h => by simp [new] at h, fun h => by simp [new] at h⟩
  incoming := ⟨fun h => by simp [new] at h, fun h => by simp [new] at h⟩
  nodes_le := by simp [new, SortedMap.size, SortedMap.empty]
  edges_le := by simp [new]
  named_nonempty := rfl
  sorted h := by simp [new] at h

namespace Listed

variable {held : ClassNode → List Nat} {tip : ClassEdge → Text}

/-- Only the ends of the edges and the places in the nodes matter. -/
theorem of_same_ends (h : g.Listed held tip)
    (hnodes : ∀ {name n'}, g'.nodes.find? name = some n' →
      ∃ n, g.nodes.find? name = some n ∧ (held n').Perm (held n))
    (hedges : ∀ place : Nat, g'.edges[place]?.map tip = g.edges[place]?.map tip) :
    g'.Listed held tip where
  mem_iff {name n' place} hn' := by
    obtain ⟨n, hn, hperm⟩ := hnodes hn'
    have htip := hedges place
    rw [hperm.mem_iff, h.mem_iff hn]
    constructor
    · rintro ⟨e, he, hname⟩
      rw [he, Option.map_some, Option.map_eq_some_iff] at htip
      obtain ⟨e', he', heq⟩ := htip
      exact ⟨e', he', heq.trans hname⟩
    · rintro ⟨e', he', hname⟩
      rw [he', Option.map_some, eq_comm, Option.map_eq_some_iff] at htip
      obtain ⟨e, he, heq⟩ := htip
      exact ⟨e, he, heq.trans hname⟩
  nodup {name n'} hn' := by
    obtain ⟨n, hn, hperm⟩ := hnodes hn'
    exact hperm.nodup_iff.mpr (h.nodup hn)

/-- A new edge behind the others is held by the node at its end, behind the places held before. -/
theorem push (h : g.Listed held tip) {e : ClassEdge} (hedges : g'.edges = g.edges.push e)
    (hnodes : ∀ {name n'}, g'.nodes.find? name = some n' →
      ∃ n, g.nodes.find? name = some n ∧
        held n' = held n ++ if name = tip e then [g.edges.size] else []) : g'.Listed held tip where
  mem_iff {name n' place} hn' := by
    obtain ⟨n, hn, hheld⟩ := hnodes hn'
    rw [hheld, List.mem_append, h.mem_iff hn, hedges, Array.getElem?_push]
    by_cases hplace : place = g.edges.size
    · subst hplace
      by_cases hname : name = tip e
      · simp [hname]
      · simp [hname, Ne.symm hname]
    · by_cases hname : name = tip e
      · simp [hname, hplace]
      · simp [hname, hplace]
  nodup {name n'} hn' := by
    obtain ⟨n, hn, hheld⟩ := hnodes hn'
    have hfresh : g.edges.size ∉ held n := by
      rw [h.mem_iff hn]
      simp
    rw [hheld]
    split
    · exact List.nodup_append.mpr ⟨h.nodup hn, by simp,
        by simp; exact fun a ha heq => hfresh (heq ▸ ha)⟩
    · simpa using h.nodup hn

end Listed

/-- A class that is not in the graph is at no end of an edge. -/
theorem WellFormed.ends_ne (h : g.WellFormed) {name : Text} (hname : g.nodes.find? name = none)
    {place : Nat} {e : ClassEdge} (he : g.edges[place]? = some e) :
    e.source ≠ name ∧ e.target ≠ name := by
  have hnone := SortedMap.contains_eq_false_iff.mpr hname
  obtain ⟨_, hsource, htarget⟩ := h.ends he
  constructor
  · intro heq
    rw [heq, hnone] at hsource
    contradiction
  · intro heq
    rw [heq, hnone] at htarget
    contradiction

private theorem Listed.insert {held : ClassNode → List Nat} {tip : ClassEdge → Text}
    (h : g.Listed held tip) {u : SourceUnit} (hheld : held ⟨u, [], []⟩ = [])
    (hfree : ∀ {place : Nat} {e : ClassEdge}, g.edges[place]? = some e → tip e ≠ u.name)
    (hnodes : g'.nodes = g.nodes.insert u.name ⟨u, [], []⟩) (hedges : g'.edges = g.edges) :
    g'.Listed held tip := by
  constructor
  · intro name n place hn
    rw [hnodes, SortedMap.find?_insert] at hn
    rw [hedges]
    split at hn
    · next hname =>
      obtain rfl := Option.some.inj hn
      rw [hheld, hname]
      simp only [List.not_mem_nil, false_iff, not_exists, not_and]
      exact fun e he => hfree he
    · exact h.mem_iff hn
  · intro name n hn
    rw [hnodes, SortedMap.find?_insert] at hn
    split at hn
    · obtain rfl := Option.some.inj hn
      rw [hheld]
      exact List.nodup_nil
    · exact h.nodup hn

/-- A class that is added leaves the graph well-formed. -/
theorem WellFormed.addNode (h : g.WellFormed) {u : SourceUnit} (hadd : g.addNode u = .ok g') :
    g'.WellFormed := by
  obtain ⟨hfrozen, hname, hfresh, hroom, rfl⟩ := addNode_eq_ok_iff.mp hadd
  constructor
  case node_name =>
    intro name n hn
    rw [SortedMap.find?_insert] at hn
    split at hn
    · next heq =>
      obtain rfl := Option.some.inj hn
      exact ⟨heq.symm, heq ▸ hname⟩
    · exact h.node_name hn
  case place_iff => exact h.place_iff
  case ends =>
    intro place e he
    obtain ⟨hne, hsource, htarget⟩ := h.ends he
    exact ⟨hne, by simp [hsource], by simp [htarget]⟩
  case outgoing => exact h.outgoing.insert rfl (fun he => (h.ends_ne hfresh he).1) rfl rfl
  case incoming => exact h.incoming.insert rfl (fun he => (h.ends_ne hfresh he).2) rfl rfl
  case nodes_le =>
    have hsize := SortedMap.size_insert_of_find?_eq_none hfresh ⟨u, [], []⟩
    have hlimit : (g.nodes.size : Int) < g.limits.nodes := hroom
    simp only [hsize]
    omega
  case edges_le => exact h.edges_le
  case named_nonempty => exact h.named_nonempty
  case sorted => simp [hfrozen]

/-- A module that is added leaves the graph well-formed. -/
theorem WellFormed.addModule (h : g.WellFormed) {name : Text} (hadd : g.addModule name = .ok g') :
    g'.WellFormed := by
  obtain ⟨-, rfl⟩ := addModule_eq_ok_iff.mp hadd
  split
  · exact h
  · next hname =>
    have hnamed : (SortedSet.add g.named name).contains [] = false := by
      simpa [SortedSet.add, Ne.symm hname] using h.named_nonempty
    exact ⟨h.node_name, h.place_iff, h.ends, ⟨h.outgoing.mem_iff, h.outgoing.nodup⟩,
      ⟨h.incoming.mem_iff, h.incoming.nodup⟩, h.nodes_le, h.edges_le, hnamed, h.sorted⟩

/-- The edges after rules were added at a place. -/
theorem addRules_getElem? (g : ClassGraph) (place : Nat) (rules : Rules) (i : Nat) :
    (g.addRules place rules).edges[i]? =
      g.edges[i]?.map fun e =>
        if i = place then { e with rules := e.rules.union rules } else e := by
  unfold addRules
  rw [Array.getElem?_modify]
  by_cases hi : i = place
  · simp [hi]
  · simp [hi, Ne.symm hi]

/-- Rules added to an edge change nothing else. -/
theorem addRules_tip {tip : ClassEdge → Text} (htip : ∀ e r, tip { e with rules := r } = tip e)
    (g : ClassGraph) (place : Nat) (rules : Rules) (i : Nat) :
    (g.addRules place rules).edges[i]?.map tip = g.edges[i]?.map tip := by
  rw [addRules_getElem?, Option.map_map]
  congr 1
  funext e
  simp only [Function.comp_apply]
  split
  · exact htip e _
  · rfl

/-- Rules that are added to an edge leave the graph well-formed, at any place. -/
theorem WellFormed.addRules (h : g.WellFormed) (hfrozen : g.frozen = false) (place : Nat)
    (rules : Rules) :
    (g.addRules place rules).WellFormed := by
  have hedge : ∀ {i : Nat} {e' : ClassEdge}, (g.addRules place rules).edges[i]? = some e' →
      ∃ e, g.edges[i]? = some e ∧ e.source = e'.source ∧ e.target = e'.target := by
    intro i e' he'
    rw [addRules_getElem?, Option.map_eq_some_iff] at he'
    obtain ⟨e, he, rfl⟩ := he'
    refine ⟨e, he, ?_⟩
    split <;> exact ⟨rfl, rfl⟩
  constructor
  case node_name => exact h.node_name
  case place_iff =>
    intro source target i
    have hplaces : (g.addRules place rules).places = g.places := rfl
    rw [hplaces, h.place_iff, addRules_getElem?]
    constructor
    · rintro ⟨e, he, hsource, htarget⟩
      refine ⟨_, by rw [he, Option.map_some], ?_⟩
      split <;> exact ⟨hsource, htarget⟩
    · rintro ⟨e', he', hsource, htarget⟩
      rw [← addRules_getElem?] at he'
      obtain ⟨e, he, hs, ht⟩ := hedge he'
      exact ⟨e, he, hs.trans hsource, ht.trans htarget⟩
  case ends =>
    intro i e' he'
    obtain ⟨e, he, hs, ht⟩ := hedge he'
    rw [← hs, ← ht]
    exact h.ends he
  case outgoing =>
    exact h.outgoing.of_same_ends (fun hn => ⟨_, hn, List.Perm.refl _⟩)
      (addRules_tip (fun _ _ => rfl) g place rules)
  case incoming =>
    exact h.incoming.of_same_ends (fun hn => ⟨_, hn, List.Perm.refl _⟩)
      (addRules_tip (fun _ _ => rfl) g place rules)
  case nodes_le => exact h.nodes_le
  case edges_le => simpa [ClassGraph.addRules] using h.edges_le
  case named_nonempty => exact h.named_nonempty
  case sorted => simp [ClassGraph.addRules, hfrozen]

/-- The nodes after a new edge was put in. -/
theorem link_find? (g : ClassGraph) {source target : Text} (rules : Rules)
    (name : Text) :
    (g.link source target rules).nodes.find? name = (g.nodes.find? name).map fun n =>
      { n with
        outgoing := n.outgoing ++ if name = source then [g.edges.size] else []
        incoming := n.incoming ++ if name = target then [g.edges.size] else [] } := by
  unfold link
  simp only [SortedMap.find?_modify]
  cases hname : g.nodes.find? name with
  | none =>
    by_cases hs : name = source <;> by_cases ht : name = target <;> simp_all
  | some n =>
    by_cases hs : name = source <;> by_cases ht : name = target <;> simp_all

/-- A new edge between two classes leaves the graph well-formed, if there is room for it. -/
theorem WellFormed.link (h : g.WellFormed) {source target : Text} {rules : Rules}
    (hfrozen : g.frozen = false) (hne : source ≠ target) (hsource : g.nodes.contains source = true)
    (htarget : g.nodes.contains target = true) (hfresh : g.places.find? (source, target) = none)
    (hroom : (g.edgeCount : Int) < g.limits.edges) : (g.link source target rules).WellFormed := by
  have hcontains : ∀ name, (g.link source target rules).nodes.contains name =
      g.nodes.contains name := by
    intro name
    simp [ClassGraph.link]
  constructor
  case node_name =>
    intro name n' hn'
    rw [link_find?, Option.map_eq_some_iff] at hn'
    obtain ⟨n, hn, rfl⟩ := hn'
    obtain ⟨hunit, hne⟩ := h.node_name hn
    exact ⟨hunit, hne⟩
  case place_iff =>
    intro a b i
    simp only [ClassGraph.link, SortedMap.find?_insert, Array.getElem?_push]
    by_cases hpair : (a, b) = (source, target)
    · obtain ⟨rfl, rfl⟩ := Prod.mk.inj hpair
      rw [if_pos rfl]
      constructor
      · intro hi
        obtain rfl := Option.some.inj hi
        exact ⟨_, if_pos rfl, rfl, rfl⟩
      · rintro ⟨e, he, hs, ht⟩
        split at he
        · next hi => rw [hi]
        · -- an older edge between the two would have a place in the index
          have hold := h.place_iff.mpr ⟨e, he, hs, ht⟩
          rw [hfresh] at hold
          contradiction
    · rw [if_neg hpair, h.place_iff]
      by_cases hi : i = g.edges.size
      · subst hi
        simp only [if_pos]
        constructor
        · rintro ⟨e, he, -⟩
          simp at he
        · rintro ⟨e, he, hs, ht⟩
          obtain rfl := Option.some.inj he
          exact absurd (Prod.ext hs.symm ht.symm) hpair
      · rw [if_neg hi]
  case ends =>
    intro i e he
    simp only [hcontains]
    simp only [ClassGraph.link, Array.getElem?_push] at he
    split at he
    · obtain rfl := Option.some.inj he
      exact ⟨hne, hsource, htarget⟩
    · exact h.ends he
  case outgoing =>
    refine h.outgoing.push rfl ?_
    intro name n' hn'
    rw [link_find?, Option.map_eq_some_iff] at hn'
    obtain ⟨n, hn, rfl⟩ := hn'
    exact ⟨n, hn, rfl⟩
  case incoming =>
    refine h.incoming.push rfl ?_
    intro name n' hn'
    rw [link_find?, Option.map_eq_some_iff] at hn'
    obtain ⟨n, hn, rfl⟩ := hn'
    exact ⟨n, hn, rfl⟩
  case nodes_le => simpa [ClassGraph.link] using h.nodes_le
  case edges_le =>
    have hlimit : (g.edges.size : Int) < g.limits.edges := hroom
    simp only [ClassGraph.link, Array.size_push]
    omega
  case named_nonempty => exact h.named_nonempty
  case sorted => simp [ClassGraph.link, hfrozen]

/-- An edge that is added, new or not, leaves the graph well-formed. -/
theorem WellFormed.addEdge (h : g.WellFormed) {source target : Text} {rules : Rules}
    (hadd : g.addEdge source target rules = .ok g') : g'.WellFormed := by
  obtain ⟨hfrozen, hne, hsource, htarget, ⟨place, -, rfl⟩ | ⟨hfresh, hroom, rfl⟩⟩ :=
    addEdge_eq_ok_iff.mp hadd
  · exact h.addRules hfrozen place rules
  · exact h.link hfrozen hne hsource htarget hfresh hroom

/-- The far ends of the places that a node holds are all different: two edges with the same ends
would have one place. -/
theorem WellFormed.far_ends_nodup (h : g.WellFormed) {name : Text} {n : ClassNode}
    (hn : g.nodes.find? name = some n) :
    (n.outgoing.map g.targetAt).Nodup ∧ (n.incoming.map g.sourceAt).Nodup := by
  constructor
  · refine List.Nodup.map_on ?_ (h.outgoing.nodup hn)
    intro i hi j hj heq
    obtain ⟨d, hd, hdname⟩ := (h.outgoing.mem_iff hn).mp hi
    obtain ⟨e, he, hename⟩ := (h.outgoing.mem_iff hn).mp hj
    have htarget : d.target = e.target := by simpa [targetAt, hd, he] using heq
    have hplace := h.place_iff.mpr ⟨d, hd, hdname, htarget⟩
    rw [h.place_iff.mpr ⟨e, he, hename, rfl⟩] at hplace
    exact (Option.some.inj hplace).symm
  · refine List.Nodup.map_on ?_ (h.incoming.nodup hn)
    intro i hi j hj heq
    obtain ⟨d, hd, hdname⟩ := (h.incoming.mem_iff hn).mp hi
    obtain ⟨e, he, hename⟩ := (h.incoming.mem_iff hn).mp hj
    have hsource : d.source = e.source := by simpa [sourceAt, hd, he] using heq
    have hplace := h.place_iff.mpr ⟨d, hd, hsource, hdname⟩
    rw [h.place_iff.mpr ⟨e, he, rfl, hename⟩] at hplace
    exact (Option.some.inj hplace).symm

/-- Freezing puts the edges of each node in order and leaves the graph well-formed. -/
theorem WellFormed.freeze (h : g.WellFormed) (now : Int) : (g.freeze now).WellFormed := by
  have hnode : ∀ {name n'}, (g.freeze now).nodes.find? name = some n' →
      ∃ n, g.nodes.find? name = some n ∧ n'.unit = n.unit ∧
        n'.outgoing = sortBy g.targetAt n.outgoing ∧
        n'.incoming = sortBy g.sourceAt n.incoming := by
    intro name n' hn'
    simp only [ClassGraph.freeze, SortedMap.find?_map, Option.map_eq_some_iff] at hn'
    obtain ⟨n, hn, rfl⟩ := hn'
    exact ⟨n, hn, rfl, rfl, rfl⟩
  constructor
  case node_name =>
    intro name n' hn'
    obtain ⟨n, hn, hunit, -⟩ := hnode hn'
    rw [hunit]
    exact h.node_name hn
  case place_iff => exact h.place_iff
  case ends =>
    intro place e he
    simpa [ClassGraph.freeze] using h.ends he
  case outgoing =>
    refine h.outgoing.of_same_ends ?_ fun _ => rfl
    intro name n' hn'
    obtain ⟨n, hn, -, hout, -⟩ := hnode hn'
    exact ⟨n, hn, hout ▸ sortBy_perm _ _⟩
  case incoming =>
    refine h.incoming.of_same_ends ?_ fun _ => rfl
    intro name n' hn'
    obtain ⟨n, hn, -, -, hin⟩ := hnode hn'
    exact ⟨n, hn, hin ▸ sortBy_perm _ _⟩
  case nodes_le => simpa [ClassGraph.freeze] using h.nodes_le
  case edges_le => exact h.edges_le
  case named_nonempty => exact h.named_nonempty
  case sorted =>
    intro _ name n' hn'
    obtain ⟨n, hn, -, hout, hin⟩ := hnode hn'
    obtain ⟨htargets, hsources⟩ := h.far_ends_nodup hn
    rw [hout, hin]
    exact ⟨increasingBy_sortBy htargets, increasingBy_sortBy hsources⟩

/-- Every call leaves the graph well-formed, whether it succeeds or fails. -/
theorem WellFormed.after (h : g.WellFormed) (call : GraphCall) : (g.after call).WellFormed := by
  rcases after_cases g call with ⟨-, hsame | ⟨u, hadd⟩ | ⟨name, hadd⟩ | ⟨now, hfreeze⟩⟩ |
    ⟨source, target, rules, -, hadd⟩
  · rwa [hsame]
  · exact h.addNode hadd
  · exact h.addModule hadd
  · rw [hfreeze]
    exact h.freeze now
  · exact h.addEdge hadd

/-- Calls keep the invariant. -/
theorem WellFormed.runCalls (h : g.WellFormed) (calls : List GraphCall) :
    (g.runCalls calls).WellFormed :=
  runCalls_induction (P := fun g _ => g.WellFormed) (fun _ _ call h => h.after call) g [] calls h

/-- Graphs that come from calls on a new one are well-formed. -/
theorem Reachable.wellFormed (h : g.Reachable) : g.WellFormed := by
  obtain ⟨root, limits, calls, rfl⟩ := h
  exact (new_wellFormed root limits).runCalls calls

end ClassAtlas.ClassGraph
