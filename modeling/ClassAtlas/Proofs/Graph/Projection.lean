import ClassAtlas.Proofs.Graph.Document
import Mathlib.Algebra.Order.Ring.Nat

namespace ClassAtlas

namespace ModuleGraph

variable {m m' : ModuleGraph} {places : List Nat} {kind : Text × Text → Prop}

/-- The places are those of the edges whose ends are of a kind, each once. -/
structure Holds (m : ModuleGraph) (places : List Nat) (kind : Text × Text → Prop) : Prop where
  mem_iff : ∀ {place : Nat}, place ∈ places ↔ ∃ e, m.store[place]? = some e ∧ kind e.ends
  nodup : places.Nodup

/-- The order of the places does not matter. -/
theorem Holds.perm (h : m.Holds places kind) {places' : List Nat} (hperm : places'.Perm places) :
    m.Holds places' kind where
  mem_iff := by
    intro place
    rw [hperm.mem_iff]
    exact h.mem_iff
  nodup := hperm.nodup_iff.mpr h.nodup

/-- A new edge behind the others has a place of its own. -/
theorem Holds.push (h : m.Holds places kind) {e : ModuleEdge} (hstore : m'.store = m.store.push e)
    [Decidable (kind e.ends)] {places' : List Nat}
    (hplaces : places' = places ++ if kind e.ends then [m.store.size] else []) :
    m'.Holds places' kind where
  mem_iff := by
    intro place
    rw [hplaces, hstore, List.mem_append, h.mem_iff, Array.getElem?_push]
    by_cases hplace : place = m.store.size
    · subst hplace
      by_cases hkind : kind e.ends
      · simp [hkind]
      · simp [hkind]
    · by_cases hkind : kind e.ends
      · simp [hkind, hplace]
      · simp [hkind, hplace]
  nodup := by
    have hfresh : m.store.size ∉ places := by
      rw [h.mem_iff]
      simp
    rw [hplaces]
    split
    · rw [List.nodup_append]
      refine ⟨h.nodup, by simp, ?_⟩
      intro place hplace other hother heq
      rw [List.mem_singleton.mp hother] at heq
      exact hfresh (heq ▸ hplace)
    · simpa using h.nodup

/-- Whether a list holds the places of a kind is decided by the ends of the edges alone, so their evidence
may change. -/
theorem Holds.of_same_ends (h : m.Holds places kind)
    (hends : ∀ place : Nat, m'.store[place]?.map (·.ends) = m.store[place]?.map (·.ends)) :
    m'.Holds places kind where
  mem_iff := by
    intro place
    have hkind : ∀ n : ModuleGraph, (∃ e, n.store[place]? = some e ∧ kind e.ends) ↔
        ∃ k, n.store[place]?.map (·.ends) = some k ∧ kind k := by
      intro n
      cases n.store[place]? <;> simp
    rw [h.mem_iff, hkind, hkind, hends]
  nodup := h.nodup

/-- The edges at the places are all edges of the kind. -/
theorem Holds.mem_edgesAt_iff (h : m.Holds places kind) {e : ModuleEdge} :
    e ∈ m.edgesAt places ↔ e ∈ m.store ∧ kind e.ends := by
  unfold edgesAt
  rw [List.mem_filterMap, Array.mem_iff_getElem?]
  constructor
  · rintro ⟨place, hplace, he⟩
    obtain ⟨d, hd, hkind⟩ := h.mem_iff.mp hplace
    rw [he] at hd
    obtain rfl := Option.some.inj hd
    exact ⟨⟨place, he⟩, hkind⟩
  · rintro ⟨⟨place, he⟩, hkind⟩
    exact ⟨place, h.mem_iff.mpr ⟨e, he, hkind⟩, he⟩

/-- No place leads out of the store, so there are as many edges as places. -/
theorem Holds.length_edgesAt (h : m.Holds places kind) :
    (m.edgesAt places).length = places.length := by
  unfold edgesAt
  rw [List.length_filterMap_eq_countP, List.countP_eq_length]
  intro place hplace
  obtain ⟨e, he, -⟩ := h.mem_iff.mp hplace
  simp [he]

/-- The index, the list of all edges and the lists at the modules show the edges of the store. -/
structure Indexed (m : ModuleGraph) : Prop where
  index_iff : ∀ {ends : Text × Text} {place : Nat}, m.index.find? ends = some place ↔
    ∃ e, m.store[place]? = some e ∧ e.ends = ends
  order : m.Holds m.order fun _ => True
  outgoing : ∀ name, m.Holds (placesAt m.outgoing name) fun ends => ends.1 = name
  incoming : ∀ name, m.Holds (placesAt m.incoming name) fun ends => ends.2 = name

/-- Without edges all lists are right. -/
theorem blank_indexed (modules : List Text) : (blank modules).Indexed := by
  have hnone : ∀ kind : Text × Text → Prop, (blank modules).Holds [] kind := by
    intro kind
    exact ⟨by simp [blank], List.nodup_nil⟩
  exact ⟨by simp [blank], hnone _, fun _ => hnone _, fun _ => hnone _⟩

/-- A place is enlisted behind the others of its module, and no other module gets it. -/
theorem placesAt_enlist (lists : SortedMap Text (List Nat)) (module : Text) (place : Nat)
    (name : Text) :
    placesAt (enlist lists module place) name =
      placesAt lists name ++ if module = name then [place] else [] := by
  unfold enlist
  unfold placesAt
  rw [SortedMap.find?_insert]
  by_cases hname : module = name
  · simp [hname]
  · simp [hname, Ne.symm hname]

/-- A new edge is shown by all lists, as long as no edge had its ends before. -/
theorem Indexed.connect (h : m.Indexed) {e : ModuleEdge} (hnew : m.index.find? e.ends = none) :
    (m.connect e).Indexed where
  index_iff := by
    intro ends place
    simp only [ModuleGraph.connect, SortedMap.find?_insert, Array.getElem?_push]
    by_cases hends : ends = e.ends
    · subst hends
      rw [if_pos rfl]
      constructor
      · intro hplace
        obtain rfl := Option.some.inj hplace
        exact ⟨e, if_pos rfl, rfl⟩
      · rintro ⟨d, hd, hdends⟩
        split at hd
        · next hplace => rw [hplace]
        · -- an older edge with these ends would be in the index
          have hold := h.index_iff.mpr ⟨d, hd, hdends⟩
          rw [hnew] at hold
          contradiction
    · rw [if_neg hends, h.index_iff]
      by_cases hplace : place = m.store.size
      · subst hplace
        simp [Ne.symm hends]
      · simp [hplace]
  order := h.order.push rfl (by simp [ModuleGraph.connect])
  outgoing name := (h.outgoing name).push rfl (placesAt_enlist ..)
  incoming name := (h.incoming name).push rfl (placesAt_enlist ..)

/-- More evidence for one edge leaves all other edges alone. -/
theorem support_getElem? (m : ModuleGraph) (place : Nat) (p : ClassPair) (i : Nat) :
    (m.support place p).store[i]? = m.store[i]?.map fun e =>
      if i = place then { e with evidence := e.evidence ++ [p] } else e := by
  unfold support
  rw [Array.getElem?_modify]
  by_cases hi : i = place
  · simp [hi]
  · simp [hi, Ne.symm hi]

/-- More evidence changes the ends of no edge. -/
theorem support_ends (m : ModuleGraph) (place : Nat) (p : ClassPair) (i : Nat) :
    (m.support place p).store[i]?.map (·.ends) = m.store[i]?.map (·.ends) := by
  rw [support_getElem?, Option.map_map]
  congr 1
  funext e
  by_cases hi : i = place
  · simp [hi, ModuleEdge.ends]
  · simp [hi]

/-- More evidence for an edge leaves all lists right. The place need not be one of the store. -/
theorem Indexed.support (h : m.Indexed) (place : Nat) (p : ClassPair) :
    (m.support place p).Indexed where
  index_iff := by
    intro ends i
    have hends : ∀ n : ModuleGraph, (∃ e, n.store[i]? = some e ∧ e.ends = ends) ↔
        n.store[i]?.map (·.ends) = some ends := by
      intro n
      cases n.store[i]? <;> simp
    have hindex : (m.support place p).index = m.index := rfl
    rw [hindex, h.index_iff, hends, hends, support_ends]
  order := h.order.of_same_ends (support_ends m place p)
  outgoing name := (h.outgoing name).of_same_ends (support_ends m place p)
  incoming name := (h.incoming name).of_same_ends (support_ends m place p)

/-- Sorting all lists sorts each of them. -/
theorem placesAt_map_sortBy (lists : SortedMap Text (List Nat)) (key : Nat → Text × Text)
    (name : Text) :
    placesAt (lists.map fun _ places => sortBy key places) name =
      sortBy key (placesAt lists name) := by
  unfold placesAt
  rw [SortedMap.find?_map]
  cases lists.find? name <;> simp [sortBy]

/-- The lists stay right when they are sorted. -/
theorem Indexed.sorted (h : m.Indexed) : m.sorted.Indexed where
  index_iff := h.index_iff
  order := ⟨(h.order.perm (sortBy_perm m.endsAt m.order)).mem_iff,
    (h.order.perm (sortBy_perm m.endsAt m.order)).nodup⟩
  outgoing name := by
    have hperm := (h.outgoing name).perm (sortBy_perm m.endsAt _)
    rw [← placesAt_map_sortBy] at hperm
    exact ⟨hperm.mem_iff, hperm.nodup⟩
  incoming name := by
    have hperm := (h.incoming name).perm (sortBy_perm m.endsAt _)
    rw [← placesAt_map_sortBy] at hperm
    exact ⟨hperm.mem_iff, hperm.nodup⟩

/-- The edge that is found between two modules is the one of the store with these ends. -/
theorem Indexed.edge?_eq_some_iff (h : m.Indexed) {source target : Text} {e : ModuleEdge} :
    m.edge? source target = some e ↔ e ∈ m.store ∧ e.ends = (source, target) := by
  unfold edge?
  rw [Option.bind_eq_some_iff, Array.mem_iff_getElem?]
  constructor
  · rintro ⟨place, hplace, he⟩
    obtain ⟨d, hd, hends⟩ := h.index_iff.mp hplace
    rw [he] at hd
    obtain rfl := Option.some.inj hd
    exact ⟨⟨place, he⟩, hends⟩
  · rintro ⟨⟨place, he⟩, hends⟩
    exact ⟨place, h.index_iff.mpr ⟨e, he, hends⟩, he⟩

/-- Two places with the same ends are one. -/
theorem Indexed.endsAt_nodup (h : m.Indexed) (hplaces : m.Holds places kind) :
    (places.map m.endsAt).Nodup := by
  refine List.Nodup.map_on ?_ hplaces.nodup
  intro i hi j hj hends
  obtain ⟨d, hd, -⟩ := hplaces.mem_iff.mp hi
  obtain ⟨e, he, -⟩ := hplaces.mem_iff.mp hj
  have hsame : d.ends = e.ends := by simpa [endsAt, hd, he] using hends
  have hplace := h.index_iff.mpr ⟨d, hd, hsame⟩
  rw [h.index_iff.mpr ⟨e, he, rfl⟩] at hplace
  exact (Option.some.inj hplace).symm

/-- The edges at sorted places are in the order of their ends, without repetition: no two edges of the
store have the same ends. -/
theorem Indexed.increasingBy_edgesAt (h : m.Indexed) (hplaces : m.Holds places kind) :
    IncreasingBy ModuleEdge.ends (m.edgesAt (sortBy m.endsAt places)) := by
  refine List.Pairwise.filterMap _ ?_ (increasingBy_sortBy (h.endsAt_nodup hplaces))
  intro i j hbefore d hd e he
  simpa [endsAt, hd, he] using hbefore

variable {g : ClassGraph}

/-- The class edges between two modules, as evidence in their order. -/
def evidenceBetween (g : ClassGraph) (edges : List ClassEdge) (source target : Text) :
    List ClassPair :=
  (edges.filter fun e => g.moduleOf e.source == source && g.moduleOf e.target == target).map
    fun e => ⟨e.source, e.target⟩

/-- One more class edge is evidence behind all the earlier evidence between its two modules, and between
no others. -/
theorem evidenceBetween_append (g : ClassGraph) (done : List ClassEdge) (e : ClassEdge)
    (source target : Text) :
    evidenceBetween g (done ++ [e]) source target = evidenceBetween g done source target ++
      if (source, target) = (g.moduleOf e.source, g.moduleOf e.target) then [⟨e.source, e.target⟩]
      else [] := by
  unfold evidenceBetween
  rw [List.filter_append, List.map_append]
  congr 1
  by_cases hends : (source, target) = (g.moduleOf e.source, g.moduleOf e.target)
  · obtain ⟨rfl, rfl⟩ := Prod.mk.inj hends
    simp
  · rw [if_neg hends, List.map_eq_nil_iff, List.filter_eq_nil_iff]
    intro d hd hmodules
    rw [List.mem_singleton.mp hd, Bool.and_eq_true, beq_iff_eq, beq_iff_eq] at hmodules
    exact hends (Prod.ext hmodules.1.symm hmodules.2.symm)

/-- The edges found are those with evidence between two different modules, with all of it. -/
structure Evident (m : ModuleGraph) (g : ClassGraph) (done : List ClassEdge) : Prop where
  indexed : m.Indexed
  edge?_eq : ∀ source target, m.edge? source target =
    if source = target ∨ evidenceBetween g done source target = [] then none
    else some ⟨source, target, evidenceBetween g done source target⟩

/-- Before any class edge was looked at there is nothing to show. -/
theorem blank_evident (g : ClassGraph) (modules : List Text) : (blank modules).Evident g [] where
  indexed := blank_indexed modules
  edge?_eq source target := by simp [blank, edge?, evidenceBetween]

/-- After more evidence for an edge, a look-up finds the edge with it and all other edges as before. -/
theorem Indexed.edge?_support (h : m.Indexed) {source target : Text} {place : Nat}
    (hplace : m.index.find? (source, target) = some place) (p : ClassPair) (a b : Text) :
    (m.support place p).edge? a b = (m.edge? a b).map fun e =>
      if (a, b) = (source, target) then { e with evidence := e.evidence ++ [p] } else e := by
  have hindex : (m.support place p).index = m.index := rfl
  unfold edge?
  rw [hindex]
  cases hi : m.index.find? (a, b) with
  | none => rfl
  | some i =>
    simp only [Option.bind_some, support_getElem?]
    by_cases hends : (a, b) = (source, target)
    · rw [hends, hplace] at hi
      simp [Option.some.inj hi, hends]
    · have hother : i ≠ place := by
        rintro rfl
        obtain ⟨d, hd, hdends⟩ := h.index_iff.mp hi
        obtain ⟨e, he, heends⟩ := h.index_iff.mp hplace
        rw [hd] at he
        obtain rfl := Option.some.inj he
        exact hends (hdends.symm.trans heends)
      simp [hother, hends]

/-- After a new edge was added, a look-up finds it between its ends and all other edges as before. -/
theorem Indexed.edge?_connect (h : m.Indexed) (e : ModuleEdge) (a b : Text) :
    (m.connect e).edge? a b = if (a, b) = e.ends then some e else m.edge? a b := by
  unfold edge?
  simp only [ModuleGraph.connect, SortedMap.find?_insert]
  split
  · simp
  · cases hi : m.index.find? (a, b) with
    | none => rfl
    | some i =>
      obtain ⟨d, hd, -⟩ := h.index_iff.mp hi
      have hlt : i < m.store.size := (Array.getElem?_eq_some_iff.mp hd).1
      simp [Array.getElem?_push, Nat.ne_of_lt hlt]

/-- One class edge more is one piece of evidence more, if it joins two modules. -/
theorem Evident.addEvidence {done : List ClassEdge} (h : m.Evident g done) (e : ClassEdge) :
    (addEvidence g m e).Evident g (done ++ [e]) := by
  unfold ModuleGraph.addEvidence
  by_cases hsame : g.moduleOf e.source = g.moduleOf e.target
  · -- such an edge is evidence between different modules nowhere
    simp only [hsame, beq_self_eq_true, if_true]
    refine ⟨h.indexed, fun source target => ?_⟩
    rw [h.edge?_eq, evidenceBetween_append]
    by_cases hends : source = target
    · simp [hends]
    · have hother : (source, target) ≠ (g.moduleOf e.source, g.moduleOf e.target) := by
        intro heq
        obtain ⟨rfl, rfl⟩ := Prod.mk.inj heq
        exact hends hsame
      simp [hother]
  · have hbeq : (g.moduleOf e.source == g.moduleOf e.target) = false := by simpa using hsame
    simp only [hbeq, Bool.false_eq_true, if_false]
    have hkey := h.edge?_eq (g.moduleOf e.source) (g.moduleOf e.target)
    cases hplace : m.index.find? (g.moduleOf e.source, g.moduleOf e.target) with
    | some place =>
      refine ⟨h.indexed.support place _, fun source target => ?_⟩
      rw [h.indexed.edge?_support hplace, evidenceBetween_append]
      by_cases hends : (source, target) = (g.moduleOf e.source, g.moduleOf e.target)
      · obtain ⟨rfl, rfl⟩ := Prod.mk.inj hends
        obtain ⟨d, hd, hdends⟩ := h.indexed.index_iff.mp hplace
        have hfound := h.indexed.edge?_eq_some_iff.mpr ⟨Array.mem_of_getElem? hd, hdends⟩
        rw [hfound] at hkey
        split at hkey
        · contradiction
        · rw [hfound, Option.some.inj hkey]
          simp [hsame]
      · rw [h.edge?_eq]
        simp only [if_neg hends, List.append_nil]
        split <;> rfl
    | none =>
      have hempty : evidenceBetween g done (g.moduleOf e.source) (g.moduleOf e.target) = [] := by
        by_contra hsome
        simp [edge?, hplace, hsame, hsome] at hkey
      refine ⟨h.indexed.connect hplace, fun source target => ?_⟩
      rw [h.indexed.edge?_connect, evidenceBetween_append]
      by_cases hends : (source, target) = (g.moduleOf e.source, g.moduleOf e.target)
      · obtain ⟨rfl, rfl⟩ := Prod.mk.inj hends
        simp [ModuleEdge.ends, hempty, hsame]
      · rw [h.edge?_eq]
        simp [ModuleEdge.ends, hends]

/-- The edges stay those with evidence when class edges are looked at one after the other. -/
theorem Evident.foldl {done : List ClassEdge} (h : m.Evident g done) (edges : List ClassEdge) :
    (edges.foldl (ModuleGraph.addEvidence g) m).Evident g (done ++ edges) := by
  induction edges generalizing m done with
  | nil => simpa using h
  | cons e rest ih => simpa using ih (h.addEvidence e)

/-- The state of the projection before its lists are sorted. -/
def gathered (g : ClassGraph) : ModuleGraph :=
  g.edgeList.foldl (ModuleGraph.addEvidence g) (blank g.modules)

/-- Before the lists are sorted, the edges are those with evidence among all class edges. -/
theorem gathered_evident (g : ClassGraph) : (gathered g).Evident g g.edgeList := by
  have hfold := (blank_evident g g.modules).foldl g.edgeList
  rwa [List.nil_append] at hfold

/-- The projection has the edges with evidence among all class edges. The graph need not be well-formed. -/
theorem project_evident (g : ClassGraph) : (project g).Evident g g.edgeList :=
  ⟨(gathered_evident g).indexed.sorted, (gathered_evident g).edge?_eq⟩

/-- A pair of classes is evidence between two modules if a class edge goes from the one class to the other
and the classes are in these modules. -/
theorem mem_evidenceBetween_iff {edges : List ClassEdge} {source target : Text} {p : ClassPair} :
    p ∈ evidenceBetween g edges source target ↔ ∃ c ∈ edges, c.ends = (p.source, p.target) ∧
      g.moduleOf c.source = source ∧ g.moduleOf c.target = target := by
  simp only [evidenceBetween, List.mem_map, List.mem_filter, Bool.and_eq_true, beq_iff_eq]
  constructor
  · rintro ⟨c, ⟨hc, hmodules⟩, rfl⟩
    exact ⟨c, hc, rfl, hmodules⟩
  · rintro ⟨c, hc, hends, hmodules⟩
    obtain ⟨hsource, htarget⟩ := Prod.mk.inj hends
    exact ⟨c, ⟨hc, hmodules⟩, by rw [hsource, htarget]⟩

/-- A look-up in the projection finds exactly the edges that it lists. -/
theorem edge?_project_eq_some_iff {source target : Text} {e : ModuleEdge} :
    (project g).edge? source target = some e ↔ e ∈ (project g).edges ∧ e.ends = (source, target) := by
  have hindexed := (project_evident g).indexed
  rw [hindexed.edge?_eq_some_iff, edges, hindexed.order.mem_edgesAt_iff]
  simp

/-- The edges of the projection are those between different modules that have evidence, and they have all
of it. -/
theorem mem_edges_project_iff {e : ModuleEdge} :
    e ∈ (project g).edges ↔ e.source ≠ e.target ∧ e.evidence ≠ [] ∧
      e.evidence = evidenceBetween g g.edgeList e.source e.target := by
  have hmem : e ∈ (project g).edges ↔ (project g).edge? e.source e.target = some e := by
    rw [edge?_project_eq_some_iff]
    simp [ModuleEdge.ends]
  rw [hmem, (project_evident g).edge?_eq]
  constructor
  · intro hfound
    split at hfound
    · contradiction
    · next hnot =>
      have heq : evidenceBetween g g.edgeList e.source e.target = e.evidence :=
        congrArg ModuleEdge.evidence (Option.some.inj hfound)
      rw [not_or, heq] at hnot
      exact ⟨hnot.1, hnot.2, heq.symm⟩
  · rintro ⟨hne, hsome, heq⟩
    rw [heq] at hsome
    rw [if_neg (not_or.mpr ⟨hne, hsome⟩), ← heq]

/-- The edges of the projection are in the order of their ends, without repetition. -/
theorem increasingBy_edges_project (g : ClassGraph) :
    IncreasingBy ModuleEdge.ends (project g).edges :=
  (gathered_evident g).indexed.increasingBy_edgesAt (gathered_evident g).indexed.order

/-- The edges listed at a module as leaving it are those of the projection that start there. -/
theorem mem_edgesFrom_project_iff {name : Text} {e : ModuleEdge} :
    e ∈ (project g).edgesFrom name ↔ e ∈ (project g).edges ∧ e.source = name := by
  have hindexed := (project_evident g).indexed
  refine (hindexed.outgoing name).mem_edgesAt_iff.trans ?_
  rw [edges, hindexed.order.mem_edgesAt_iff]
  simp [ModuleEdge.ends]

/-- The edges listed at a module as entering it are those of the projection that end there. -/
theorem mem_edgesTo_project_iff {name : Text} {e : ModuleEdge} :
    e ∈ (project g).edgesTo name ↔ e ∈ (project g).edges ∧ e.target = name := by
  have hindexed := (project_evident g).indexed
  refine (hindexed.incoming name).mem_edgesAt_iff.trans ?_
  rw [edges, hindexed.order.mem_edgesAt_iff]
  simp [ModuleEdge.ends]

/-- The edges that leave a module are in order, without repetition. -/
theorem increasingBy_edgesFrom (g : ClassGraph) (name : Text) :
    IncreasingBy ModuleEdge.ends ((project g).edgesFrom name) := by
  have hindexed := (gathered_evident g).indexed
  have hends := hindexed.increasingBy_edgesAt (hindexed.outgoing name)
  rwa [← placesAt_map_sortBy] at hends

/-- The edges that enter a module are in order, without repetition. -/
theorem increasingBy_edgesTo (g : ClassGraph) (name : Text) :
    IncreasingBy ModuleEdge.ends ((project g).edgesTo name) := by
  have hindexed := (gathered_evident g).indexed
  have hends := hindexed.increasingBy_edgesAt (hindexed.incoming name)
  rwa [← placesAt_map_sortBy] at hends

/-- The edges at a module have it as one end, so they stand in the order of the other end. -/
theorem increasingBy_target_edgesFrom (g : ClassGraph) (name : Text) :
    IncreasingBy (·.target) ((project g).edgesFrom name) := by
  apply IncreasingBy.of_same_fst (increasingBy_edgesFrom g name)
  intro e he
  exact (mem_edgesFrom_project_iff.mp he).2

/-- Since edges that enter a module have one end in common, they are in the order of the other one. -/
theorem increasingBy_source_edgesTo (g : ClassGraph) (name : Text) :
    IncreasingBy (·.source) ((project g).edgesTo name) := by
  apply IncreasingBy.of_same_snd (increasingBy_edgesTo g name)
  intro e he
  exact (mem_edgesTo_project_iff.mp he).2

/-- A module depends on those to which an edge of the projection leads from it. -/
theorem mem_dependencies_project_iff {name target : Text} :
    target ∈ (project g).dependencies name ↔ ∃ e ∈ (project g).edges, e.ends = (name, target) := by
  unfold dependencies
  rw [List.mem_map]
  constructor
  · rintro ⟨e, he, htarget⟩
    obtain ⟨hedge, hsource⟩ := mem_edgesFrom_project_iff.mp he
    exact ⟨e, hedge, Prod.ext hsource htarget⟩
  · rintro ⟨e, he, hends⟩
    obtain ⟨hsource, htarget⟩ := Prod.mk.inj hends
    exact ⟨e, mem_edgesFrom_project_iff.mpr ⟨he, hsource⟩, htarget⟩

/-- A module has those as dependents from which an edge of the projection leads to it. -/
theorem mem_dependents_project_iff {name source : Text} :
    source ∈ (project g).dependents name ↔ ∃ e ∈ (project g).edges, e.ends = (source, name) := by
  unfold dependents
  rw [List.mem_map]
  constructor
  · rintro ⟨e, he, hsource⟩
    obtain ⟨hedge, htarget⟩ := mem_edgesTo_project_iff.mp he
    exact ⟨e, hedge, Prod.ext hsource htarget⟩
  · rintro ⟨e, he, hends⟩
    obtain ⟨hsource, htarget⟩ := Prod.mk.inj hends
    exact ⟨e, mem_edgesTo_project_iff.mpr ⟨he, htarget⟩, hsource⟩

end ModuleGraph

/-- A class edge goes from a class of one module to a class of another one. -/
def ClassGraph.Joins (g : ClassGraph) (c : ClassEdge) (source target : Text) : Prop :=
  (∃ n, g.node? c.source = some n ∧ n.unit.module = source) ∧
    ∃ n, g.node? c.target = some n ∧ n.unit.module = target

/-- In a well-formed graph both ends of an edge are classes, so the edge joins the modules that they are
found in. -/
theorem ClassGraph.WellFormed.joins_iff {g : ClassGraph} (h : g.WellFormed) {c : ClassEdge}
    (hc : c ∈ g.edges) {source target : Text} :
    g.Joins c source target ↔ g.moduleOf c.source = source ∧ g.moduleOf c.target = target := by
  obtain ⟨⟨n, hn⟩, k, hk⟩ := h.node_of_mem hc
  simp [Joins, moduleOf, hn, hk]

/-- The two classes of a piece of evidence. -/
def ClassPair.ends (p : ClassPair) : Text × Text := (p.source, p.target)

namespace ModuleGraph

variable {g : ClassGraph}

/-- All evidence together is the class edges between different modules, each once. -/
theorem flatMap_evidence_perm (hg : g.WellFormed) :
    ((project g).edges.flatMap (·.evidence)).Perm
      ((g.edgeList.filter fun c => g.moduleOf c.source != g.moduleOf c.target).map
        fun c => ⟨c.source, c.target⟩) := by
  have hpairs : ∀ edges : List ClassEdge, (edges.map ClassEdge.ends).Nodup →
      (edges.map fun c => (⟨c.source, c.target⟩ : ClassPair)).Nodup := by
    intro edges hends
    refine List.Nodup.of_map ClassPair.ends ?_
    rw [List.map_map]
    exact hends
  have hnodup : ∀ p : ClassEdge → Bool, ((g.edgeList.filter p).map ClassEdge.ends).Nodup :=
    fun p => (hg.increasingBy_edgeList.filter p).nodup_map
  rw [List.perm_ext_iff_of_nodup ?_ (hpairs _ (hnodup _))]
  · intro p
    simp only [List.mem_flatMap, List.mem_map, List.mem_filter, bne_iff_ne, ne_eq]
    constructor
    · rintro ⟨e, he, hp⟩
      obtain ⟨hne, -, heq⟩ := mem_edges_project_iff.mp he
      rw [heq, mem_evidenceBetween_iff] at hp
      obtain ⟨c, hc, hends, hsource, htarget⟩ := hp
      obtain ⟨hps, hpt⟩ := Prod.mk.inj hends
      exact ⟨c, ⟨hc, by rwa [hsource, htarget]⟩, by rw [hps, hpt]⟩
    · rintro ⟨c, ⟨hc, hne⟩, rfl⟩
      have hmem : (⟨c.source, c.target⟩ : ClassPair) ∈
          evidenceBetween g g.edgeList (g.moduleOf c.source) (g.moduleOf c.target) :=
        mem_evidenceBetween_iff.mpr ⟨c, hc, rfl, rfl, rfl⟩
      exact ⟨⟨_, _, _⟩, mem_edges_project_iff.mpr ⟨hne, List.ne_nil_of_mem hmem, rfl⟩, hmem⟩
  · rw [List.nodup_flatMap]
    constructor
    · intro e he
      rw [(mem_edges_project_iff.mp he).2.2]
      exact hpairs _ (hnodup _)
    · -- the modules of a piece of evidence are those of the edge
      refine List.Pairwise.imp_of_mem ?_ (increasingBy_edges_project g)
      intro d e hd he hbefore p (hpd : p ∈ d.evidence) (hpe : p ∈ e.evidence)
      rw [(mem_edges_project_iff.mp hd).2.2, mem_evidenceBetween_iff] at hpd
      rw [(mem_edges_project_iff.mp he).2.2, mem_evidenceBetween_iff] at hpe
      obtain ⟨b, -, hb, hbs, hbt⟩ := hpd
      obtain ⟨c, -, hc, hcs, hct⟩ := hpe
      obtain ⟨hsource, htarget⟩ := Prod.mk.inj (hb.trans hc.symm)
      rw [hsource, hcs] at hbs
      rw [htarget, hct] at hbt
      exact KeyOrder.ne_of_before hbefore (Prod.ext hbs.symm hbt.symm)

/-- Every class edge is evidence for one edge of the projection or stays inside of a module; none is
counted twice. -/
theorem sum_evidence_length (hg : g.WellFormed) :
    ((project g).edges.map (·.evidence.length)).sum +
      (g.edgeList.filter fun c => g.moduleOf c.source == g.moduleOf c.target).length =
        g.edgeCount := by
  have hlength := (flatMap_evidence_perm hg).length_eq
  rw [List.length_flatMap, List.length_map] at hlength
  have hsplit := List.length_eq_length_filter_add (l := g.edgeList)
    fun c => g.moduleOf c.source == g.moduleOf c.target
  rw [ClassGraph.length_edgeList] at hsplit
  rw [hlength, hsplit, Nat.add_comm]
  rfl

/-- Two different modules have an edge exactly if a class edge joins them. -/
theorem exists_joins_iff (hg : g.WellFormed) (source target : Text) :
    (∃ e ∈ (project g).edges, e.ends = (source, target)) ↔
      source ≠ target ∧ ∃ c ∈ g.edges, g.Joins c source target := by
  constructor
  · rintro ⟨e, he, hends⟩
    obtain ⟨rfl, rfl⟩ := Prod.mk.inj hends
    obtain ⟨hne, hsome, heq⟩ := mem_edges_project_iff.mp he
    obtain ⟨p, hp⟩ := List.exists_mem_of_ne_nil _ hsome
    rw [heq, mem_evidenceBetween_iff] at hp
    obtain ⟨c, hc, -, hmodules⟩ := hp
    have hmem := ClassGraph.mem_edgeList.mp hc
    exact ⟨hne, c, hmem, (hg.joins_iff hmem).mpr hmodules⟩
  · rintro ⟨hne, c, hc, hjoins⟩
    have hmem : (⟨c.source, c.target⟩ : ClassPair) ∈ evidenceBetween g g.edgeList source target :=
      mem_evidenceBetween_iff.mpr
        ⟨c, ClassGraph.mem_edgeList.mpr hc, rfl, (hg.joins_iff hc).mp hjoins⟩
    exact ⟨⟨source, target, _⟩,
      mem_edges_project_iff.mpr ⟨hne, List.ne_nil_of_mem hmem, rfl⟩, rfl⟩

/-- In a well-formed graph all evidence between two modules is in order, without repetition. -/
theorem increasingBy_evidenceBetween (hg : g.WellFormed) (source target : Text) :
    IncreasingBy ClassPair.ends (evidenceBetween g g.edgeList source target) :=
  IncreasingBy.map (hg.increasingBy_edgeList.filter _)

/-- A class edge tells the module edge that it is evidence of. -/
theorem existsUnique_evidence (hg : g.WellFormed) {c : ClassEdge} (hc : c ∈ g.edges)
    {source target : Text} (hjoins : g.Joins c source target) (hne : source ≠ target) :
    ∃! e, e ∈ (project g).edges ∧ (⟨c.source, c.target⟩ : ClassPair) ∈ e.evidence := by
  have hmodules := (hg.joins_iff hc).mp hjoins
  have hmem : (⟨c.source, c.target⟩ : ClassPair) ∈ evidenceBetween g g.edgeList source target :=
    mem_evidenceBetween_iff.mpr ⟨c, ClassGraph.mem_edgeList.mpr hc, rfl, hmodules⟩
  refine ⟨⟨source, target, evidenceBetween g g.edgeList source target⟩,
    ⟨mem_edges_project_iff.mpr ⟨hne, List.ne_nil_of_mem hmem, rfl⟩, hmem⟩, ?_⟩
  rintro e ⟨he, hce⟩
  obtain ⟨-, -, heq⟩ := mem_edges_project_iff.mp he
  rw [heq, mem_evidenceBetween_iff] at hce
  obtain ⟨d, -, hends, hds, hdt⟩ := hce
  obtain ⟨hsource, htarget⟩ := Prod.mk.inj hends
  rw [hsource, hmodules.1] at hds
  rw [htarget, hmodules.2] at hdt
  subst hds hdt
  cases e
  simp_all

/-- The projection has the modules of the graph, whether they have edges or not. -/
theorem modules_project (g : ClassGraph) : (project g).modules = g.modules := by
  have hstep : ∀ (m : ModuleGraph) (c : ClassEdge), (addEvidence g m c).modules = m.modules := by
    intro m c
    unfold addEvidence
    dsimp only
    split
    · rfl
    · split <;> rfl
  have hfold : ∀ (edges : List ClassEdge) (m : ModuleGraph),
      (edges.foldl (addEvidence g) m).modules = m.modules := by
    intro edges
    induction edges with
    | nil => exact fun _ => rfl
    | cons c rest ih => exact fun m => (ih _).trans (hstep m c)
  exact hfold g.edgeList (blank g.modules)

/-- The module graph shows exactly the class edges between different modules of a class graph. -/
structure Projects (m : ModuleGraph) (g : ClassGraph) : Prop where
  /-- A module depends on another one if a class of it depends on a class of the other. -/
  edge_iff : ∀ source target, (∃ e ∈ m.edges, e.ends = (source, target)) ↔
    source ≠ target ∧ ∃ c ∈ g.edges, g.Joins c source target
  /-- The evidence of an edge is the class edges between its modules, in order. -/
  evidence : ∀ {e}, e ∈ m.edges →
    (∀ p, p ∈ e.evidence ↔ ∃ c ∈ g.edges, c.ends = p.ends ∧ g.Joins c e.source e.target) ∧
      IncreasingBy ClassPair.ends e.evidence
  /-- A class edge between different modules is evidence of one edge only. -/
  unique : ∀ {c source target}, c ∈ g.edges → g.Joins c source target → source ≠ target →
    ∃! e, e ∈ m.edges ∧ (⟨c.source, c.target⟩ : ClassPair) ∈ e.evidence
  /-- Every class edge is evidence or stays inside a module. -/
  total : (m.edges.map (·.evidence.length)).sum +
    (g.edgeList.filter fun c => g.moduleOf c.source == g.moduleOf c.target).length = g.edgeCount
  sorted : IncreasingBy ModuleEdge.ends m.edges
  count : m.edgeCount = m.edges.length
  found : ∀ {source target e}, m.edge? source target = some e ↔
    e ∈ m.edges ∧ e.ends = (source, target)
  edgesFrom : ∀ name, m.edgesFrom name = m.edges.filter (·.source == name) ∧
    IncreasingBy (·.target) (m.edgesFrom name)
  edgesTo : ∀ name, m.edgesTo name = m.edges.filter (·.target == name) ∧
    IncreasingBy (·.source) (m.edgesTo name)
  dependencies : ∀ name,
    (∀ target, target ∈ m.dependencies name ↔ ∃ e ∈ m.edges, e.ends = (name, target)) ∧
      IncreasingBy id (m.dependencies name)
  dependents : ∀ name,
    (∀ source, source ∈ m.dependents name ↔ ∃ e ∈ m.edges, e.ends = (source, name)) ∧
      IncreasingBy id (m.dependents name)
  modules : m.modules = g.modules ∧ IncreasingBy id m.modules ∧
    ∀ name, m.hasModule name = true ↔ name ∈ m.modules
  /-- The ends of an edge are known as modules unless a class has a module without a name. -/
  known : (∀ {name n}, g.node? name = some n → n.unit.module ≠ []) →
    ∀ {e}, e ∈ m.edges → e.source ∈ m.modules ∧ e.target ∈ m.modules

/-- Modules that a class edge joins are modules of the graph, as long as no class is in a module without a
name. -/
theorem mem_modules_of_joins {c : ClassEdge} {source target : Text}
    (hnamed : ∀ {name n}, g.node? name = some n → n.unit.module ≠ [])
    (hjoins : g.Joins c source target) : source ∈ g.modules ∧ target ∈ g.modules := by
  have hmem : ∀ {name module}, (∃ n, g.node? name = some n ∧ n.unit.module = module) →
      module ∈ g.modules := by
    rintro name module ⟨n, hn, rfl⟩
    apply ClassGraph.mem_modules_iff.mpr
    exact Or.inr ⟨hnamed hn, name, n.unit, ClassGraph.units_of_node? hn, rfl⟩
  exact ⟨hmem hjoins.1, hmem hjoins.2⟩

/-- The module graph of any class graph that calls have built up is its exact projection, in each
of the forms in which it can be asked for. -/
theorem project_exact (hg : g.Reachable) : (project g).Projects g := by
  have h := hg.wellFormed
  have hsorted : IncreasingBy id (project g).modules := by
    rw [modules_project]
    exact SortedMap.increasingBy_keys _
  constructor
  case edge_iff => exact exists_joins_iff h
  case evidence =>
    intro e he
    rw [(mem_edges_project_iff.mp he).2.2]
    refine ⟨fun p => ?_, increasingBy_evidenceBetween h _ _⟩
    rw [mem_evidenceBetween_iff]
    constructor
    · rintro ⟨c, hc, hends, hmodules⟩
      have hmem := ClassGraph.mem_edgeList.mp hc
      exact ⟨c, hmem, hends, (h.joins_iff hmem).mpr hmodules⟩
    · rintro ⟨c, hc, hends, hjoins⟩
      exact ⟨c, ClassGraph.mem_edgeList.mpr hc, hends, (h.joins_iff hc).mp hjoins⟩
  case unique => exact fun hc hjoins hne => existsUnique_evidence h hc hjoins hne
  case total => exact sum_evidence_length h
  case sorted => exact increasingBy_edges_project g
  case count => exact (project_evident g).indexed.order.length_edgesAt.symm
  case found => exact edge?_project_eq_some_iff
  case edgesFrom =>
    intro name
    refine ⟨?_, increasingBy_target_edgesFrom g name⟩
    apply (increasingBy_edgesFrom g name).eq_of_mem_iff ((increasingBy_edges_project g).filter _)
    intro e
    rw [mem_edgesFrom_project_iff, List.mem_filter, beq_iff_eq]
  case edgesTo =>
    intro name
    refine ⟨?_, increasingBy_source_edgesTo g name⟩
    apply (increasingBy_edgesTo g name).eq_of_mem_iff ((increasingBy_edges_project g).filter _)
    intro e
    rw [mem_edgesTo_project_iff, List.mem_filter, beq_iff_eq]
  case dependencies =>
    intro name
    exact ⟨fun _ => mem_dependencies_project_iff,
      IncreasingBy.map (increasingBy_target_edgesFrom g name)⟩
  case dependents =>
    intro name
    exact ⟨fun _ => mem_dependents_project_iff,
      IncreasingBy.map (increasingBy_source_edgesTo g name)⟩
  case modules => exact ⟨modules_project g, hsorted, fun _ => hasSorted_iff hsorted⟩
  case known =>
    intro hnamed e he
    obtain ⟨-, c, -, hjoins⟩ := (exists_joins_iff h e.source e.target).mp ⟨e, he, rfl⟩
    rw [modules_project]
    exact mem_modules_of_joins hnamed hjoins

/-- Two modules that depend on each other, one of them for two reasons that were given in the
wrong order, and a class edge inside a module. -/
def mutualModules : ClassGraph :=
  (ClassGraph.new "/p" ⟨9, 9⟩).runCalls [
    .addNode ⟨"a.A", "a", "/p/m/A", "m"⟩, .addNode ⟨"a.B", "a", "/p/m/B", "m"⟩,
    .addNode ⟨"k.C", "k", "/p/k/C", "k"⟩, .addModule "z",
    .addEdge "a.B" "k.C" ⟨1⟩, .addEdge "a.A" "k.C" ⟨2⟩, .addEdge "a.A" "a.B" ⟨1⟩,
    .addEdge "k.C" "a.B" ⟨1⟩]

/-- Two modules may depend on each other: both edges are shown. -/
theorem project_exact_mutual : mutualModules.Reachable ∧
    (project mutualModules).Projects mutualModules ∧
    ∃ e ∈ (project mutualModules).edges, e.ends = (Text.ofString "m", Text.ofString "k") := by
  have hreach : mutualModules.Reachable := ⟨_, _, _, rfl⟩
  have hexact := project_exact hreach
  have hedge : (⟨"a.A", "k.C", ⟨2⟩⟩ : ClassEdge) ∈ mutualModules.edges := by decide +kernel
  have hmodules : mutualModules.moduleOf "a.A" = "m" ∧ mutualModules.moduleOf "k.C" = "k" := by
    decide
  refine ⟨hreach, hexact, (hexact.edge_iff "m" "k").mpr ⟨by decide, _, hedge, ?_⟩⟩
  exact (hreach.wellFormed.joins_iff hedge).mpr hmodules

end ModuleGraph

end ClassAtlas
