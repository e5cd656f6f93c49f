import ClassAtlas.Proofs.Graph.Projection
import ClassAtlas.Proofs.Impact.Search

namespace ClassAtlas

/-- A route of a number of module edges. -/
inductive ModuleGraph.Route (m : ModuleGraph) : Nat → Text → Text → Prop
  | here {a : Text} : Route m 0 a a
  | edge {n : Nat} {e : ModuleEdge} {b : Text} (he : e ∈ m.edges) (hrest : Route m n e.target b) :
      Route m (n + 1) e.source b

/-- The number of edges in the shortest routes from a module to one of the given modules. -/
def ModuleGraph.Remote (m : ModuleGraph) (seeds : List Text) (name : Text) (d : Nat) : Prop :=
  IsLeast {n | ∃ s ∈ seeds, m.Route n name s} d

namespace Impact

open ModuleGraph

variable {g : ClassGraph} {seeds : List Text}

/-- A way down to a seed is a route of module edges to it. -/
theorem way_iff_route {n : Nat} {name : Text} :
    Reverse.Way (project g).dependents seeds n name ↔ ∃ s ∈ seeds, (project g).Route n name s := by
  constructor
  · intro hway
    induction hway with
    | seed hs => exact ⟨_, hs, .here⟩
    | step _ hb ih =>
      obtain ⟨s, hs, hroute⟩ := ih
      obtain ⟨e, he, hends⟩ := mem_dependents_project_iff.mp hb
      obtain ⟨rfl, rfl⟩ := Prod.mk.inj hends
      exact ⟨s, hs, .edge he hroute⟩
  · rintro ⟨s, hs, hroute⟩
    induction hroute with
    | here => exact .seed hs
    | @edge n e b he _ ih =>
      exact .step (ih hs) (mem_dependents_project_iff.mpr ⟨e, he, rfl⟩)

/-- The distance of a module is the length of its shortest routes. -/
theorem distance_iff_remote {name : Text} {d : Nat} :
    Reverse.Distance (project g).dependents seeds name d ↔ (project g).Remote seeds name d := by
  unfold Reverse.Distance Remote
  simp only [way_iff_route]

/-- All dependents are sources of module edges. -/
theorem mem_sources_of_mem_dependents (name : Text) :
    ∀ b ∈ (project g).dependents name, b ∈ (project g).edges.map (·.source) := by
  intro b hb
  obtain ⟨e, he, hends⟩ := mem_dependents_project_iff.mp hb
  exact List.mem_map.mpr ⟨e, he, (Prod.mk.inj hends).1⟩

/-- No dependent is listed twice. -/
theorem nodup_dependents (name : Text) : ((project g).dependents name).Nodup :=
  (increasingBy_source_edgesTo g name).nodup_map

/-- The list holds the modules from which changed modules can be reached within the limit. -/
structure ReverseClosure (m : ModuleGraph) (limit : Nat) (seeds : List Text)
    (found : List ImpactedModule) : Prop where
  listed : ∀ name, (∃ i ∈ found, i.module = name) ↔
    name ∉ seeds ∧ ∃ d, m.Remote seeds name d ∧ (limit = 0 ∨ d ≤ limit)
  once : (found.map (·.module)).Nodup
  /-- A module goes through one that is a step nearer to a changed module. -/
  entry : ∀ i ∈ found, ∃ d : Nat, i.distance = d + 1 ∧ m.Remote seeds i.module (d + 1) ∧
    m.Remote seeds i.through d ∧ (d = 0 → i.through ∈ seeds) ∧
    ∃ e ∈ m.edges, e.ends = (i.module, i.through) ∧ i.evidence = e.evidence
  sorted : found.Pairwise fun i j => i.distance < j.distance ∨
    (i.distance = j.distance ∧ KeyOrder.before i.module j.module = true)

/-- The order of the search results: by distance, then by name. -/
theorem before_distance_name {r s : Reverse.Reached}
    (h : KeyOrder.before (r.distance, r.name) (s.distance, s.name) = true) :
    r.distance < s.distance ∨ (r.distance = s.distance ∧ KeyOrder.before r.name s.name = true) := by
  by_cases hsame : r.distance = s.distance
  · rw [hsame, KeyOrder.before_same_fst] at h
    exact Or.inr ⟨hsame, h⟩
  · simp only [KeyOrder.before, Bool.or_eq_true, Bool.and_eq_true, decide_eq_true_eq,
      Bool.not_eq_true', decide_eq_false_iff_not] at h
    omega

/-- The impacted modules of changed ones are exactly those from which a changed module can be
reached, at the distance of the nearest one, whatever cycles the module graph has. -/
theorem impactedModules_exact (g : ClassGraph) (limit : Nat) (seeds : List Text) :
    ReverseClosure (project g) limit seeds (impactedModules (project g) limit seeds) := by
  let reached := Reverse.closure ((project g).edges.map (·.source)) (project g).dependents limit seeds
  have hnames := mem_sources_of_mem_dependents (g := g)
  have hnodup : (reached.map (·.name)).Nodup := Reverse.nodup_closure hnames nodup_dependents
  constructor
  case listed =>
    intro name
    simp only [← distance_iff_remote]
    rw [← Reverse.mem_closure_iff hnames]
    simp only [impactedModules, List.mem_map, mem_sortBy]
    constructor
    · rintro ⟨i, ⟨r, hr, rfl⟩, rfl⟩
      exact ⟨r, hr, rfl⟩
    · rintro ⟨r, hr, rfl⟩
      exact ⟨_, ⟨r, hr, rfl⟩, rfl⟩
  case once =>
    have hperm := (sortBy_perm (fun r : Reverse.Reached => (r.distance, r.name)) reached).map
      (·.name)
    simp only [impactedModules, List.map_map]
    exact hperm.nodup_iff.mpr hnodup
  case entry =>
    intro i hi
    obtain ⟨r, hr, rfl⟩ := List.mem_map.mp hi
    have hnearest := Reverse.nearest_of_mem_closure hnames (mem_sortBy.mp hr)
    obtain ⟨d, hd, hthrough⟩ := hnearest.through
    obtain ⟨e, he, hends⟩ := mem_dependents_project_iff.mp hnearest.above_through
    have hleast := hnearest.least
    rw [hd] at hleast
    refine ⟨d, by simp [hd], distance_iff_remote.mp hleast, distance_iff_remote.mp hthrough, ?_,
      e, he, hends, ?_⟩
    · rintro rfl
      exact hthrough.mem_seeds
    · rw [edge?_project_eq_some_iff.mpr ⟨he, hends⟩]
      rfl
  case sorted =>
    have hkeys : (reached.map fun r => (r.distance, r.name)).Nodup := by
      refine List.Nodup.of_map Prod.snd ?_
      rwa [List.map_map]
    refine List.pairwise_map.mpr ((increasingBy_sortBy hkeys).imp ?_)
    intro r s hbefore
    rcases before_distance_name hbefore with hless | ⟨hsame, hname⟩
    · exact Or.inl (Int.ofNat_lt.mpr hless)
    · exact Or.inr ⟨congrArg Int.ofNat hsame, hname⟩

end Impact

end ClassAtlas
