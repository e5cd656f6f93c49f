import ClassAtlas.Proofs.Collection.SortedMap
import ClassAtlas.Trace.Match
import Mathlib.Data.List.Perm.Basic

namespace ClassAtlas.MatchLog

variable {g : Grouping} {ms : List TraceMatch} {m : TraceMatch}

/-- The modules of the groups, in their order. -/
def Grouping.modules (g : Grouping) : List Text := g.groups.map (·.module)

/-- The groups hold the matches, each group those of its module in their order, and the index knows the places of
the groups. -/
structure Grouping.Holds (g : Grouping) (ms : List TraceMatch) : Prop where
  index_iff : ∀ module i, g.index.find? module = some i ↔ g.modules[i]? = some module
  found : ∀ group ∈ g.groups, group.found = ms.filter (·.module == group.module)
  nonempty : ∀ group ∈ g.groups, group.found ≠ []
  perm : (g.groups.flatMap (·.found)).Perm ms

namespace Grouping.Holds

/-- No groups hold no matches. -/
theorem empty : Grouping.empty.Holds [] where
  index_iff := by simp [Grouping.empty, Grouping.modules]
  found := by simp [Grouping.empty]
  nonempty := by simp [Grouping.empty]
  perm := .refl _

/-- Two groups of one module would have one place. -/
theorem nodup (h : g.Holds ms) : g.modules.Nodup := by
  rw [List.nodup_iff_getElem?_ne_getElem?]
  intro i j hij hj hsame
  have hi : g.modules[i]? = some (g.modules.get ⟨j, hj⟩) := by
    rw [hsame]
    exact List.getElem?_eq_getElem hj
  have hfind := (h.index_iff _ i).mpr hi
  rw [(h.index_iff _ j).mpr (hsame ▸ hi)] at hfind
  have := Option.some.inj hfind
  omega

/-- A match goes into the group of its module, which is then the only one, or into a new one. -/
theorem add_cases (h : g.Holds ms) (m : TraceMatch) :
    (∃ before group after, g.groups = before ++ group :: after ∧ group.module = m.module ∧
      g.add m = ⟨before ++ { group with found := group.found ++ [m] } :: after, g.index⟩) ∨
    (m.module ∉ g.modules ∧
      g.add m = ⟨g.groups ++ [⟨m.module, [m]⟩], g.index.insert m.module g.groups.length⟩) := by
  unfold Grouping.add
  cases hfind : g.index.find? m.module with
  | some i =>
    have hplace := (h.index_iff _ i).mp hfind
    obtain ⟨hi, hmodule⟩ := List.getElem?_eq_some_iff.mp hplace
    rw [Grouping.modules, List.length_map] at hi
    obtain ⟨before, group, after, hsplit, hlength, hmodify⟩ := List.exists_of_modify
      (fun group : ModuleGroup => { group with found := group.found ++ [m] }) hi
    refine .inl ⟨before, group, after, hsplit, ?_, by rw [← hmodify]⟩
    simpa [Grouping.modules, hsplit, ← hlength] using hplace
  | none =>
    refine .inr ⟨fun hmem => ?_, rfl⟩
    obtain ⟨i, hi⟩ := List.mem_iff_getElem?.mp hmem
    rw [(h.index_iff _ i).mpr hi] at hfind
    contradiction

/-- Every match is in the group of its module. -/
theorem module_mem (h : g.Holds ms) (hm : m ∈ ms) : m.module ∈ g.modules := by
  obtain ⟨group, hgroup, hfound⟩ := List.mem_flatMap.mp (h.perm.mem_iff.mpr hm)
  rw [h.found group hgroup, List.mem_filter, beq_iff_eq] at hfound
  rw [hfound.2]
  exact List.mem_map_of_mem hgroup

/-- After a match was added, a group is an old one of another module, or has the match at its end. -/
theorem mem_add (h : g.Holds ms) {group : ModuleGroup} (hgroup : group ∈ (g.add m).groups) :
    (group ∈ g.groups ∧ m.module ≠ group.module) ∨
      (group.module = m.module ∧ group.found = ms.filter (·.module == m.module) ++ [m]) := by
  rcases h.add_cases m with ⟨before, old, after, hsplit, hmodule, hadd⟩ | ⟨hnew, hadd⟩
  · have hnodup := h.nodup
    rw [Grouping.modules, hsplit, List.map_append, List.map_cons, List.nodup_middle, List.nodup_cons,
      ← List.map_append, hmodule] at hnodup
    rw [hadd, List.mem_append, List.mem_cons, or_left_comm, ← List.mem_append] at hgroup
    rcases hgroup with rfl | hother
    · exact .inr ⟨hmodule, by rw [h.found old (by simp [hsplit]), hmodule]⟩
    · refine .inl ⟨?_, fun heq => hnodup.1 (heq ▸ List.mem_map_of_mem hother)⟩
      rw [hsplit, List.mem_append, List.mem_cons, or_left_comm, ← List.mem_append]
      exact .inr hother
  · rw [hadd, List.mem_append, List.mem_singleton] at hgroup
    rcases hgroup with hold | rfl
    · exact .inl ⟨hold, fun heq => hnew (heq ▸ List.mem_map_of_mem hold)⟩
    · have hnone : ms.filter (·.module == m.module) = [] := by
        refine List.filter_eq_nil_iff.mpr fun m' hm' heq => hnew ?_
        rw [← beq_iff_eq.mp heq]
        exact h.module_mem hm'
      exact .inr ⟨rfl, by rw [hnone, List.nil_append]⟩

/-- The index still knows all places. -/
theorem index_iff_add (h : g.Holds ms) (m : TraceMatch) (module : Text) (i : Nat) :
    (g.add m).index.find? module = some i ↔ (g.add m).modules[i]? = some module := by
  rcases h.add_cases m with ⟨before, old, after, hsplit, hmodule, hadd⟩ | ⟨hnew, hadd⟩
  · have hmodules : (g.add m).modules = g.modules := by simp [Grouping.modules, hadd, hsplit]
    rw [hmodules, hadd]
    exact h.index_iff module i
  · have hmodules : (g.add m).modules = g.modules ++ [m.module] := by simp [Grouping.modules, hadd]
    have hlength : g.groups.length = g.modules.length := (List.length_map ..).symm
    rw [hmodules, hadd, SortedMap.find?_insert, hlength, List.getElem?_append]
    -- only the new place has the new module
    by_cases heq : module = m.module
    · subst heq
      rw [if_pos rfl, Option.some_inj]
      split
      · next hi => exact iff_of_false (Nat.ne_of_gt hi) fun hold => hnew (List.mem_of_getElem? hold)
      · simp only [List.getElem?_singleton, Option.ite_none_right_eq_some, and_true]
        omega
    · rw [if_neg heq, h.index_iff]
      split
      · exact Iff.rfl
      · next hi =>
        rw [List.getElem?_eq_none (Nat.le_of_not_lt hi)]
        simp [List.getElem?_singleton, Ne.symm heq]

/-- One more match is in the groups once, and the others stay. -/
theorem perm_add (h : g.Holds ms) (m : TraceMatch) :
    ((g.add m).groups.flatMap (·.found)).Perm (ms ++ [m]) := by
  rcases h.add_cases m with ⟨before, old, after, hsplit, -, hadd⟩ | ⟨-, hadd⟩
  · have hperm := h.perm
    rw [hsplit, List.flatMap_append, List.flatMap_cons] at hperm
    rw [hadd, List.flatMap_append, List.flatMap_cons, List.append_assoc]
    refine .trans ?_ (hperm.append_right [m])
    rw [List.append_assoc, List.append_assoc]
    exact (List.perm_append_comm.append_left _).append_left _
  · rw [hadd, List.flatMap_append, List.flatMap_singleton]
    exact h.perm.append_right [m]

/-- One more match is held in the group of its module, behind the others. -/
protected theorem add (h : g.Holds ms) (m : TraceMatch) : (g.add m).Holds (ms ++ [m]) where
  index_iff := h.index_iff_add m
  found := by
    intro group hgroup
    rcases h.mem_add hgroup with ⟨hold, hne⟩ | ⟨hmodule, hfound⟩
    · rw [List.filter_append, h.found group hold]
      simp [hne]
    · rw [hfound, List.filter_append, hmodule]
      simp
  nonempty := by
    intro group hgroup
    rcases h.mem_add hgroup with ⟨hold, -⟩ | ⟨-, hfound⟩
    · exact h.nonempty group hold
    · simp [hfound]
  perm := h.perm_add m

/-- Matches that are added one after the other are held as well. -/
theorem foldl_add (h : g.Holds ms) (more : List TraceMatch) : (more.foldl Grouping.add g).Holds (ms ++ more) := by
  induction more generalizing g ms with
  | nil => rwa [List.append_nil]
  | cons m more ih =>
    rw [List.append_cons]
    exact ih (h.add m)

end Grouping.Holds

/-- The groups are the matches by module: the modules in order, in each group the matches of its module by class and
method, and every match once. -/
structure Partitions (groups : List ModuleGroup) (ms : List TraceMatch) : Prop where
  modules : IncreasingBy (·.module) groups
  nonempty : ∀ g ∈ groups, g.found ≠ []
  found : ∀ g ∈ groups, g.found.Perm (ms.filter (·.module == g.module))
  sorted : ∀ g ∈ groups, IncreasingBy TraceMatch.key g.found
  perm : (groups.flatMap (·.found)).Perm ms

/-- Matches in the order of classes and methods are in the order in which they are sorted. -/
theorem before_sortKey_of_key {a b : TraceMatch} (h : KeyOrder.before a.key b.key = true) :
    KeyOrder.before (sortKey a) (sortKey b) = true := by
  simp only [TraceMatch.key, sortKey, KeyOrder.before, Bool.or_eq_true, Bool.and_eq_true] at h ⊢
  exact h.imp_right fun h => ⟨h.1, .inl h.2⟩

/-- Between matches of different methods the line decides nothing. -/
theorem increasingBy_sortBy_sortKey (hkeys : (ms.map TraceMatch.key).Nodup) :
    IncreasingBy TraceMatch.key (sortBy sortKey ms) := by
  have hsortKeys : (ms.map sortKey).Nodup := by
    refine .of_map (fun key => (key.1, key.2.1)) ?_
    rwa [List.map_map]
  have hsorted : ((sortBy sortKey ms).map TraceMatch.key).Nodup := ((sortBy_perm ..).map _).nodup_iff.mpr hkeys
  rw [List.nodup_iff_pairwise_ne, List.pairwise_map] at hsorted
  refine ((increasingBy_sortBy hsortKeys).and hsorted).imp ?_
  rintro a b ⟨hbefore, hne⟩
  refine (KeyOrder.before_or_before hne).resolve_right fun hback => ?_
  have hasymm := KeyOrder.asymm (before_sortKey_of_key hback)
  rw [hbefore] at hasymm
  contradiction

/-- The groups of a log are its matches by module, if no two matches are at one class and method. -/
theorem partitions_groups (log : MatchLog) (hkeys : (log.entries.map TraceMatch.key).Nodup) :
    Partitions log.groups log.entries := by
  have hholds := Grouping.Holds.empty.foldl_add log.entries
  rw [List.nil_append] at hholds
  have hperm := sortBy_perm (·.module) (log.entries.foldl Grouping.add .empty).groups
  have hgroup : ∀ g ∈ log.groups, ∃ old ∈ (log.entries.foldl Grouping.add .empty).groups, sortGroup old = g := by
    intro g hg
    obtain ⟨old, hold, rfl⟩ := List.mem_map.mp hg
    exact ⟨old, hperm.mem_iff.mp hold, rfl⟩
  constructor
  case modules => exact IncreasingBy.map (increasingBy_sortBy hholds.nodup)
  case nonempty =>
    intro g hg
    obtain ⟨old, hold, rfl⟩ := hgroup g hg
    intro hnil
    have hsorted := sortBy_perm sortKey old.found
    rw [show sortBy sortKey old.found = [] from hnil] at hsorted
    exact hholds.nonempty old hold (List.nil_perm.mp hsorted)
  case found =>
    intro g hg
    obtain ⟨old, hold, rfl⟩ := hgroup g hg
    rw [sortGroup, ← hholds.found old hold]
    exact sortBy_perm ..
  case sorted =>
    intro g hg
    obtain ⟨old, hold, rfl⟩ := hgroup g hg
    apply increasingBy_sortBy_sortKey
    rw [hholds.found old hold]
    exact (List.filter_sublist.map _).nodup hkeys
  case perm =>
    have hinner : (log.groups.flatMap (·.found)).Perm
        ((sortBy (·.module) (log.entries.foldl Grouping.add .empty).groups).flatMap (·.found)) := by
      rw [groups, List.flatMap_map]
      exact .flatMap_left _ fun g _ => sortBy_perm sortKey g.found
    exact (hinner.trans (hperm.flatMap_right _)).trans hholds.perm

end ClassAtlas.MatchLog
