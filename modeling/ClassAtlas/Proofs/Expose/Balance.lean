import ClassAtlas.Expose.Report
import ClassAtlas.Proofs.Expose.Relation
import Mathlib.Combinatorics.Enumerative.DoubleCounting
import Mathlib.Data.Set.Card

namespace ClassAtlas.ExposeReport

open CallerIndex

variable {c : Catalog} {d : Disk} {options : ExposeOptions} {cache : TextCache} {exposed : Exposed}
  {index : CallerIndex} {r : ExposeReport} {m m' : Text}

/-- Some entry is linked with the module. -/
def LinkedWith (entries : List ClassEntry) (m : Text) : Prop :=
  ∃ e ∈ entries, ∃ g ∈ e.links, g.module = m

/-- The report shows a caller in the first module that is linked with the second one. -/
def CallsInto (r : ExposeReport) (m m' : Text) : Prop :=
  ∃ report ∈ r.modules, report.module = m ∧ LinkedWith report.callers m'

/-- The report shows an exposed class of the first module that is linked with the second one. -/
def CalledFrom (r : ExposeReport) (m m' : Text) : Prop :=
  ∃ report ∈ r.modules, report.module = m ∧ LinkedWith report.exposed m'

/-- Both sides of a report agree, and all lists are in order. -/
structure Balanced (r : ExposeReport) : Prop where
  linked_iff : ∀ m m', r.CallsInto m m' ↔ r.CalledFrom m' m
  dependenciesTo : ∀ report ∈ r.modules, report.dependenciesTo = {m | r.CallsInto report.module m}.ncard
  dependedBy : ∀ report ∈ r.modules, report.dependedBy = {m | r.CallsInto m report.module}.ncard
  total : (r.modules.map (·.dependenciesTo)).sum = (r.modules.map (·.dependedBy)).sum
  modules_sorted : IncreasingBy (·.module) r.modules
  exposed_sorted : ∀ report ∈ r.modules, IncreasingBy (·.name) report.exposed
  callers_sorted : ∀ report ∈ r.modules, IncreasingBy (·.name) report.callers
  links_sorted : ∀ report ∈ r.modules, ∀ e ∈ report.exposed ++ report.callers,
    IncreasingBy (·.module) e.links ∧ ∀ g ∈ e.links, IncreasingBy id g.classes

/-- The links of an entry are the groups of its name. -/
theorem mem_links_entryOf {names : NameIndex} {name : Text} {g : ModuleClasses} :
    g ∈ (entryOf names name).links ↔ (g.module, g.classes) ∈ names.groups name := by
  simp only [entryOf, List.mem_map, Prod.exists]
  constructor
  · rintro ⟨module, classes, hgroup, rfl⟩
    exact hgroup
  · intro hgroup
    exact ⟨g.module, g.classes, hgroup, rfl⟩

/-- An entry is linked with a module if some class of it is listed, since no list is empty. -/
theorem linkedWith_map_entryOf {names : NameIndex} (hnames : names.Tidy) {classes : List Text} :
    LinkedWith (classes.map (entryOf names)) m ↔ ∃ name ∈ classes, ∃ other, names.Lists name m other := by
  unfold LinkedWith
  constructor
  · rintro ⟨e, he, g, hg, rfl⟩
    obtain ⟨name, hname, rfl⟩ := List.mem_map.mp he
    have hgroup := mem_links_entryOf.mp hg
    obtain ⟨other, hother⟩ := List.exists_mem_of_ne_nil _ (hnames.list_ne_nil _ _ _ hgroup)
    exact ⟨name, hname, other, g.classes, hgroup, hother⟩
  · rintro ⟨name, hname, other, classes, hgroup, -⟩
    exact ⟨entryOf names name, List.mem_map_of_mem hname, ⟨m, classes⟩, mem_links_entryOf.mpr hgroup, rfl⟩

/-- The links of an entry stand in the order of their modules. -/
theorem increasingBy_links_entryOf (names : NameIndex) (name : Text) :
    IncreasingBy (·.module) (entryOf names name).links := by
  unfold entryOf NameIndex.groups
  cases names.find? name with
  | none => exact List.Pairwise.nil
  | some inner =>
    refine IncreasingBy.map ?_
    refine IncreasingBy.map ?_
    exact SortedMap.increasingBy_toList inner

/-- The number of modules that entries are linked with. -/
theorem linkedModules_eq_ncard (entries : List ClassEntry) :
    linkedModules entries = {m | LinkedWith entries m}.ncard := by
  unfold linkedModules
  have hnodup := (increasingBy_sortDistinct
    (entries.flatMap fun e => e.links.map (·.module))).nodup
  have hset : {m | LinkedWith entries m} =
      (sortDistinct (entries.flatMap fun e => e.links.map (·.module))).toFinset := by
    ext m
    simp [LinkedWith, mem_sortDistinct]
  rw [hset, Set.ncard_coe_finset, List.toFinset_card_of_nodup hnodup]

/-- The modules that a report lists. -/
def listed (exposed : Exposed) (index : CallerIndex) : List Text :=
  sortDistinct (exposed.keys ++ index.callers.keys)

/-- There is one report on each of these modules. -/
theorem exists_report_build {P : ModuleReport → Prop} :
    (∃ report ∈ (build exposed (some index)).modules, report.module = m ∧ P report) ↔
      m ∈ listed exposed index ∧ P (linkedModule exposed index m) := by
  constructor
  · rintro ⟨report, hreport, rfl, hholds⟩
    obtain ⟨m, hm, rfl⟩ := List.mem_map.mp hreport
    exact ⟨hm, hholds⟩
  · rintro ⟨hm, hholds⟩
    exact ⟨linkedModule exposed index m, List.mem_map_of_mem hm, rfl, hholds⟩

/-- The callers of a module are linked with the modules of their targets. -/
theorem callsInto_build : (build exposed (some index)).CallsInto m m' ↔
    m ∈ listed exposed index ∧ LinkedWith ((index.callersOf m).map (entryOf index.targets)) m' :=
  exists_report_build (P := fun report => LinkedWith report.callers m')

/-- The exposed classes of a module are linked with the modules of their sources. -/
theorem calledFrom_build : (build exposed (some index)).CalledFrom m m' ↔
    m ∈ listed exposed index ∧
      LinkedWith (((exposed.find? m).getD []).map (entryOf index.sources)) m' :=
  exists_report_build (P := fun report => LinkedWith report.exposed m')

section

variable (hshows : index.Shows c d options (Exposed.scan c options) cache)

include hshows

/-- A module calls into another one if one of its classes calls a class that the other one exposes. -/
theorem callsInto_iff : (build (Exposed.scan c options) (some index)).CallsInto m m' ↔
    ∃ u api, u.module = m ∧ (Exposed.scan c options).Lists m' api ∧
      Refers c d options (Exposed.scan c options) cache u api := by
  rw [callsInto_build, linkedWith_map_entryOf hshows.targets_tidy]
  constructor
  · rintro ⟨-, caller, hcaller, api, hlists⟩
    obtain ⟨u, _, rfl, hmodule, hrefers⟩ := (hshows.caller_iff m caller).mp hcaller
    obtain ⟨hexposed, v, hname, hrefers'⟩ := (hshows.target_iff u.name m' api).mp hlists
    have hsame : v = u := by
      have hunit := hrefers'.registered
      rw [hname, hrefers.registered] at hunit
      exact (Option.some.inj hunit).symm
    exact ⟨u, api, hmodule, hexposed, hsame ▸ hrefers'⟩
  · rintro ⟨u, api, rfl, hexposed, hrefers⟩
    refine ⟨?_, u.name, (hshows.caller_iff ..).mpr ⟨u, api, rfl, rfl, hrefers⟩, api,
      (hshows.target_iff ..).mpr ⟨hexposed, u, rfl, hrefers⟩⟩
    exact mem_sortDistinct.mpr (List.mem_append_right _
      ((hshows.module_iff u.module).mpr (Or.inr ⟨u, api, rfl, hrefers⟩)))

/-- Seen from the exposed classes it is the same. -/
theorem calledFrom_iff : (build (Exposed.scan c options) (some index)).CalledFrom m' m ↔
    ∃ u api, u.module = m ∧ (Exposed.scan c options).Lists m' api ∧
      Refers c d options (Exposed.scan c options) cache u api := by
  rw [calledFrom_build, linkedWith_map_entryOf hshows.sources_tidy]
  constructor
  · rintro ⟨-, api, hexposed, caller, hlists⟩
    obtain ⟨u, -, hmodule, hrefers⟩ := (hshows.source_iff api m caller).mp hlists
    exact ⟨u, api, hmodule, Exposed.lists_iff_mem.mpr hexposed, hrefers⟩
  · rintro ⟨u, api, hmodule, hexposed, hrefers⟩
    refine ⟨?_, api, Exposed.lists_iff_mem.mp hexposed, u.name,
      (hshows.source_iff ..).mpr ⟨u, rfl, hmodule, hrefers⟩⟩
    obtain ⟨names, hfound, -⟩ := hexposed
    exact mem_sortDistinct.mpr (List.mem_append_left _ (SortedMap.mem_keys_of_find? hfound))

end

/-- Where both sides show one relation and both its ends are listed, the numbers of both kinds have one
sum. -/
theorem sum_ncard_eq {names : List Text} (hnodup : names.Nodup) {related : Text → Text → Prop}
    (hends : ∀ a b, related a b → a ∈ names ∧ b ∈ names) :
    (names.map fun a => {b | related a b}.ncard).sum = (names.map fun b => {a | related a b}.ncard).sum := by
  classical
  have habove : ∀ a, {b | related a b}.ncard = (names.toFinset.bipartiteAbove related a).card := by
    intro a
    rw [← Set.ncard_coe_finset, Finset.coe_bipartiteAbove]
    congr 1
    ext b
    simpa using fun h => (hends a b h).2
  have hbelow : ∀ b, {a | related a b}.ncard = (names.toFinset.bipartiteBelow related b).card := by
    intro b
    rw [← Set.ncard_coe_finset, Finset.coe_bipartiteBelow]
    congr 1
    ext a
    simpa using fun h => (hends a b h).1
  rw [← List.sum_toFinset _ hnodup, ← List.sum_toFinset _ hnodup, Finset.sum_congr rfl fun a _ => habove a,
    Finset.sum_congr rfl fun b _ => hbelow b]
  exact Finset.sum_card_bipartiteAbove_eq_sum_card_bipartiteBelow related

/-- A report on an index that shows the calls of a catalog is balanced. -/
theorem build_balanced (hshows : index.Shows c d options (Exposed.scan c options) cache) :
    (build (Exposed.scan c options) (some index)).Balanced := by
  have hlisted : IncreasingBy id (listed (Exposed.scan c options) index) := increasingBy_sortDistinct _
  have hlinked : ∀ m m', (build (Exposed.scan c options) (some index)).CallsInto m m' ↔
      (build (Exposed.scan c options) (some index)).CalledFrom m' m :=
    fun m m' => (callsInto_iff hshows).trans (calledFrom_iff hshows).symm
  have hto : ∀ m ∈ listed (Exposed.scan c options) index,
      (linkedModule (Exposed.scan c options) index m).dependenciesTo =
        {m' | (build (Exposed.scan c options) (some index)).CallsInto m m'}.ncard := by
    intro m hm
    simp only [callsInto_build, hm, true_and]
    exact congrArg Nat.cast (linkedModules_eq_ncard _)
  have hby : ∀ m ∈ listed (Exposed.scan c options) index,
      (linkedModule (Exposed.scan c options) index m).dependedBy =
        {m' | (build (Exposed.scan c options) (some index)).CallsInto m' m}.ncard := by
    intro m hm
    simp only [hlinked, calledFrom_build, hm, true_and]
    exact congrArg Nat.cast (linkedModules_eq_ncard _)
  constructor
  case linked_iff => exact hlinked
  case dependenciesTo =>
    intro report hreport
    obtain ⟨m, hm, rfl⟩ := List.mem_map.mp hreport
    exact hto m hm
  case dependedBy =>
    intro report hreport
    obtain ⟨m, hm, rfl⟩ := List.mem_map.mp hreport
    exact hby m hm
  case total =>
    have hends : ∀ a b, (build (Exposed.scan c options) (some index)).CallsInto a b →
        a ∈ listed (Exposed.scan c options) index ∧ b ∈ listed (Exposed.scan c options) index :=
      fun a b h => ⟨(callsInto_build.mp h).1, (calledFrom_build.mp ((hlinked a b).mp h)).1⟩
    have hsum := congrArg (Nat.cast : Nat → Int) (sum_ncard_eq hlisted.nodup hends)
    rw [Nat.cast_list_sum, Nat.cast_list_sum, List.map_map, List.map_map] at hsum
    calc ((build (Exposed.scan c options) (some index)).modules.map (·.dependenciesTo)).sum
        _ = _ := congrArg List.sum (List.map_map.trans (List.map_congr_left hto))
        _ = _ := hsum
        _ = _ := (congrArg List.sum (List.map_map.trans (List.map_congr_left hby))).symm
  case modules_sorted => exact IncreasingBy.map hlisted
  case exposed_sorted =>
    intro report hreport
    obtain ⟨m, hm, rfl⟩ := List.mem_map.mp hreport
    refine IncreasingBy.map ?_
    change IncreasingBy id (((Exposed.scan c options).find? m).getD [])
    rw [Exposed.getD_find?_scan]
    exact IncreasingBy.map (((Build.increasingBy_list c).filter _).filter _)
  case callers_sorted =>
    intro report hreport
    obtain ⟨m, hm, rfl⟩ := List.mem_map.mp hreport
    exact IncreasingBy.map (hshows.callers_sorted m)
  case links_sorted =>
    intro report hreport e he
    obtain ⟨m, hm, rfl⟩ := List.mem_map.mp hreport
    have hentry : ∃ names : NameIndex, names.Tidy ∧ ∃ name, e = entryOf names name := by
      obtain he | he := List.mem_append.mp he
      · obtain ⟨name, -, rfl⟩ := List.mem_map.mp he
        exact ⟨_, hshows.sources_tidy, name, rfl⟩
      · obtain ⟨name, -, rfl⟩ := List.mem_map.mp he
        exact ⟨_, hshows.targets_tidy, name, rfl⟩
    obtain ⟨names, htidy, name, rfl⟩ := hentry
    refine ⟨increasingBy_links_entryOf names name, ?_⟩
    intro g hg
    exact htidy.list_sorted _ _ _ (mem_links_entryOf.mp hg)

/-- The report on a catalog whose classes can all be looked for is made unless it is interrupted, and its two
sides agree. -/
theorem analyze_balanced (x : Extractor) (d : Disk) (options : ExposeOptions) {budget : Budget}
    (hbudget : budget.Allows x.size) (cache : TextCache) :
    ∃ r, (analyze x d options true budget cache).1 = .ok r ∧ r.Balanced := by
  have hindex : (CallerIndex.build x d options (Exposed.scan x options) budget cache).1 =
      .ok ((links x d options (Exposed.scan x options) cache).foldl addLink (blank x.modules)) :=
    build_eq (Exposed.legible_scan x options) hbudget
  refine ⟨_, ?_, build_balanced (foldl_addLink_shows x d options options cache)⟩
  unfold analyze
  rw [if_pos rfl]
  split
  · next hfailed => simp [hfailed] at hindex
  · next found cache' hfound =>
    rw [hfound, Except.ok.injEq] at hindex
    rw [hindex]

/-- The two modules that share a package: the first one calls into the second one. -/
theorem analyze_balanced_shared :
    let cache := TextCache.ofSize 1
    (Budget.cancelAfter 2).Allows sharedCatalog.size ∧
    ∃ r, (analyze sharedExtractor sharedDisk ⟨"b", []⟩ true (.cancelAfter 2) cache).1 = .ok r ∧ r.Balanced ∧
      r.modules = [⟨"a", 1, 0, [], [⟨"p.A", [⟨"b", ["p.B"]⟩]⟩]⟩, ⟨"b", 0, 1, [⟨"p.B", [⟨"a", ["p.A"]⟩]⟩], []⟩] := by
  intro cache
  have hbudget : (Budget.cancelAfter 2).Allows sharedCatalog.size := Budget.allows_cancelAfter 2
  obtain ⟨r, hr, hbalanced⟩ := analyze_balanced sharedExtractor sharedDisk ⟨"b", []⟩ hbudget cache
  have hmade : (analyze sharedExtractor sharedDisk ⟨"b", []⟩ true (.cancelAfter 2) cache).1 =
      .ok ⟨true, [⟨"a", 1, 0, [], [⟨"p.A", [⟨"b", ["p.B"]⟩]⟩]⟩, ⟨"b", 0, 1, [⟨"p.B", [⟨"a", ["p.A"]⟩]⟩], []⟩]⟩ := rfl
  obtain rfl := Except.ok.inj (hmade.symm.trans hr)
  exact ⟨hbudget, _, hr, hbalanced, rfl⟩

end ClassAtlas.ExposeReport
