import ClassAtlas.Proofs.Expose.Callers

namespace ClassAtlas

variable {c : Catalog} {x : Extractor} {d : Disk} {cache : TextCache}

/-- So many checks pass. -/
def Budget.Allows (budget : Budget) (checks : Nat) : Prop := ∀ n, budget.left = some n → checks ≤ n

/-- A budget that is cancelled after so many checks allows them. -/
theorem Budget.allows_cancelAfter (checks : Nat) : (cancelAfter checks).Allows checks := by
  intro n hn
  exact Nat.le_of_eq (Option.some.inj hn)

/-- If one more check is allowed it passes, and the others are allowed behind it. -/
theorem Budget.Allows.check {budget : Budget} {checks : Nat} (h : budget.Allows (checks + 1)) :
    ∃ budget', budget.check = .ok budget' ∧ budget'.Allows checks := by
  unfold Budget.Allows at h
  unfold Budget.check
  cases hleft : budget.left with
  | none => exact ⟨budget, rfl, by simp [Budget.Allows, hleft]⟩
  | some n =>
    have hn := h n hleft
    cases n with
    | zero => contradiction
    | succ n => exact ⟨_, rfl, by simpa [Budget.Allows] using hn⟩

/-- Classes are exposed by their own module only. -/
theorem Exposed.module_unique_of_scan {options : ExposeOptions} {module module' api : Text}
    (h : (scan c options).Lists module api) (h' : (scan c options).Lists module' api) : module = module' := by
  obtain ⟨u, hu, -, rfl, rfl⟩ := lists_scan_iff.mp h
  obtain ⟨v, hv, -, rfl, hname⟩ := lists_scan_iff.mp h'
  have hunit := Catalog.unit?_of_mem_list hv
  rw [hname, Catalog.unit?_of_mem_list hu] at hunit
  rw [Option.some.inj hunit]

/-- All exposed classes can be looked for. -/
def Exposed.Legible (e : Exposed) : Prop :=
  ∀ module api, e.Lists module api → Utf8.isValid (ClassName.simple api) = true

/-- Those of a catalog can be looked for if all its classes can. -/
theorem Exposed.legible_scan (x : Extractor) (options : ExposeOptions) : (scan x options).Legible := by
  intro module api hlists
  obtain ⟨u, hu, -, -, rfl⟩ := lists_scan_iff.mp hlists
  exact Extractor.isValid_simple (SortedMap.mem_keys_of_find? (Catalog.unit?_of_mem_list hu))

namespace NameIndex

variable {index : NameIndex} {a b name : Text} {names : List Text}

/-- A name stands in the list under two keys. -/
def Lists (index : NameIndex) (a b name : Text) : Prop :=
  ∃ names, (b, names) ∈ index.groups a ∧ name ∈ names

/-- A group of names is listed under two keys if both lead somewhere. -/
theorem mem_groups_iff : (b, names) ∈ index.groups a ↔
    ∃ inner found, index.find? a = some inner ∧ inner.find? b = some found ∧ found.keys = names := by
  unfold groups
  cases hfind : index.find? a with
  | none => simp
  | some inner => simp [SortedMap.mem_toList_iff]

/-- A name stands in a list under two keys if it is among the names there. -/
theorem lists_iff : index.Lists a b name ↔ (index.names a b).contains name = true := by
  unfold Lists NameIndex.names
  constructor
  · rintro ⟨names, hgroup, hname⟩
    obtain ⟨inner, found, hinner, hfound, rfl⟩ := mem_groups_iff.mp hgroup
    rw [hinner, Option.getD_some, hfound, Option.getD_some]
    exact SortedMap.mem_keys_iff.mp hname
  · intro hname
    cases hinner : index.find? a with
    | none => simp [hinner, SortedMap.contains] at hname
    | some inner =>
      rw [hinner, Option.getD_some] at hname
      cases hfound : inner.find? b with
      | none => simp [hfound, SortedMap.contains] at hname
      | some found =>
        rw [hfound, Option.getD_some] at hname
        exact ⟨_, mem_groups_iff.mpr ⟨inner, found, hinner, hfound, rfl⟩, SortedMap.mem_keys_iff.mpr hname⟩

/-- No key leads to nothing. -/
def Filled (index : NameIndex) : Prop :=
  ∀ a inner, index.find? a = some inner → (∃ b found, inner.find? b = some found) ∧
    ∀ b found, inner.find? b = some found → ∃ name, found.contains name = true

/-- A name that is added leaves no key without names. -/
theorem Filled.add (h : index.Filled) (a b name : Text) : (index.add a b name).Filled := by
  unfold NameIndex.add
  intro a' inner hinner
  by_cases ha : a' = a
  · subst ha
    rw [SortedMap.find?_insert_self, Option.some.injEq] at hinner
    subst hinner
    refine ⟨⟨b, _, SortedMap.find?_insert_self ..⟩, ?_⟩
    intro b' found hfound
    by_cases hb : b' = b
    · subst hb
      rw [SortedMap.find?_insert_self, Option.some.injEq] at hfound
      subst hfound
      exact ⟨name, by simp [SortedSet.add]⟩
    · rw [SortedMap.find?_insert_of_ne _ hb] at hfound
      cases hold : index.find? a' with
      | none => simp [hold] at hfound
      | some inner =>
        rw [hold, Option.getD_some] at hfound
        exact (h a' inner hold).2 b' found hfound
  · rw [SortedMap.find?_insert_of_ne _ ha] at hinner
    exact h a' inner hinner

/-- Names that are added one after the other leave no key without names. -/
theorem Filled.foldl_add {α : Type} (a b name : α → Text) (h : index.Filled) (xs : List α) :
    (xs.foldl (fun index x => index.add (a x) (b x) (name x)) index).Filled := by
  induction xs generalizing index with
  | nil => exact h
  | cons x rest ih => exact ih (h.add (a x) (b x) (name x))

/-- Lists are in strictly increasing order, and neither a list nor a group of lists is empty. -/
structure Tidy (index : NameIndex) : Prop where
  group_ne_nil : ∀ a ∈ index.keys, index.groups a ≠ []
  list_ne_nil : ∀ a b names, (b, names) ∈ index.groups a → names ≠ []
  list_sorted : ∀ a b names, (b, names) ∈ index.groups a → IncreasingBy id names

/-- Where no key leads to nothing the lists are tidy, since sets list their names in order. -/
theorem Filled.tidy (h : index.Filled) : index.Tidy where
  group_ne_nil := by
    intro a ha
    obtain ⟨inner, hinner⟩ := SortedMap.contains_iff.mp (SortedMap.mem_keys_iff.mp ha)
    obtain ⟨b, found, hfound⟩ := (h a inner hinner).1
    exact List.ne_nil_of_mem (mem_groups_iff.mpr ⟨inner, found, hinner, hfound, rfl⟩)
  list_ne_nil := by
    intro a b names hgroup
    obtain ⟨inner, found, hinner, hfound, rfl⟩ := mem_groups_iff.mp hgroup
    obtain ⟨name, hname⟩ := (h a inner hinner).2 b found hfound
    exact List.ne_nil_of_mem (SortedMap.mem_keys_iff.mpr hname)
  list_sorted := by
    intro a b names hgroup
    obtain ⟨_, found, _, _, rfl⟩ := mem_groups_iff.mp hgroup
    exact SortedMap.increasingBy_keys found

end NameIndex

namespace CallerIndex

variable {options : ExposeOptions} {exposed : Exposed} {u : SourceUnit} {module caller api : Text}

/-- The cache after classes were read. Those that are skipped are not read. -/
def cacheAfter (c : Catalog) (d : Disk) (options : ExposeOptions) (cache : TextCache)
    (units : List SourceUnit) : TextCache :=
  (units.filter (!isSkipped c options ·)).foldl (fun cache u => (c.text d u.name cache).2) cache

/-- The text that a class gives when its turn comes, if it can be read. -/
def textInTurn (c : Catalog) (d : Disk) (options : ExposeOptions) (cache : TextCache) (name : Text) :
    Option Text :=
  c.text? d (cacheAfter c d options cache (c.list.takeWhile (·.name != name))) name

/-- A class calls a class that another module exposes. -/
structure Refers (c : Catalog) (d : Disk) (options : ExposeOptions) (exposed : Exposed)
    (cache : TextCache) (u : SourceUnit) (api : Text) : Prop where
  registered : c.unit? u.name = some u
  placed : u.module ≠ Module.unknown
  /-- No directory on the way to the file has the name of directories of exposed classes. -/
  outside : options.dir ∉ c.directories u.path
  exposed : ∃ module, module ≠ u.module ∧ exposed.Lists module api
  refers : ∃ t, textInTurn c d options cache u.name = some t ∧ Dependency.refersTo t api = some true

/-- The references of a class in its turn. -/
def linksInTurn (c : Catalog) (d : Disk) (options : ExposeOptions) (exposed : Exposed)
    (cache : TextCache) (u : SourceUnit) : List CallerLink :=
  if isSkipped c options u then []
  else ((textInTurn c d options cache u.name).map (referring · (candidates exposed u))).getD []

/-- A class has one name, so its turn comes after exactly those that stand before it. -/
theorem takeWhile_list {before rest : List SourceUnit} (hlist : c.list = before ++ u :: rest) :
    c.list.takeWhile (·.name != u.name) = before := by
  have hnames := Build.increasingBy_list c
  rw [hlist] at hnames
  have hother : ∀ v ∈ before, (v.name != u.name) = true := by
    intro v hv
    have hbefore := (List.pairwise_append.mp hnames).2.2 v hv u (List.mem_cons_self ..)
    exact bne_iff_ne.mpr (KeyOrder.ne_of_before hbefore)
  rw [hlist, List.takeWhile_append_of_pos hother]
  simp

/-- With enough checks, the references of all classes are collected, each class being read after those
that stand before it. -/
theorem collect_eq (hlegible : exposed.Legible) {before units : List SourceUnit}
    (hlist : c.list = before ++ units) {budget : Budget} (hbudget : budget.Allows units.length)
    (found : List CallerLink) :
    (collect c d options exposed units budget found (cacheAfter c d options cache before)).1 =
      .ok (found ++ units.flatMap (linksInTurn c d options exposed cache)) := by
  induction units generalizing before budget found with
  | nil => simp [collect]
  | cons u rest ih =>
    obtain ⟨budget', hcheck, hbudget'⟩ := hbudget.check
    have hlist' : c.list = (before ++ [u]) ++ rest := by simpa using hlist
    have hrest := ih hlist' hbudget'
    rw [collect, hcheck, List.flatMap_cons, linksInTurn]
    cases hskipped : isSkipped c options u with
    | true =>
      have hcache : cacheAfter c d options cache (before ++ [u]) = cacheAfter c d options cache before := by
        simp [cacheAfter, hskipped]
      rw [hcache] at hrest
      simpa using hrest found
    | false =>
      have hcache : cacheAfter c d options cache (before ++ [u]) =
          (c.text d u.name (cacheAfter c d options cache before)).2 := by
        simp [cacheAfter, hskipped]
      rw [hcache] at hrest
      rw [textInTurn, takeWhile_list hlist, Catalog.text?]
      cases htext : c.text d u.name (cacheAfter c d options cache before) with
      | mk result cache' =>
        rw [htext] at hrest
        cases result with
        | error e => simpa [Except.toOption] using hrest found
        | ok t =>
          have hlinks : linksIn t (candidates exposed u) = .ok (referring t (candidates exposed u)) :=
            linksIn_eq_referring fun l hl => hlegible _ _ (mem_candidates_iff.mp hl).2.2.2
          simpa [Except.toOption, hlinks] using hrest (found ++ referring t (candidates exposed u))

section

variable {scanned : ExposeOptions}

/-- The references of a class in its turn are those to classes that it calls, each with the module that
exposes the class. -/
theorem mem_linksInTurn_iff (hu : u ∈ c.list) {l : CallerLink} :
    l ∈ linksInTurn c d options (Exposed.scan c scanned) cache u ↔ l.caller = u.name ∧
      l.callerModule = u.module ∧ (Exposed.scan c scanned).Lists l.apiModule l.api ∧
        Refers c d options (Exposed.scan c scanned) cache u l.api := by
  have hskipped : isSkipped c options u = true ↔
      u.module = Module.unknown ∨ options.dir ∈ c.directories u.path := by
    simp [isSkipped, Exposed.isBelow]
  unfold linksInTurn
  constructor
  · intro hl
    split at hl
    · contradiction
    · next hkept =>
      rw [hskipped, not_or] at hkept
      cases htext : textInTurn c d options cache u.name with
      | none => simp [htext] at hl
      | some t =>
        rw [htext, Option.map_some, Option.getD_some, mem_referring_iff, mem_candidates_iff] at hl
        obtain ⟨⟨hcaller, hmodule, hother, hlists⟩, hrefers⟩ := hl
        exact ⟨hcaller, hmodule, hlists, Catalog.unit?_of_mem_list hu, hkept.1, hkept.2,
          ⟨_, hother, hlists⟩, t, htext, hrefers⟩
  · rintro ⟨hcaller, hmodule, hlists, -, hplaced, houtside, ⟨module, hother, hlists'⟩, t, htext, hrefers⟩
    rw [if_neg (by rw [hskipped, not_or]; exact ⟨hplaced, houtside⟩), htext, Option.map_some,
      Option.getD_some, mem_referring_iff, mem_candidates_iff, Exposed.module_unique_of_scan hlists hlists']
    exact ⟨⟨hcaller, hmodule, hother, hlists'⟩, hrefers⟩

/-- All references of a catalog. -/
def links (c : Catalog) (d : Disk) (options : ExposeOptions) (exposed : Exposed) (cache : TextCache) :
    List CallerLink := c.list.flatMap (linksInTurn c d options exposed cache)

/-- Among all references there is one for each class and each class that it calls. -/
theorem exists_mem_links_iff {P : CallerLink → Prop} :
    (∃ l ∈ links c d options (Exposed.scan c scanned) cache, P l) ↔
      ∃ u target api, (Exposed.scan c scanned).Lists target api ∧
        Refers c d options (Exposed.scan c scanned) cache u api ∧ P ⟨u.name, u.module, api, target⟩ := by
  unfold links
  constructor
  · rintro ⟨⟨caller, module, api, target⟩, hl, hholds⟩
    obtain ⟨u, hu, hl⟩ := List.mem_flatMap.mp hl
    obtain ⟨rfl, rfl, hlists, hrefers⟩ := (mem_linksInTurn_iff hu).mp hl
    exact ⟨u, target, api, hlists, hrefers, hholds⟩
  · rintro ⟨u, target, api, hlists, hrefers, hholds⟩
    have hu : u ∈ c.list := SortedMap.mem_values_iff.mpr ⟨u.name, hrefers.registered⟩
    exact ⟨⟨u.name, u.module, api, target⟩, List.mem_flatMap.mpr ⟨u, hu, (mem_linksInTurn_iff hu).mpr
      ⟨rfl, rfl, hlists, hrefers⟩⟩, hholds⟩

end

/-- With enough checks, the index is that of all references. -/
theorem build_eq (hlegible : exposed.Legible) {budget : Budget} (hbudget : budget.Allows x.size) :
    (build x d options exposed budget cache).1 =
      .ok ((links x d options exposed cache).foldl addLink (blank x.modules)) := by
  have hlength : x.list.length = x.size := List.length_map ..
  have hcollect : (collect x d options exposed x.list budget [] cache).1 =
      .ok (links x d options exposed cache) := by
    have hstart : x.list = [] ++ x.list := rfl
    exact collect_eq hlegible hstart (hlength ▸ hbudget) []
  unfold build
  split
  · next hfailed => simp [hfailed] at hcollect
  · next found cache' hfound =>
    rw [hfound, Except.ok.injEq] at hcollect
    rw [hcollect]

/-- The callers of a module are those noted for it. -/
theorem mem_callersOf_iff {index : CallerIndex} : caller ∈ index.callersOf module ↔
    ∃ found, index.callers.find? module = some found ∧ found.contains caller = true := by
  unfold callersOf
  cases hfound : index.callers.find? module with
  | none => simp [SortedMap.mem_keys_iff, SortedMap.contains]
  | some found => simp [SortedMap.mem_keys_iff]

/-- A reference adds its caller to the module of the caller, and the module to the modules. -/
theorem callers_addLink (module : Text) (index : CallerIndex) (l : CallerLink) :
    (∀ caller, caller ∈ (addLink index l).callersOf module ↔
      caller ∈ index.callersOf module ∨ l.callerModule = module ∧ l.caller = caller) ∧
    (module ∈ (addLink index l).callers.keys ↔ module ∈ index.callers.keys ∨ l.callerModule = module) := by
  constructor
  · intro caller
    unfold callersOf addLink
    by_cases hmodule : module = l.callerModule
    · subst hmodule
      simp [SortedMap.mem_keys_iff, SortedSet.add, or_comm, eq_comm (a := caller)]
    · simp [SortedMap.find?_insert_of_ne _ hmodule, Ne.symm hmodule]
  · simp [SortedMap.mem_keys_iff, addLink, or_comm, eq_comm (a := module)]

/-- References note their callers in the modules of the callers, and nothing else. -/
theorem callers_foldl (module : Text) (links : List CallerLink) (index : CallerIndex) :
    (∀ caller, caller ∈ (links.foldl addLink index).callersOf module ↔ caller ∈ index.callersOf module ∨
      ∃ l ∈ links, l.callerModule = module ∧ l.caller = caller) ∧
    (module ∈ (links.foldl addLink index).callers.keys ↔ module ∈ index.callers.keys ∨
      ∃ l ∈ links, l.callerModule = module) := by
  induction links generalizing index with
  | nil => simp
  | cons l rest ih =>
    obtain ⟨hcallers, hkeys⟩ := callers_addLink module index l
    obtain ⟨hcallers', hkeys'⟩ := ih (addLink index l)
    constructor
    · intro caller
      rw [List.foldl_cons, hcallers', hcallers, List.exists_mem_cons_iff, or_assoc]
    · rw [List.foldl_cons, hkeys', hkeys, List.exists_mem_cons_iff, or_assoc]

/-- At first the modules of the catalog are noted without callers, and no other modules. -/
theorem find?_callers_blank (modules : List Text) (module : Text) :
    (blank modules).callers.find? module = if module ∈ modules then some SortedMap.empty else none := by
  have hfold : ∀ (modules : List Text) (start : SortedMap Text (SortedSet Text)),
      ((modules.map fun m => (m, SortedMap.empty)).foldl (fun found p => found.insert p.1 p.2) start).find?
        module = if module ∈ modules then some SortedMap.empty else start.find? module := by
    intro modules
    induction modules with
    | nil => simp
    | cons m rest ih =>
      intro start
      rw [List.map_cons, List.foldl_cons, ih, SortedMap.find?_insert]
      by_cases hm : module = m <;> simp [hm]
  exact hfold modules SortedMap.empty

/-- At first there are the modules of the catalog, without callers. -/
theorem callers_blank (module : Text) (modules : List Text) :
    (∀ caller, caller ∉ (blank modules).callersOf module) ∧
      (module ∈ (blank modules).callers.keys ↔ module ∈ modules) := by
  constructor
  · intro caller
    rw [mem_callersOf_iff, find?_callers_blank]
    rintro ⟨found, hfound, hcaller⟩
    split at hfound
    · obtain rfl := Option.some.inj hfound
      simp [SortedMap.contains] at hcaller
    · contradiction
  · rw [SortedMap.mem_keys_iff, SortedMap.contains, find?_callers_blank]
    split <;> simp [*]

/-- What an index shows of the references of a catalog. -/
structure Shows (index : CallerIndex) (c : Catalog) (d : Disk) (options : ExposeOptions)
    (exposed : Exposed) (cache : TextCache) : Prop where
  target_iff : ∀ caller module api, index.targets.Lists caller module api ↔
    exposed.Lists module api ∧ ∃ u, u.name = caller ∧ Refers c d options exposed cache u api
  source_iff : ∀ api module caller, index.sources.Lists api module caller ↔
    ∃ u, u.name = caller ∧ u.module = module ∧ Refers c d options exposed cache u api
  caller_iff : ∀ module caller, caller ∈ index.callersOf module ↔
    ∃ u api, u.name = caller ∧ u.module = module ∧ Refers c d options exposed cache u api
  /-- The modules are those of the catalog and those of the callers. -/
  module_iff : ∀ module, module ∈ index.callers.keys ↔ module ∈ c.modules ∨
    ∃ u api, u.module = module ∧ Refers c d options exposed cache u api
  targets_tidy : index.targets.Tidy
  sources_tidy : index.sources.Tidy
  callers_sorted : ∀ module, IncreasingBy id (index.callersOf module)

/-- The index of all references shows them in all three ways. -/
theorem foldl_addLink_shows (c : Catalog) (d : Disk) (options scanned : ExposeOptions) (cache : TextCache) :
    ((links c d options (Exposed.scan c scanned) cache).foldl addLink (blank c.modules)).Shows c d options
      (Exposed.scan c scanned) cache := by
  have hnone : ∀ a b name, ((blank c.modules).targets.names a b).contains name ≠ true :=
    fun _ _ _ => Bool.false_ne_true
  have hnone' : ∀ a b name, ((blank c.modules).sources.names a b).contains name ≠ true :=
    fun _ _ _ => Bool.false_ne_true
  have hfilled : NameIndex.Filled SortedMap.empty := by
    intro a inner hinner
    simp at hinner
  constructor
  case target_iff =>
    intro caller module api
    rw [NameIndex.lists_iff, contains_targets_foldl, or_iff_right (hnone _ _ _), exists_mem_links_iff]
    constructor
    · rintro ⟨u, _, _, hlists, hrefers, hcaller, rfl, rfl⟩
      exact ⟨hlists, u, hcaller, hrefers⟩
    · rintro ⟨hlists, u, hcaller, hrefers⟩
      exact ⟨u, module, api, hlists, hrefers, hcaller, rfl, rfl⟩
  case source_iff =>
    intro api module caller
    rw [NameIndex.lists_iff, foldl_addLink, NameIndex.contains_names_foldl_add, or_iff_right (hnone' _ _ _),
      exists_mem_links_iff]
    constructor
    · rintro ⟨u, target, _, -, hrefers, rfl, hmodule, hcaller⟩
      exact ⟨u, hcaller, hmodule, hrefers⟩
    · rintro ⟨u, hcaller, hmodule, hrefers⟩
      obtain ⟨target, -, hlists⟩ := hrefers.exposed
      exact ⟨u, target, api, hlists, hrefers, rfl, hmodule, hcaller⟩
  case caller_iff =>
    intro module caller
    rw [(callers_foldl ..).1, or_iff_right ((callers_blank ..).1 _), exists_mem_links_iff]
    constructor
    · rintro ⟨u, target, api, -, hrefers, hmodule, hcaller⟩
      exact ⟨u, api, hcaller, hmodule, hrefers⟩
    · rintro ⟨u, api, hcaller, hmodule, hrefers⟩
      obtain ⟨target, -, hlists⟩ := hrefers.exposed
      exact ⟨u, target, api, hlists, hrefers, hmodule, hcaller⟩
  case module_iff =>
    intro module
    rw [(callers_foldl ..).2, (callers_blank ..).2, exists_mem_links_iff]
    refine or_congr_right ⟨?_, ?_⟩
    · rintro ⟨u, target, api, -, hrefers, hmodule⟩
      exact ⟨u, api, hmodule, hrefers⟩
    · rintro ⟨u, api, hmodule, hrefers⟩
      obtain ⟨target, -, hlists⟩ := hrefers.exposed
      exact ⟨u, target, api, hlists, hrefers, hmodule⟩
  case targets_tidy =>
    rw [foldl_addLink]
    exact (NameIndex.Filled.foldl_add _ _ _ hfilled _).tidy
  case sources_tidy =>
    rw [foldl_addLink]
    exact (NameIndex.Filled.foldl_add _ _ _ hfilled _).tidy
  case callers_sorted => exact fun module => SortedMap.increasingBy_keys _

end CallerIndex

end ClassAtlas
