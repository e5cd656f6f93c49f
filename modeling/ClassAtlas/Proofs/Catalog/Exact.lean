import ClassAtlas.Proofs.Catalog.Places
import ClassAtlas.Proofs.Disk.Tree
import ClassAtlas.Proofs.Text.Parts

namespace ClassAtlas

namespace UnitMap

/-- A class that is added is found under its name, in place of another one, and all others are found as
before. -/
theorem find?_add (m : UnitMap) (u : SourceUnit) (name : Text) :
    (m.add u).find? name = if name = u.name then some u else m.find? name :=
  SortedMap.find?_insert m.entries name u.name u

/-- A class that is added makes the map larger if its name is new. -/
theorem size_add (m : UnitMap) (u : SourceUnit) :
    (m.add u).size = if m.contains u.name then m.size else m.size + 1 := by
  cases hfind : m.find? u.name with
  | none =>
    have hcontains : m.contains u.name = false := SortedMap.contains_eq_false_iff.mpr hfind
    rw [hcontains]
    exact SortedMap.size_insert_of_find?_eq_none hfind u
  | some old =>
    have hcontains : m.contains u.name = true := SortedMap.contains_iff.mpr ⟨old, hfind⟩
    have hmodify : m.entries.insert u.name u = m.entries.modify u.name fun _ => u := by
      rw [SortedMap.modify, show m.entries.find? u.name = some old from hfind]
    rw [hcontains]
    exact (congrArg SortedMap.size hmodify).trans (SortedMap.size_modify ..)

section

variable {κ α : Type} [KeyOrder κ] {key : α → κ} {xs : List α} {f : α → Option SourceUnit}

/-- Of those that give a class of the name, `x` gives `u` and comes last in the order of the key. -/
def IsLast (key : α → κ) (f : α → Option SourceUnit) (xs : List α) (name : Text) (x : α)
    (u : SourceUnit) : Prop :=
  x ∈ xs ∧ f x = some u ∧ u.name = name ∧
    ∀ y ∈ xs, ∀ v, f y = some v → v.name = name → y = x ∨ KeyOrder.before (key y) (key x) = true

/-- One more that gives no class of the name changes nothing. -/
theorem isLast_append_of_ne {name : Text} {x w : α} {u : SourceUnit}
    (hw : ∀ v, f w = some v → v.name ≠ name) :
    IsLast key f (xs ++ [w]) name x u ↔ IsLast key f xs name x u := by
  constructor
  · rintro ⟨hmem, hx, hname, hothers⟩
    have hxs : x ∈ xs := by
      rcases List.mem_append.mp hmem with hxs | hlast
      · exact hxs
      · obtain rfl := List.mem_singleton.mp hlast
        exact absurd hname (hw u hx)
    exact ⟨hxs, hx, hname, fun y hy => hothers y (List.mem_append_left _ hy)⟩
  · rintro ⟨hmem, hx, hname, hothers⟩
    refine ⟨List.mem_append_left _ hmem, hx, hname, ?_⟩
    intro y hy v hv hvname
    rcases List.mem_append.mp hy with hxs | hlast
    · exact hothers y hxs v hv hvname
    · obtain rfl := List.mem_singleton.mp hlast
      exact absurd hvname (hw v hv)

/-- One more behind all others that gives a class of the name is the last. -/
theorem isLast_append_of_eq {x w : α} {u v : SourceUnit} (hw : f w = some v)
    (hbehind : ∀ y ∈ xs, KeyOrder.before (key y) (key w) = true) :
    IsLast key f (xs ++ [w]) v.name x u ↔ x = w ∧ u = v := by
  constructor
  · rintro ⟨hmem, hx, -, hothers⟩
    have hlast : w = x := by
      rcases hothers w (by simp) v hw rfl with heq | hbefore
      · exact heq
      · rcases List.mem_append.mp hmem with hxs | hlast
        · rw [KeyOrder.asymm (hbehind x hxs)] at hbefore
          contradiction
        · exact (List.mem_singleton.mp hlast).symm
    subst hlast
    exact ⟨rfl, Option.some.inj (hx.symm.trans hw)⟩
  · rintro ⟨rfl, rfl⟩
    refine ⟨by simp, hw, rfl, ?_⟩
    intro y hy _ _ _
    rcases List.mem_append.mp hy with hxs | hlast
    · exact Or.inr (hbehind y hxs)
    · exact Or.inl (List.mem_singleton.mp hlast)

/-- Of the classes of one name that are added in the order of a key, the last one stays. -/
theorem find?_foldl_add_iff (hsorted : IncreasingBy key xs) {name : Text} {u : SourceUnit} :
    ((xs.filterMap f).foldl add empty).find? name = some u ↔ ∃ x, IsLast key f xs name x u := by
  -- from the end, since the last of the list is behind all others and wins if it gives the name
  induction xs using List.reverseRecOn with
  | nil => simp [IsLast, find?, empty]
  | append_singleton xs w ih =>
    obtain ⟨hfront, -, hbehind⟩ := List.pairwise_append.mp hsorted
    have hlast : ∀ y ∈ xs, KeyOrder.before (key y) (key w) = true :=
      fun y hy => hbehind y hy w (List.mem_singleton_self w)
    rw [List.filterMap_append, List.foldl_append]
    cases hw : f w with
    | none =>
      have hne : ∀ v, f w = some v → v.name ≠ name := by simp [hw]
      simp [hw, ih hfront, isLast_append_of_ne hne]
    | some v =>
      have hadd : [w].filterMap f = [v] := by simp [hw]
      rw [hadd, List.foldl_cons, List.foldl_nil, find?_add]
      by_cases hname : name = v.name
      · subst hname
        simp [isLast_append_of_eq hw hlast, eq_comm]
      · have hne : ∀ v', f w = some v' → v'.name ≠ name := by
          intro v' hv'
          obtain rfl := Option.some.inj (hw.symm.trans hv')
          exact Ne.symm hname
        rw [if_neg hname, ih hfront]
        simp only [isLast_append_of_ne hne]

end

/-- The names of a map after classes were added. -/
theorem contains_foldl_add_iff {m : UnitMap} {us : List SourceUnit} {name : Text} :
    (us.foldl add m).contains name = true ↔ m.contains name = true ∨ ∃ u ∈ us, u.name = name := by
  induction us generalizing m with
  | nil => simp
  | cons u rest ih =>
    have hadd : (m.add u).contains name = true ↔ m.contains name = true ∨ u.name = name := by
      have hinsert := SortedMap.contains_insert m.entries name u.name u
      rw [contains, add, hinsert, Bool.or_eq_true, decide_eq_true_iff, or_comm]
      exact or_congr_right eq_comm
    rw [List.foldl_cons, ih, hadd, List.exists_mem_cons_iff, or_assoc]

end UnitMap

namespace TreeScan

variable {d : Disk} {root extension : Text}

/-- The class that an entry of the walk gives, if it gives one. -/
def classOf? (d : Disk) (root extension : Text) (v : Visit) : Option SourceUnit :=
  if v.node.isDirectory = false ∧ (Path.base v.path).endsWith extension = true then
    (d.readFile v.path).toOption.bind fun t =>
      if Source.package t = [] then none else some (unitOf root extension v.path t)
  else none

/-- An entry gives a class if it is no directory, has the extension, can be read and declares a package. A
link to a directory is not excluded by its kind, but cannot be read. -/
theorem classOf?_eq_some_iff {v : Visit} {u : SourceUnit} :
    classOf? d root extension v = some u ↔
      v.node.isDirectory = false ∧ (Path.base v.path).endsWith extension = true ∧
        ∃ t, d.readFile v.path = .ok t ∧ Source.package t ≠ [] ∧
          unitOf root extension v.path t = u := by
  unfold classOf?
  cases d.readFile v.path <;> simp [Except.toOption, and_assoc]

/-- Taking an entry into account adds the class that it gives. -/
theorem take_units (v : Visit) (p : Progress) : (take d root extension v p).units =
    (classOf? d root extension v).toList.foldl UnitMap.add p.units := by
  unfold take classOf?
  split
  · next hdirectory => simp [hdirectory]
  · next hfile =>
    split
    · next hext =>
      unfold TreeScan.index
      cases hread : d.readFile v.path with
      | error e => simp [Except.toOption]
      | ok t => by_cases hpackage : Source.package t = [] <;> simp [*, Except.toOption, unitOf]
    · next hext => simp [hext]

/-- A walk is interrupted, or it adds the classes of all its entries in their order. -/
theorem collect_cases (extension : Text) (visits : List Visit) (budget : Budget)
    (p : Progress) :
    (budget.left ≠ none ∧ ∃ i, collect d root extension visits budget p = .error i) ∨
    ∃ p', collect d root extension visits budget p = .ok p' ∧
      p'.units = (visits.filterMap (classOf? d root extension)).foldl UnitMap.add p.units := by
  induction visits generalizing budget p with
  | nil => exact Or.inr ⟨p, rfl, rfl⟩
  | cons v rest ih =>
    rw [collect]
    cases hcheck : budget.check with
    | error i =>
      refine Or.inl ⟨?_, i, rfl⟩
      intro hnone
      rw [Budget.check_of_left_eq_none hnone] at hcheck
      contradiction
    | ok budget' =>
      dsimp only
      rcases ih budget' (take d root extension v p) with ⟨hleft, hstop⟩ | ⟨p', hp', hunits⟩
      · refine Or.inl ⟨?_, hstop⟩
        intro hnone
        rw [Budget.check_of_left_eq_none hnone] at hcheck
        exact hleft (Except.ok.inj hcheck ▸ hnone)
      · refine Or.inr ⟨p', hp', ?_⟩
        rw [hunits, take_units, ← List.foldl_append]
        cases hclass : classOf? d root extension v <;> simp [hclass]

/-- The files that were read are accounted for. -/
def Counted (p : Progress) : Prop :=
  p.stats.scanned =
    p.stats.unreadable + p.stats.withoutPackage + p.stats.collisions + p.units.size

/-- A file that is looked at is counted once: as unreadable, as one without a package, as a collision or
as a new class. -/
theorem Counted.index {p : Progress} (h : Counted p) (path : Text) :
    Counted (index d root extension path p) := by
  unfold Counted at *
  unfold TreeScan.index
  cases hread : d.readFile path with
  | error e =>
    dsimp only
    omega
  | ok t =>
    dsimp only
    split
    · dsimp only
      omega
    · dsimp only
      rw [UnitMap.size_add]
      split <;> omega

/-- An entry below the root as the walk comes to it. -/
def visitAt (root : Text) (e : Disk.Entry) : Visit := ⟨Path.join (root :: e.1), e.2⟩

variable {options : ScanOptions} {top : List Text}

/-- The walk of a directory starts there and then comes to its entries. -/
theorem visits_of_directory {ignored : List Text} (htop : d.resolve false root = .ok top)
    (hdirectory : d.node? top = some .directory) :
    visits d ignored root = reported (!d.isReadable top) ⟨root, .directory⟩ ++
      (walked d ignored top).flatMap fun e =>
        reported (!isIgnored ignored e && isUnlisted d top e) (visitAt root e) := by
  unfold visits
  rw [htop]
  dsimp only
  rw [hdirectory]
  rfl

/-- What the walk comes to twice is a directory and gives no class either time. -/
theorem filterMap_reported {unlisted : Bool} {v : Visit} (h : unlisted = true → v.node.isDirectory = true) :
    (reported unlisted v).filterMap (classOf? d root extension) = (classOf? d root extension v).toList := by
  cases unlisted with
  | false => cases hclass : classOf? d root extension v <;> simp [reported, hclass]
  | true =>
    have hnone : classOf? d root extension v = none := by simp [classOf?, h rfl]
    simp [reported, hnone]

/-- The walk comes to those entries below a directory that have no ignored directory and none without a
list of its entries among their ancestors, the directory itself included. -/
theorem mem_walked_iff (hd : d.IsTree) {ignored rel : List Text} {n : Node} :
    (rel, n) ∈ walked d ignored top ↔ rel ≠ [] ∧ d.node? (top ++ rel) = some n ∧
      (∀ name ∈ rel.dropLast, name ∉ ignored) ∧
      ∀ front, front <+: rel.dropLast → d.isReadable (top ++ front) = true := by
  let left : List Text → Bool := fun p => ignored.contains (p.getLast?.getD []) || !d.isReadable (top ++ p)
  have hpruned : (fun e => isIgnored ignored e || isUnlisted d top e) = fun e : Disk.Entry =>
      e.2.isDirectory && left e.1 := by
    funext e
    rw [isIgnored, isUnlisted, Bool.and_or_distrib_left]
  unfold walked
  rw [hpruned]
  split
  · next htop =>
    rw [hd.mem_prune_below_iff left]
    refine and_congr_right fun _ => and_congr_right fun _ => ?_
    simp only [left, Bool.or_eq_false_iff, Bool.not_eq_false']
    constructor
    · intro hclear
      constructor
      · intro name hname
        obtain ⟨front, back, hsplit⟩ := List.append_of_mem hname
        have hleads : front ++ [name] <+: rel.dropLast := ⟨back, by simp [hsplit]⟩
        simpa using (hclear _ (by simp) hleads).1
      · intro front hleads
        by_cases hfront : front = []
        · simpa [hfront] using htop
        · exact (hclear front hfront hleads).2
    · rintro ⟨hvisible, hlisted⟩ front hfront hleads
      have hlast : front.getLast?.getD [] ∈ rel.dropLast := by
        rw [List.getLast?_eq_some_getLast hfront]
        exact hleads.subset (List.getLast_mem hfront)
      exact ⟨by simpa using hvisible _ hlast, hlisted front hleads⟩
  · next htop =>
    simp only [List.not_mem_nil, false_iff]
    rintro ⟨-, -, -, hlisted⟩
    exact htop (by simpa using hlisted [] List.nil_prefix)

/-- The classes that the entries of the walk give, a later one in place of an earlier one. -/
def classes (d : Disk) (options : ScanOptions) (root : Text) : UnitMap :=
  ((visits d options.ignored root).filterMap (classOf? d root options.extension)).foldl UnitMap.add
    UnitMap.empty

/-- Directories give no class, so it does not matter that some are come to twice. -/
theorem classes_of_directory (htop : d.resolve false root = .ok top)
    (hdirectory : d.node? top = some .directory) :
    classes d options root = ((walked d options.ignored top).filterMap
      (classOf? d root options.extension ∘ visitAt root)).foldl UnitMap.add UnitMap.empty := by
  have hfirst : (reported (!d.isReadable top) ⟨root, .directory⟩).filterMap
      (classOf? d root options.extension) = [] := by
    rw [filterMap_reported fun _ => rfl]
    simp [classOf?, Node.isDirectory]
  have hinside : ∀ e : Disk.Entry, (reported (!isIgnored options.ignored e && isUnlisted d top e)
      (visitAt root e)).filterMap (classOf? d root options.extension) =
        (classOf? d root options.extension (visitAt root e)).toList := by
    intro e
    apply filterMap_reported
    simp only [isUnlisted, Bool.and_eq_true]
    exact fun h => h.2.1
  rw [classes, visits_of_directory htop hdirectory, List.filterMap_append, hfirst, List.nil_append,
    List.filterMap_flatMap, List.filterMap_eq_flatMap_toList]
  simp only [hinside, Function.comp_apply]

/-- A valid root leads to a directory, possibly through links. -/
theorem nodeAt_of_validRoot {path : Text} (hvalid : validRoot d root = .ok path) :
    d.nodeAt true path = .ok .directory := by
  unfold validRoot at hvalid
  split at hvalid
  · contradiction
  · dsimp only at hvalid
    split at hvalid
    · contradiction
    · next n hnode =>
      split at hvalid
      · next hdirectory =>
        obtain rfl := Except.ok.inj hvalid
        cases n with
        | directory => exact hnode
        | file | link => contradiction
      · contradiction

/-- A valid root cannot be read as a file, so one that is itself no directory gives no class. -/
theorem classes_of_not_directory {path : Text} (hvalid : validRoot d root = .ok path)
    (h : d.nodeAt false path ≠ .ok .directory) : classes d options path = UnitMap.empty := by
  have hroot : ∀ n, classOf? d path options.extension ⟨path, n⟩ = none := by
    intro n
    rw [Option.eq_none_iff_forall_ne_some]
    intro u hu
    obtain ⟨-, -, t, hread, -⟩ := classOf?_eq_some_iff.mp hu
    obtain ⟨place, hplace, hfile, -⟩ := Disk.readFile_eq_ok_iff.mp hread
    have hnode := nodeAt_of_validRoot hvalid
    rw [Disk.nodeAt_eq_ok_iff.mpr ⟨place, hplace, hfile⟩] at hnode
    simp at hnode
  unfold classes visits
  split
  · rfl
  · next top htop =>
    split
    · next hdirectory => exact absurd (Disk.nodeAt_eq_ok_iff.mpr ⟨top, htop, hdirectory⟩) h
    · rw [List.filterMap_cons_none (hroot _), List.filterMap_nil, List.foldl_nil]
    · rfl

/-- The walk comes to entries below the directory, to each once and in their order. -/
theorem walked_sublist (d : Disk) (ignored top : List Text) :
    (walked d ignored top).Sublist (d.below top) := by
  unfold walked
  split
  · exact Disk.prune_sublist ..
  · exact List.nil_sublist _

/-- The entries of a walk are in the order of their names, without repetition. -/
theorem increasingBy_walked (d : Disk) (ignored top : List Text) :
    IncreasingBy Prod.fst (walked d ignored top) :=
  (Disk.increasingBy_below d top).sublist (walked_sublist d ignored top)

/-- The file that lies in the directory `dir` below the root and has the name `stem` with the
extension is a source with the text `t`. The root has the path `root` and stands at `top`. -/
structure IsSource (d : Disk) (options : ScanOptions) (root : Text) (top dir : List Text)
    (stem t : Text) : Prop where
  visible : ∀ name ∈ dir, name ∉ options.ignored
  /-- The entries of all directories on the way, from the root on, may be listed. -/
  listed : ∀ front, front <+: dir → d.isReadable (top ++ front) = true
  entry : ∃ n, d.node? (top ++ (dir ++ [stem ++ options.extension])) = some n ∧ n.isDirectory = false
  readable : d.readFile (Path.join (root :: (dir ++ [stem ++ options.extension]))) = .ok t
  packaged : Source.package t ≠ []

/-- The file `rel` below the root gives the class `u`. -/
def Gives (d : Disk) (options : ScanOptions) (root : Text) (top rel : List Text) (u : SourceUnit) :
    Prop :=
  ∃ dir stem t, IsSource d options root top dir stem t ∧ rel = dir ++ [stem ++ options.extension] ∧
    u = ⟨Source.package t ++ "." ++ stem, Source.package t, Path.join (root :: rel), rel.head?.getD []⟩

/-- The class of a file by the names on the way to it. -/
theorem unitOf_join_names {dir : List Text} {name t : Text} (hroot : Path.isAbsolute root = true)
    (h : ∀ s ∈ dir ++ [name], Path.IsName s) :
    unitOf root extension (Path.join (root :: (dir ++ [name]))) t =
      ⟨Source.package t ++ "." ++ name.dropTail extension, Source.package t,
        Path.join (root :: (dir ++ [name])), (dir ++ [name]).head?.getD []⟩ := by
  have hmodule : Module.ofPath root (Path.join (root :: (dir ++ [name]))) =
      (dir ++ [name]).head?.getD [] := by
    cases dir with
    | nil => exact Module.ofPath_join_names hroot h
    | cons first more => exact Module.ofPath_join_names hroot h
  rw [unitOf, Path.base_join_names hroot h, hmodule]

/-- The class of a file with the extension has the name of the file without it. -/
theorem unitOf_join {dir : List Text} {stem t : Text} (hroot : Path.isAbsolute root = true)
    (h : ∀ s ∈ dir ++ [stem ++ extension], Path.IsName s) :
    unitOf root extension (Path.join (root :: (dir ++ [stem ++ extension]))) t =
      ⟨Source.package t ++ "." ++ stem, Source.package t,
        Path.join (root :: (dir ++ [stem ++ extension])), (dir ++ [stem ++ extension]).head?.getD []⟩ := by
  rw [unitOf_join_names hroot h, Text.dropTail_append]

/-- A file gives a class if the walk comes to it and makes it this class. -/
theorem gives_iff (hd : d.IsTree) (hroot : Path.isAbsolute root = true) {rel : List Text}
    {u : SourceUnit} :
    Gives d options root top rel u ↔ ∃ n, (rel, n) ∈ walked d options.ignored top ∧
      classOf? d root options.extension (visitAt root (rel, n)) = some u := by
  constructor
  · rintro ⟨dir, stem, t, ⟨hvisible, hlisted, ⟨n, hnode, hfile⟩, hread, hpackage⟩, rfl, rfl⟩
    have hnames := hd.isName_below hnode
    have hmem : (dir ++ [stem ++ options.extension], n) ∈ walked d options.ignored top := by
      refine (mem_walked_iff hd).mpr ⟨by simp, hnode, ?_⟩
      rw [List.dropLast_concat]
      exact ⟨hvisible, hlisted⟩
    refine ⟨n, hmem, ?_⟩
    refine classOf?_eq_some_iff.mpr ⟨hfile, ?_, t, hread, hpackage, unitOf_join hroot hnames⟩
    rw [visitAt, Path.base_join_names hroot hnames]
    exact Text.endsWith_iff.mpr ⟨stem, rfl⟩
  · rintro ⟨n, hmem, hclass⟩
    obtain ⟨hne, hnode, hvisible, hlisted⟩ := (mem_walked_iff hd).mp hmem
    obtain ⟨hfile, hends, t, hread, hpackage, rfl⟩ := classOf?_eq_some_iff.mp hclass
    have hnames := hd.isName_below hnode
    obtain ⟨dir, name, rfl⟩ := (List.eq_nil_or_concat' rel).resolve_left hne
    rw [List.dropLast_concat] at hvisible hlisted
    rw [visitAt, Path.base_join_names hroot hnames] at hends
    obtain ⟨stem, rfl⟩ := Text.endsWith_iff.mp hends
    exact ⟨dir, stem, t, ⟨hvisible, hlisted, ⟨n, hnode, hfile⟩, hread, hpackage⟩, rfl,
      unitOf_join hroot hnames⟩

/-- Nothing lies below a file that gives a class. -/
theorem Gives.eq_of_prefix (hd : d.IsTree) {rel rel' : List Text} {u u' : SourceUnit}
    (h : Gives d options root top rel u) (h' : Gives d options root top rel' u')
    (hleads : rel <+: rel') : rel = rel' := by
  obtain ⟨rest, rfl⟩ := hleads
  obtain ⟨dir, stem, t, ⟨-, -, ⟨n, hnode, hfile⟩, -, -⟩, rfl, -⟩ := h
  obtain ⟨dir', stem', t', ⟨-, -, ⟨n', hnode', -⟩, -, -⟩, hrel', -⟩ := h'
  rw [← hrel', ← List.append_assoc] at hnode'
  by_cases hrest : rest = []
  · rw [hrest, List.append_nil]
  · rw [hd.directory_of_prefix hrest hnode'] at hnode
    obtain rfl := Option.some.inj hnode
    contradiction

/-- Of the files that give a class of the name, the walk comes to `rel` last. -/
def LastToGive (d : Disk) (options : ScanOptions) (root : Text) (top : List Text) (name : Text)
    (rel : List Text) (u : SourceUnit) : Prop :=
  Gives d options root top rel u ∧ u.name = name ∧
    ∀ rel' u', Gives d options root top rel' u' → u'.name = name →
      rel' = rel ∨ Disk.Precedes rel' rel

/-- To come last among the entries is to come last among the files that give the class, since directories
give none. -/
theorem exists_isLast_iff (hd : d.IsTree) (hroot : Path.isAbsolute root = true) {name : Text}
    {u : SourceUnit} :
    (∃ e, UnitMap.IsLast Prod.fst (classOf? d root options.extension ∘ visitAt root)
        (walked d options.ignored top) name e u) ↔
      ∃ rel, LastToGive d options root top name rel u := by
  constructor
  · rintro ⟨⟨rel, n⟩, hmem, hclass, hname, hothers⟩
    have hgives : Gives d options root top rel u := (gives_iff hd hroot).mpr ⟨n, hmem, hclass⟩
    refine ⟨rel, hgives, hname, ?_⟩
    intro rel' u' hgives' hname'
    obtain ⟨n', hmem', hclass'⟩ := (gives_iff hd hroot).mp hgives'
    rcases hothers (rel', n') hmem' u' hclass' hname' with heq | hbefore
    · exact Or.inl (congrArg Prod.fst heq)
    · -- the walk would come to a directory before its contents, but both are files
      rcases Disk.prefix_or_precedes hbefore with hleads | hprecedes
      · exact Or.inl (hgives'.eq_of_prefix hd hgives hleads)
      · exact Or.inr hprecedes
  · rintro ⟨rel, hgives, hname, hothers⟩
    obtain ⟨n, hmem, hclass⟩ := (gives_iff hd hroot).mp hgives
    refine ⟨(rel, n), hmem, hclass, hname, ?_⟩
    rintro ⟨rel', n'⟩ hmem' u' hclass' hname'
    rcases hothers rel' u' ((gives_iff hd hroot).mpr ⟨n', hmem', hclass'⟩) hname' with rfl | hprecedes
    · have hnode := ((mem_walked_iff hd).mp hmem).2.1
      have hnode' := ((mem_walked_iff hd).mp hmem').2.1
      exact Or.inl (congrArg _ (Option.some.inj (hnode'.symm.trans hnode)))
    · exact Or.inr hprecedes.before

/-- The class found under a name is that of the last file to give it. -/
theorem find?_classes_iff (hd : d.IsTree) (hroot : Path.isAbsolute root = true)
    (htop : d.resolve false root = .ok top) (hdirectory : d.node? top = some .directory)
    {name : Text} {u : SourceUnit} : (classes d options root).find? name = some u ↔
      ∃ rel, LastToGive d options root top name rel u := by
  rw [classes_of_directory htop hdirectory,
    UnitMap.find?_foldl_add_iff (increasingBy_walked d options.ignored top)]
  exact exists_isLast_iff hd hroot

end TreeScan

namespace Catalog

open TreeScan

variable {d : Disk} {options : ScanOptions} {root path : Text} {top : List Text}

/-- A scan of a valid root is interrupted, or it collects the classes that the entries of its walk give. -/
theorem scan_cases (options : ScanOptions) (hvalid : validRoot d root = .ok path) (budget : Budget) :
    (budget.left ≠ none ∧ ∃ i, scan d options budget root = .error (.interrupted i)) ∨
    ∃ c cache, scan d options budget root = .ok (c, cache) ∧ c.root = path ∧
      c.modules = TreeScan.modules d options.ignored path ∧ c.units = classes d options path ∧
      c.stats.registered = c.units.size ∧
      c.stats.scanned =
        c.stats.unreadable + c.stats.withoutPackage + c.stats.collisions + c.stats.registered := by
  let start : Progress := ⟨UnitMap.empty, [], {}, TextCache.ofSize options.cacheSize⟩
  unfold scan
  rw [hvalid]
  dsimp only
  rcases collect_cases (d := d) options.extension (visits d options.ignored path) budget start with
    ⟨hleft, i, hstop⟩ | ⟨p, hp, hunits⟩
  · rw [hstop]
    exact Or.inl ⟨hleft, i, rfl⟩
  · have hcounted : Counted p :=
      collect_induction (P := Counted) (fun v _ p h => h.index v.path) (show Counted start from rfl) hp
    rw [hp]
    exact Or.inr ⟨_, _, rfl, rfl, rfl, hunits, rfl, hcounted⟩

/-- A scan that succeeds has a valid root and found what the walk gives, whatever its budget was. -/
theorem units_of_scan {c : Catalog} {budget : Budget} {cache : TextCache}
    (hscan : scan d options budget root = .ok (c, cache)) :
    validRoot d root = .ok c.root ∧ c.units = classes d options c.root := by
  obtain ⟨p, hvalid, -⟩ := scan_eq_ok hscan
  refine ⟨hvalid, ?_⟩
  rcases scan_cases options hvalid budget with ⟨-, i, hstop⟩ | ⟨c', cache', hscan', -, -, hunits, -⟩
  · rw [hstop] at hscan
    contradiction
  · obtain ⟨rfl, -⟩ := Prod.mk.inj (Except.ok.inj (hscan'.symm.trans hscan))
    exact hunits

/-- What is seen of a scan says that it succeeded. -/
theorem exists_scan_of_map {budget : Budget} {α : Type} {f : Catalog → α} {a : α}
    (h : ((scan d options budget root).toOption.map fun r => f r.1) = some a) :
    ∃ c cache, scan d options budget root = .ok (c, cache) ∧ f c = a := by
  cases hscan : scan d options budget root with
  | error e =>
    rw [hscan] at h
    contradiction
  | ok r =>
    rw [hscan] at h
    exact ⟨r.1, r.2, rfl, Option.some.inj h⟩

/-- Every class that a scan finds comes from a file below the root. -/
theorem exists_gives {c : Catalog} {budget : Budget} {cache : TextCache} (hd : d.IsTree)
    (hscan : scan d options budget root = .ok (c, cache)) {name : Text} {u : SourceUnit}
    (hu : c.unit? name = some u) : ∃ top rel, Gives d options c.root top rel u := by
  obtain ⟨hvalid, hunits⟩ := units_of_scan hscan
  have hroot : Path.isAbsolute c.root = true := (isClean_of_validRoot hd.grounded hvalid).1
  rw [unit?, hunits] at hu
  by_cases hnode : d.nodeAt false c.root = .ok .directory
  · obtain ⟨top, htop, hdirectory⟩ := Disk.nodeAt_eq_ok_iff.mp hnode
    obtain ⟨rel, hgives, -⟩ := (find?_classes_iff hd hroot htop hdirectory).mp hu
    exact ⟨top, rel, hgives⟩
  · rw [classes_of_not_directory hvalid hnode] at hu
    contradiction

end Catalog

end ClassAtlas
