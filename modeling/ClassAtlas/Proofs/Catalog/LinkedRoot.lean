import ClassAtlas.Proofs.Catalog.Exact
import ClassAtlas.Proofs.Disk.Links
import ClassAtlas.Proofs.Path.Shape

namespace ClassAtlas

/-- What a class is apart from the path of its file: its name, package and module. -/
def SourceUnit.brief (u : SourceUnit) : Text × Text × Text := (u.name, u.package, u.module)

namespace UnitMap

/-- The classes without their paths. -/
def briefs (m : UnitMap) : SortedMap Text (Text × Text × Text) := m.entries.map fun _ u => u.brief

/-- A class that is added is entered without its path. -/
theorem briefs_add (m : UnitMap) (u : SourceUnit) :
    (m.add u).briefs = m.briefs.insert u.name u.brief := by
  apply SortedMap.ext
  intro name
  simp only [briefs, add, SortedMap.find?_map, SortedMap.find?_insert]
  split <;> rfl

/-- Classes that are added one after the other are entered without their paths. -/
theorem briefs_foldl_add (m : UnitMap) (us : List SourceUnit) : (us.foldl add m).briefs =
    (us.map SourceUnit.brief).foldl (fun entries b => entries.insert b.1 b) m.briefs := by
  induction us generalizing m with
  | nil => rfl
  | cons u rest ih =>
    rw [List.foldl_cons, ih, briefs_add]
    rfl

end UnitMap

/-- The names, packages and modules of all classes, in the order of their names. -/
def Catalog.outline (c : Catalog) : List (Text × Text × Text) := c.list.map SourceUnit.brief

/-- The outline is read off the classes without their paths. -/
theorem Catalog.outline_eq_values (c : Catalog) : c.outline = c.units.briefs.values := by
  simp [outline, list, UnitMap.briefs, SortedMap.values, SortedMap.map]

namespace TreeScan

variable {d : Disk} {root path extension : Text} {top : List Text}

/-- The path of a directory of a tree is a root as it stands. -/
theorem validRoot_pathOf (hd : d.IsTree) (htop : d.node? top = some .directory) :
    validRoot d (Disk.pathOf top) = .ok (Disk.pathOf top) := by
  have hblank : (Blank.trim (Disk.pathOf top)).isEmpty = false :=
    Path.isEmpty_trim (Disk.isClean_pathOf (hd.isName htop)).1
  have hpath : Path.absolute d.workdir (Disk.pathOf top) = Disk.pathOf top :=
    (Disk.isClean_pathOf (hd.isName htop)).2
  have hnode : d.nodeAt true (Disk.pathOf top) = .ok .directory :=
    Disk.nodeAt_eq_ok_iff.mpr ⟨top, hd.resolve_pathOf_self htop, htop⟩
  simp [validRoot, hblank, hpath, hnode, Node.isDirectory]

/-- The class of an entry depends on the root only by what can be read through it. -/
theorem brief_classOf? {dir : List Text} {name : Text} {n : Node} (hroot : Path.isAbsolute root = true)
    (h : ∀ s ∈ dir ++ [name], Path.IsName s) :
    (classOf? d root extension (visitAt root (dir ++ [name], n))).map SourceUnit.brief =
      if n.isDirectory = false ∧ name.endsWith extension = true then
        (d.readFile (Path.join (root :: (dir ++ [name])))).toOption.bind fun t =>
          if Source.package t = [] then none
          else some (Source.package t ++ "." ++ name.dropTail extension, Source.package t,
            (dir ++ [name]).head?.getD [])
      else none := by
  unfold classOf? visitAt
  rw [Path.base_join_names hroot h]
  split
  · cases d.readFile (Path.join (root :: (dir ++ [name]))) with
    | error e => rfl
    | ok t =>
      by_cases hpackage : Source.package t = []
      · simp [Except.toOption, hpackage]
      · simp [Except.toOption, hpackage, unitOf_join_names hroot h, SourceUnit.brief]
  · rfl

/-- Results that succeed alike are the same up to their errors. -/
theorem toOption_congr {ε α : Type} {x y : Except ε α} (h : ∀ a, x = .ok a ↔ y = .ok a) :
    x.toOption = y.toOption := by
  cases x with
  | ok a => rw [(h a).mp rfl]
  | error e =>
    cases y with
    | ok b => exact absurd ((h b).mpr rfl) (by simp)
    | error e' => rfl

/-- Through another path to the same directory the walk gives the same classes up to their paths, if no
class needs more links than there may be. -/
theorem briefs_through (hd : d.IsTree) (hpath : Path.IsClean path)
    (hresolve : d.resolve true path = .ok top) (htop : d.node? top = some .directory)
    (hlinks : d.WithinLinks path top) (ignored : List Text) :
    ((walked d ignored top).filterMap (classOf? d path extension ∘ visitAt path)).map SourceUnit.brief =
      ((walked d ignored top).filterMap
        (classOf? d (Disk.pathOf top) extension ∘ visitAt (Disk.pathOf top))).map SourceUnit.brief := by
  rw [List.map_filterMap, List.map_filterMap]
  apply List.filterMap_congr
  rintro ⟨rel, n⟩ hmem
  have hbelow : (rel, n) ∈ d.below top := (walked_sublist d ignored top).subset hmem
  obtain ⟨hne, hnode⟩ := Disk.mem_below_iff.mp hbelow
  have hnames := hd.isName_below hnode
  have hread : (d.readFile (Path.join (path :: rel))).toOption =
      (d.readFile (Path.join (Disk.pathOf top :: rel))).toOption :=
    toOption_congr fun _ => hd.readFile_below hpath hresolve htop hlinks hbelow
  obtain ⟨dir, name, rfl⟩ := (List.eq_nil_or_concat' rel).resolve_left hne
  have hreal := Disk.isClean_pathOf (hd.isName htop)
  rw [Function.comp, Function.comp, brief_classOf? hpath.1 hnames, brief_classOf? hreal.1 hnames, hread]

/-- A root that is itself a directory has the classes of the directory that its path leads to. -/
theorem briefs_classes (hd : d.IsTree) (hpath : Path.IsClean path)
    (hresolve : d.resolve true path = .ok top) (hlinks : d.WithinLinks path top)
    (hnode : d.nodeAt false path = .ok .directory) (options : ScanOptions) :
    (classes d options path).briefs = (classes d options (Disk.pathOf top)).briefs := by
  obtain ⟨place, hplace, hdirectory⟩ := Disk.nodeAt_eq_ok_iff.mp hnode
  have hsame : top = place := by
    have hfollow := Disk.resolve_follow (by simp [hdirectory]) hplace
    exact Except.ok.inj (hresolve.symm.trans hfollow)
  subst hsame
  rw [classes_of_directory hplace hdirectory,
    classes_of_directory (hd.resolve_pathOf_self hdirectory) hdirectory, UnitMap.briefs_foldl_add,
    UnitMap.briefs_foldl_add, briefs_through hd hpath hresolve hdirectory hlinks]

end TreeScan

namespace Catalog

open TreeScan

variable {d : Disk} {root path : Text} {top : List Text}

/-- A valid root has the modules of the directory that it leads to. As far as the links to its files
suffice it has the same classes exactly if its path does not end in a link or the directory has no
class, since a link has none. -/
theorem outline_eq_iff (hd : d.IsTree) (hvalid : validRoot d root = .ok path)
    (hresolve : d.resolve true path = .ok top) (options : ScanOptions) {budget : Budget}
    (hbudget : budget.left = none) :
    ∃ c cache real realCache, scan d options budget root = .ok (c, cache) ∧
      scan d options budget (Disk.pathOf top) = .ok (real, realCache) ∧ c.modules = real.modules ∧
      (d.nodeAt false path ≠ .ok .directory → c.outline = []) ∧
      (d.WithinLinks path top →
        (c.outline = real.outline ↔ d.nodeAt false path = .ok .directory ∨ real.outline = [])) := by
  have hpath : Path.IsClean path := isClean_of_validRoot hd.grounded hvalid
  have htop : d.node? top = some .directory := by
    obtain ⟨place, hplace, hdirectory⟩ := Disk.nodeAt_eq_ok_iff.mp (nodeAt_of_validRoot hvalid)
    rwa [Except.ok.inj (hresolve.symm.trans hplace)]
  rcases scan_cases options hvalid budget with
    ⟨hleft, -⟩ | ⟨c, cache, hscan, -, hmodules, hunits, -⟩
  · exact absurd hbudget hleft
  rcases scan_cases options (validRoot_pathOf hd htop) budget with
    ⟨hleft, -⟩ | ⟨real, realCache, hrealScan, -, hrealModules, hrealUnits, -⟩
  · exact absurd hbudget hleft
  have hlink : d.nodeAt false path ≠ .ok .directory → c.outline = [] := by
    intro hnode
    rw [outline, list, hunits, classes_of_not_directory hvalid hnode]
    rfl
  have hdirectory : d.WithinLinks path top → d.nodeAt false path = .ok .directory →
      c.outline = real.outline := by
    intro hlinks hnode
    rw [outline_eq_values, outline_eq_values, hunits, hrealUnits,
      briefs_classes hd hpath hresolve hlinks hnode]
  refine ⟨c, cache, real, realCache, hscan, hrealScan, ?_, hlink, ?_⟩
  · rw [hmodules, hrealModules, TreeScan.modules, TreeScan.modules, hresolve,
      hd.resolve_pathOf_self htop]
  · intro hlinks
    by_cases hnode : d.nodeAt false path = .ok .directory
    · simp [hnode, hdirectory hlinks hnode]
    · rw [hlink hnode]
      simp only [hnode, false_or]
      exact eq_comm

/-- A directory with a class, a link to the directory and a link to the one above it. -/
def linkedDisk : Disk :=
  (((Disk.blank "/").put ["r", "app", "m", "A.java"] (.file "package p;\n")).put ["above"]
    (.link "r")).put ["link"] (.link "/r/app")

/-- A link above the root makes no difference to the outline. -/
theorem outline_eq_through_link :
    linkedDisk.IsTree ∧ validRoot linkedDisk "/above/app" = .ok "/above/app" ∧
    linkedDisk.resolve true "/above/app" = .ok ["r", "app"] ∧
    linkedDisk.WithinLinks "/above/app" ["r", "app"] ∧
    ∃ c cache real realCache, scan linkedDisk {} Budget.unlimited "/above/app" = .ok (c, cache) ∧
      scan linkedDisk {} Budget.unlimited "/r/app" = .ok (real, realCache) ∧
      c.outline = real.outline := by
  have hd : linkedDisk.IsTree := by decide
  have hvalid : validRoot linkedDisk "/above/app" = .ok "/above/app" := by rfl
  have hresolve : linkedDisk.resolve true "/above/app" = .ok ["r", "app"] := by rfl
  have hlinks : linkedDisk.WithinLinks "/above/app" ["r", "app"] := by
    have hreach : ∀ e ∈ linkedDisk.below ["r", "app"],
        (linkedDisk.resolve true (Path.join ("/above/app" :: e.1))).isOk = true := by decide
    intro e he t _ hmany
    have hok := hreach e he
    rw [hmany] at hok
    contradiction
  refine ⟨hd, hvalid, hresolve, hlinks, ?_⟩
  obtain ⟨c, cache, real, realCache, hscan, hrealScan, -, -, hsame⟩ :=
    outline_eq_iff hd hvalid hresolve {} (rfl : Budget.unlimited.left = none)
  exact ⟨c, cache, real, realCache, hscan, hrealScan, (hsame hlinks).mpr (Or.inl rfl)⟩

/-- A root that is a link itself is not walked, and its catalog has no class. -/
theorem outline_of_link :
    ∃ c cache real realCache, scan linkedDisk {} Budget.unlimited "/link" = .ok (c, cache) ∧
      scan linkedDisk {} Budget.unlimited "/r/app" = .ok (real, realCache) ∧
      c.modules = real.modules ∧ c.outline = [] ∧ real.outline = [⟨"p.A", "p", "m"⟩] := by
  have hseen : ((scan linkedDisk {} Budget.unlimited "/link").toOption.map fun r =>
      (r.1.modules, r.1.outline)) = some ([("m" : Text)], []) := by decide
  have hrealSeen : ((scan linkedDisk {} Budget.unlimited "/r/app").toOption.map fun r =>
      (r.1.modules, r.1.outline)) = some ([("m" : Text)], [⟨"p.A", "p", "m"⟩]) := by decide
  obtain ⟨c, cache, hscan, hfound⟩ := exists_scan_of_map (f := fun c => (c.modules, c.outline)) hseen
  obtain ⟨real, realCache, hrealScan, hrealFound⟩ :=
    exists_scan_of_map (f := fun c => (c.modules, c.outline)) hrealSeen
  obtain ⟨hmodules, houtline⟩ := Prod.mk.inj hfound
  obtain ⟨hrealModules, hrealOutline⟩ := Prod.mk.inj hrealFound
  exact ⟨c, cache, real, realCache, hscan, hrealScan, hmodules.trans hrealModules.symm, houtline,
    hrealOutline⟩

end Catalog

end ClassAtlas
