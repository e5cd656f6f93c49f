import ClassAtlas.Proofs.Catalog.Exact
import ClassAtlas.Proofs.Path.Shape

namespace ClassAtlas

namespace Path

variable {root first : Text} {more names : List Text}

/-- Joined names start with two dots if the first of them does. -/
theorem startsWith_up_join (first : Text) (more : List Text) :
    (Text.join [Text.slash] (first :: more)).startsWith ".." = first.startsWith ".." := by
  have hup : (".." : Text) = [46, 46] := rfl
  cases more with
  | nil => simp [Text.join]
  | cons next rest =>
    rw [Text.join_slash_cons, hup]
    -- the slash behind the first name cannot be the second of the dots
    rcases first with _ | ⟨a, _ | ⟨b, tail⟩⟩
    all_goals simp [Text.startsWith, Text.slash, List.isPrefixOf]

/-- Joined names are no absolute path. -/
theorem isAbsolute_join_cons (hfirst : IsName first) (more : List Text) :
    isAbsolute (Text.join [Text.slash] (first :: more)) = false := by
  have hjoined := isAbsolute_join_append hfirst.1 more []
  rwa [List.append_nil] at hjoined

/-- A clean path with names behind it is split into its segments and the names, with an empty part before
the first slash. -/
theorem split_join_names (hroot : IsClean root) (hne : names ≠ []) (h : ∀ s ∈ names, IsName s) :
    (join (root :: names)).split Text.slash = [] :: (segments root ++ names) := by
  have hsplit := split_join (List.append_ne_nil_of_right_ne_nil _ hne) (isName_of_mem_append hroot.1 h)
  have hslash : ∀ t, Text.split (Text.slash :: t) Text.slash = [] :: Text.split t Text.slash := by
    simp [Text.split]
  rw [join_names hroot.1 h, hslash, hsplit, hroot.cleanSegments_eq]

end Path

namespace Catalog

variable {d : Disk} {options : ScanOptions} {budget : Budget} {root : Text} {c : Catalog}
  {cache : TextCache}

/-- A path below the root is made relative, unless the first name behind the root starts with two dots. -/
theorem relativeTo_join_names {root first : Text} {more : List Text}
    (hroot : Path.isAbsolute root = true) (h : ∀ s ∈ first :: more, Path.IsName s) :
    relativeTo root (Path.join (root :: first :: more)) =
      if first.startsWith ".." then Path.join (root :: first :: more)
      else Text.join [Text.slash] (first :: more) := by
  unfold relativeTo
  rw [Path.relative?_join_names hroot (List.cons_ne_nil first more) h]
  dsimp only
  rw [Path.startsWith_up_join]

/-- A class lies where the names from the root to its file lead, and the first of them is its module.
Its path as seen from the root consists of these names, and so starts with the module, exactly if the
module does not start with two dots. -/
theorem relPath_starts_with_module_iff (hd : d.IsTree)
    (hscan : scan d options budget root = .ok (c, cache)) {name : Text} {u : SourceUnit}
    (hu : c.unit? name = some u) :
    ∃ names, u.path = Path.join (c.root :: names) ∧ (∀ s ∈ names, Path.IsName s) ∧
      names.head? = some u.module ∧
      (c.relPath u.path).split Text.slash =
        (if u.module.startsWith ".." then [] :: (Path.segments c.root ++ names) else names) ∧
      Path.isAbsolute (c.relPath u.path) = u.module.startsWith ".." ∧
      (((c.relPath u.path).split Text.slash).head? = some u.module ↔
        u.module.startsWith ".." = false) := by
  have hclean : Path.IsClean c.root :=
    TreeScan.isClean_of_validRoot hd.grounded (units_of_scan hscan).1
  obtain ⟨top, rel, dir, stem, t, hsource, rfl, rfl⟩ := exists_gives hd hscan hu
  obtain ⟨n, hnode, -⟩ := hsource.entry
  have hnames := hd.isName_below hnode
  obtain ⟨first, more, hrel⟩ : ∃ first more, dir ++ [stem ++ options.extension] = first :: more :=
    List.exists_cons_of_ne_nil (by simp)
  rw [hrel] at hnames ⊢
  have hfirst : Path.IsName first := hnames first List.mem_cons_self
  refine ⟨first :: more, rfl, hnames, rfl, ?_⟩
  dsimp only [List.head?_cons, Option.getD_some]
  rw [relPath, relativeTo_join_names hclean.1 hnames]
  by_cases hdots : first.startsWith ".." = true
  · have hsplit := Path.split_join_names hclean (List.cons_ne_nil first more) hnames
    have habsolute := (Path.isClean_join hclean.1 (first :: more)).1
    simp [hdots, hsplit, habsolute, hfirst.1.1.symm]
  · have hsplit := Path.split_join (List.cons_ne_nil first more) hnames
    simp [hdots, hsplit, Path.isAbsolute_join_cons hfirst]

/-- Two classes, one of them in a directory whose name starts with two dots. -/
def dottedDisk : Disk :=
  ((Disk.blank "/").put ["r", "..m", "A.java"] (.file "package p;\n")).put ["r", "m", "s", "B.java"]
    (.file "package p;\n")

/-- The relative path of a class in an ordinary directory starts with its module. -/
theorem relPath_starts_with_module_plain :
    dottedDisk.IsTree ∧ ∃ c cache, scan dottedDisk {} Budget.unlimited "/r" = .ok (c, cache) ∧
      c.unit? "p.B" = some ⟨"p.B", "p", "/r/m/s/B.java", "m"⟩ ∧
      ((c.relPath "/r/m/s/B.java").split Text.slash).head? = some "m" := by
  have hd : dottedDisk.IsTree := by decide
  have hseen : ((scan dottedDisk {} Budget.unlimited "/r").toOption.map fun r => r.1.unit? "p.B") =
      some (some ⟨"p.B", "p", "/r/m/s/B.java", "m"⟩) := by decide
  obtain ⟨c, cache, hscan, hfound⟩ := exists_scan_of_map (f := (·.unit? "p.B")) hseen
  obtain ⟨names, -, -, -, -, -, hmodule⟩ := relPath_starts_with_module_iff hd hscan hfound
  exact ⟨hd, c, cache, hscan, hfound, hmodule.mpr rfl⟩

/-- The path of a class in a directory that starts with two dots is not made relative. -/
theorem relPath_dotted :
    ∃ c cache, scan dottedDisk {} Budget.unlimited "/r" = .ok (c, cache) ∧
      c.unit? "p.A" = some ⟨"p.A", "p", "/r/..m/A.java", "..m"⟩ ∧
      c.relPath "/r/..m/A.java" = "/r/..m/A.java" ∧
      ((c.relPath "/r/..m/A.java").split Text.slash).head? ≠ some "..m" := by
  have hseen : ((scan dottedDisk {} Budget.unlimited "/r").toOption.map fun r =>
      (r.1.unit? "p.A", r.1.relPath "/r/..m/A.java")) =
        some (some (⟨"p.A", "p", "/r/..m/A.java", "..m"⟩ : SourceUnit), ("/r/..m/A.java" : Text)) := by
    decide
  obtain ⟨c, cache, hscan, hfound⟩ :=
    exists_scan_of_map (f := fun c => (c.unit? "p.A", c.relPath "/r/..m/A.java")) hseen
  obtain ⟨hunit, hrel⟩ := Prod.mk.inj hfound
  refine ⟨c, cache, hscan, hunit, hrel, ?_⟩
  rw [hrel]
  decide

end Catalog

end ClassAtlas
