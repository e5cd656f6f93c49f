import ClassAtlas.Proofs.Catalog.Exact

namespace ClassAtlas

namespace ClassName

variable {stem last : Text}

/-- The package of a name goes up to its last dot. -/
theorem package_append (front : Text) (hlast : Text.dot ∉ last) : package (front ++ Text.dot :: last) = front := by
  rw [package, Text.cutAtLast?_append front hlast]

/-- The simple name goes from the last dot on. -/
theorem simple_append (front : Text) (hlast : Text.dot ∉ last) : simple (front ++ Text.dot :: last) = last := by
  rw [simple, Text.cutAtLast?_append front hlast]

/-- A dot in the second part of a name moves what stands before it to the package. -/
theorem parts_of_dotted (front : Text) (hlast : Text.dot ∉ last) :
    package (front ++ Text.dot :: (stem ++ Text.dot :: last)) = front ++ Text.dot :: stem ∧
      simple (front ++ Text.dot :: (stem ++ Text.dot :: last)) = last := by
  have hname : front ++ Text.dot :: (stem ++ Text.dot :: last) = (front ++ Text.dot :: stem) ++ Text.dot :: last := by
    simp
  rw [hname]
  exact ⟨package_append _ hlast, simple_append _ hlast⟩

/-- The package of a class is read off its name exactly if the base has no dot. -/
theorem package_eq_iff (front base : Text) : package (front ++ Text.dot :: base) = front ↔ Text.dot ∉ base := by
  constructor
  · intro h hdot
    obtain ⟨stem, last, rfl, hlast⟩ := Text.exists_last_of_mem hdot
    rw [(parts_of_dotted front hlast).1] at h
    simpa using congrArg List.length h
  · exact package_append front

/-- The base of a class is read off its name exactly if it has no dot. -/
theorem simple_eq_iff (front base : Text) : simple (front ++ Text.dot :: base) = base ↔ Text.dot ∉ base := by
  constructor
  · intro h hdot
    obtain ⟨stem, last, rfl, hlast⟩ := Text.exists_last_of_mem hdot
    rw [(parts_of_dotted front hlast).2] at h
    have hlength := congrArg List.length h
    simp only [List.length_append, List.length_cons] at hlength
    omega
  · exact simple_append front

end ClassName

/-- A class that is found was there or was added. -/
theorem UnitMap.mem_of_find?_foldl_add {m : UnitMap} {us : List SourceUnit} {name : Text} {u : SourceUnit}
    (h : (us.foldl add m).find? name = some u) : m.find? name = some u ∨ u ∈ us := by
  induction us generalizing m with
  | nil => exact Or.inl h
  | cons v us ih =>
    rcases ih h with hadded | hmem
    · rw [find?_add] at hadded
      split at hadded
      · exact Or.inr (by simp [Option.some.inj hadded])
      · exact Or.inl hadded
    · exact Or.inr (List.mem_cons_of_mem v hmem)

namespace Catalog

variable {d : Disk} {options : ScanOptions} {budget : Budget} {root name : Text} {c : Catalog} {cache : TextCache}
  {u : SourceUnit}

/-- A class is named after its package and its file. -/
theorem exists_base (hscan : scan d options budget root = .ok (c, cache)) (hu : c.unit? name = some u) :
    ∃ base, Path.base u.path = base ++ options.extension ∧ u.name = u.package ++ Text.dot :: base := by
  rw [unit?, (units_of_scan hscan).2, TreeScan.classes] at hu
  rcases UnitMap.mem_of_find?_foldl_add hu with hempty | hmem
  · contradiction
  · obtain ⟨v, -, hv⟩ := List.mem_filterMap.mp hmem
    obtain ⟨-, hends, t, -, -, rfl⟩ := TreeScan.classOf?_eq_some_iff.mp hv
    obtain ⟨base, hbase⟩ := Text.endsWith_iff.mp hends
    refine ⟨base, hbase, ?_⟩
    dsimp only [TreeScan.unitOf]
    rw [hbase, Text.dropTail_append, List.append_assoc]
    rfl

/-- The package of a class and the package that its name is taken apart into are the same exactly if the name
of its file, without the extension, has no dot. Otherwise what stands before the last dot of the file's name
counts as part of the package. -/
theorem scan_names_agree_iff (hscan : scan d options budget root = .ok (c, cache)) (hu : c.unit? name = some u) :
    ∃ base, Path.base u.path = base ++ options.extension ∧ u.name = u.package ++ "." ++ base ∧
      (ClassName.package u.name = u.package ↔ Text.dot ∉ base) ∧
      (u.name = u.package ++ "." ++ ClassName.simple u.name ↔ Text.dot ∉ base) ∧
      ∀ stem last, base = stem ++ "." ++ last → Text.dot ∉ last →
        ClassName.package u.name = u.package ++ "." ++ stem ∧ ClassName.simple u.name = last := by
  obtain ⟨base, hbase, hname⟩ := exists_base hscan hu
  have hdot : ∀ front back : Text, front ++ Text.ofString "." ++ back = front ++ Text.dot :: back :=
    fun front back => List.append_assoc front [Text.dot] back
  simp only [hdot]
  refine ⟨base, hbase, hname, ?_, ?_, ?_⟩
  · rw [hname]
    exact ClassName.package_eq_iff u.package base
  · rw [hname, List.append_cancel_left_eq, List.cons.injEq, and_iff_right rfl, eq_comm]
    exact ClassName.simple_eq_iff u.package base
  · rintro stem last rfl hlast
    rw [hname]
    exact ClassName.parts_of_dotted u.package hlast

/-- Two classes of one package, one of them in a file with a dot in its name. -/
def generatedDisk : Disk :=
  ((Disk.blank "/").put ["r", "m", "B.java"] (.file "package p;\n")).put ["r", "m", "Order.gen.java"]
    (.file "package p;\n")

/-- The class in a file without a further dot has the package and simple name of its full name. -/
theorem scan_names_agree_plain :
    ∃ c cache, scan generatedDisk {} Budget.unlimited "/r" = .ok (c, cache) ∧
      c.unit? "p.B" = some ⟨"p.B", "p", "/r/m/B.java", "m"⟩ ∧ ClassName.package "p.B" = "p" ∧
      Text.ofString "p.B" = "p" ++ "." ++ ClassName.simple "p.B" := by
  have hseen : ((scan generatedDisk {} Budget.unlimited "/r").toOption.map fun r => r.1.unit? "p.B") =
      some (some ⟨"p.B", "p", "/r/m/B.java", "m"⟩) := by decide
  obtain ⟨c, cache, hscan, hfound⟩ := exists_scan_of_map (f := (·.unit? "p.B")) hseen
  obtain ⟨base, hbase, -, hpackage, hname, -⟩ := scan_names_agree_iff hscan hfound
  have hplain : Text.dot ∉ base := by
    have hfile : Text.ofString "B" ++ Text.ofString ".java" = base ++ Text.ofString ".java" := hbase
    rw [← List.append_cancel_right hfile]
    decide
  exact ⟨c, cache, hscan, hfound, hpackage.mpr hplain, hname.mpr hplain⟩

/-- The name of a file with a dot is not taken apart as it was put together: the class is in the package `p`,
but its name says `p.Order`. -/
theorem package_of_dotted_file :
    ∃ c cache u, scan generatedDisk {} Budget.unlimited "/r" = .ok (c, cache) ∧
      c.unit? "p.Order.gen" = some u ∧ u.package = Text.ofString "p" ∧
      ClassName.package u.name = Text.ofString "p.Order" ∧
      u.name ≠ u.package ++ "." ++ ClassName.simple u.name := by
  have hseen : ((scan generatedDisk {} Budget.unlimited "/r").toOption.map fun r => r.1.unit? "p.Order.gen") =
      some (some ⟨"p.Order.gen", "p", "/r/m/Order.gen.java", "m"⟩) := by decide
  obtain ⟨c, cache, hscan, hfound⟩ := exists_scan_of_map (f := (·.unit? "p.Order.gen")) hseen
  exact ⟨c, cache, _, hscan, hfound, rfl, by decide, by decide⟩

end Catalog

end ClassAtlas
