import ClassAtlas.Proofs.Graph.Completed

namespace ClassAtlas.Build

open ClassGraph GraphDocument Dependency

variable {c : Catalog} {x : Extractor} {d : Disk} {b : Build} {found : Text → Except SourceError (List Dependency)}

section

variable {limits : GraphLimits} {cache : TextCache} {n : Nat}

end

/-- A disk with three classes, of which the second uses the third and the third uses the first. -/
def chainDisk : Disk :=
  (((Disk.blank "/").put ["m", "A.java"] (.file "package p;")).put ["m", "B.java"]
    (.file "package p;\nC c;")).put ["m", "C.java"] (.file "package p;\nimport p.A;")

/-- The catalog of the three classes. -/
def chainCatalog : Catalog where
  root := "/"
  extension := ".java"
  units := ((UnitMap.empty.add ⟨"p.A", "p", "/m/A.java", "m"⟩).add
    ⟨"p.B", "p", "/m/B.java", "m"⟩).add ⟨"p.C", "p", "/m/C.java", "m"⟩
  modules := ["m"]
  readErrors := []
  stats := ⟨3, 3, 0, 0, 0⟩

/-- The cache after the scan, with the text read last at the front. -/
def chainCache : TextCache :=
  ⟨4096, [("/m/C.java", "package p;\nimport p.A;"), ("/m/B.java", "package p;\nC c;"),
    ("/m/A.java", "package p;")]⟩

/-- The search for the three classes, whose simple names are words. -/
def chainExtractor : Extractor := (Extractor.of? chainCatalog).get rfl

end ClassAtlas.Build
