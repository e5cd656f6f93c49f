import ClassAtlas.Proofs.Dependency.Extract
import ClassAtlas.Proofs.Source.Imports

namespace ClassAtlas.Dependency

variable {t target : Text}

/-- The text has the import statement of the class with one blank in it. -/
def ImportsPlainly (t target : Text) : Prop := importStatement target <:+: t

/-- The text declares the package of the class. -/
def SharesPackage (t target : Text) : Prop :=
  Source.package t ≠ [] ∧ Source.package t = ClassName.package target

/-- The simple name of the class is a word of the text. -/
def Mentions (t target : Text) : Prop :=
  if Word.isIdentifier (ClassName.simple target) = true then Word.Stands t (ClassName.simple target)
  else ∃ p : Word.Pattern, p.word = ClassName.simple target ∧ Word.occurs t p = true

/-- The class has a simple name, which the text uses in the package of the class. -/
def MentionsInPackage (t target : Text) : Prop :=
  ClassName.simple target ≠ [] ∧ Mentions t target ∧ SharesPackage t target

/-- A class is used exactly if its simple name is a word of the text. -/
theorem isUsed_iff {c : ClassRef} : isUsed t (Word.runs t) c = true ↔ Mentions t c.name := by
  obtain ⟨name, pattern, hfits⟩ := c
  unfold isUsed Mentions
  by_cases hword : Word.isIdentifier (ClassName.simple name) = true
  · rw [if_pos hword, Option.map_eq_none_iff] at hfits
    subst hfits
    rw [if_pos hword]
    exact List.contains_iff_mem.trans (Word.mem_runs_iff hword)
  · rw [if_neg hword, Option.map_eq_some_iff] at hfits
    obtain ⟨p, rfl, hp⟩ := hfits
    rw [if_neg hword]
    constructor
    · exact fun hoccurs => ⟨p, hp, hoccurs⟩
    · rintro ⟨q, hq, hoccurs⟩
      obtain rfl : p = q := Word.Pattern.ext (hp.trans hq.symm)
      exact hoccurs

/-- Looking for the simple name succeeds exactly if it is a word of the text and not empty. -/
theorem isIn_simple_iff :
    Word.isIn t (ClassName.simple target) = some true ↔
      ClassName.simple target ≠ [] ∧ Mentions t target := by
  unfold Mentions
  by_cases hempty : ClassName.simple target = []
  · simp [Word.isIn, hempty]
  · by_cases hword : Word.isIdentifier (ClassName.simple target) = true
    · rw [Word.isIn_eq_contains_runs hword, if_pos hword, ← Word.mem_runs_iff hword]
      simp [hempty]
    · rw [Word.isIn_eq_some_iff hempty (Bool.not_eq_true _ ▸ hword), if_neg hword]
      simp [hempty]

/-- A class is visible exactly if the text shares its package or imports it with one blank. -/
theorem isVisible_iff :
    isVisible t (Source.package t) target = true ↔
      SharesPackage t target ∨ ImportsPlainly t target := by
  simp [isVisible, SharesPackage, ImportsPlainly, Text.includes_iff]

/-- The import that is looked for is the statement with one blank. -/
theorem importStatement_eq (target : Text) : importStatement target = Source.statement [32] target := by
  have hlead : Text.ofString "import " = Source.importWord ++ [32] := rfl
  have hend : Text.ofString ";" = [59] := rfl
  simp [importStatement, Source.statement, hlead, hend]

/-- A plain import statement is an import statement, if the name can stand in one. -/
theorem ImportsPlainly.imports (h : ImportsPlainly t target) (hname : Source.IsImportName target) :
    Source.Imports t target := by
  have hgap : Source.IsGap [32] := by
    refine ⟨by simp, fun b hb => ?_⟩
    rw [List.mem_singleton.mp hb]
    rfl
  refine ⟨hname, [32], hgap, ?_⟩
  rw [← importStatement_eq]
  exact h

/-- A text refers to a class exactly if it imports it plainly, or uses its simple name in its package. -/
theorem refersTo_iff :
    refersTo t target = some true ↔ ImportsPlainly t target ∨ MentionsInPackage t target := by
  have hshares : (!(Source.package t).isEmpty && Source.package t == ClassName.package target) = true ↔
      SharesPackage t target := by
    simp [SharesPackage]
  unfold refersTo MentionsInPackage ImportsPlainly
  rw [← Text.includes_iff, ← and_assoc, ← isIn_simple_iff, ← hshares]
  by_cases hplain : t.includes (importStatement target) = true
  · simp [hplain]
  · cases Word.isIn t (ClassName.simple target) with
    | none => simp [hplain]
    | some used => cases used <;> simp [hplain]

/-- The check has an answer for every class that can be looked for. -/
theorem exists_refersTo (hvalid : Utf8.isValid (ClassName.simple target) = true) :
    ∃ answer, refersTo t target = some answer := by
  obtain ⟨used, hused⟩ := Word.exists_isIn (t := t) hvalid
  unfold refersTo
  split
  · exact ⟨_, rfl⟩
  · exact ⟨_, by rw [hused, Option.map_some]⟩

/-- The search finds a class by an import statement, or by its simple name where the package or a
plain import statement makes it visible. -/
theorem mem_extract_iff {x : Extractor} :
    (∃ dep ∈ x.extract t, dep.target = target) ↔ target ∈ x.names ∧
      (Source.Imports t target ∨
        Mentions t target ∧ (SharesPackage t target ∨ ImportsPlainly t target)) := by
  have hrules : ∀ c : ClassRef, (rulesFor t (Source.package t) (Source.imports t) (Word.runs t) c !=
      Rules.none) = true ↔ Source.Imports t c.name ∨
        Mentions t c.name ∧ (SharesPackage t c.name ∨ ImportsPlainly t c.name) := by
    intro c
    rw [← Source.mem_imports_iff, ← isUsed_iff, ← isVisible_iff, ← List.contains_iff_mem,
      ← Bool.and_eq_true, rulesFor]
    cases (Source.imports t).contains c.name <;>
      cases (isUsed t (Word.runs t) c && isVisible t (Source.package t) c.name) <;> decide
  simp only [Extractor.extract, List.mem_filter, List.mem_map]
  constructor
  · rintro ⟨dep, ⟨⟨c, hc, rfl⟩, hfound⟩, rfl⟩
    exact ⟨Extractor.name_mem_names hc, (hrules c).mp hfound⟩
  · rintro ⟨hname, hfound⟩
    obtain ⟨c, hc, rfl⟩ := Extractor.exists_mem_classes hname
    exact ⟨_, ⟨⟨c, hc, rfl⟩, (hrules c).mpr hfound⟩, rfl⟩

/-- The check finds no class that the search misses, if its name can stand in an import statement. -/
theorem exists_mem_extract_of_refersTo {x : Extractor} (hmem : target ∈ x.names)
    (hname : Source.IsImportName target) (h : refersTo t target = some true) :
    ∃ dep ∈ x.extract t, dep.target = target := by
  refine mem_extract_iff.mpr ⟨hmem, ?_⟩
  rcases refersTo_iff.mp h with hplain | ⟨-, hmentions, hshares⟩
  · exact Or.inl (hplain.imports hname)
  · exact Or.inr ⟨hmentions, Or.inl hshares⟩

/-- The check for one class of a catalog has an answer, which agrees with the search for all of them
except in three cases. An import statement is written with another gap than one blank, and nothing else refers to the
class. The class has no simple name, and the empty name is found at the edge of a word. A plain import
statement has a name that no import statement can have, and the simple name is no word of the text. -/
theorem refersTo_agrees_iff (x : Extractor) (t : Text) {target : Text} (hmem : target ∈ x.names) :
    ∃ answer, refersTo t target = some answer ∧
      ((answer = true ↔ ∃ dep ∈ x.extract t, dep.target = target) ↔
        ¬(Source.Imports t target ∧ ¬ImportsPlainly t target ∧ ¬MentionsInPackage t target) ∧
        ¬(ClassName.simple target = [] ∧ Mentions t target ∧ SharesPackage t target ∧
          ¬ImportsPlainly t target) ∧
        ¬(ImportsPlainly t target ∧ ¬Source.IsImportName target ∧ ¬Mentions t target)) := by
  obtain ⟨answer, hanswer⟩ := exists_refersTo (t := t) (Extractor.isValid_simple hmem)
  refine ⟨answer, hanswer, ?_⟩
  have hrefers : answer = true ↔ ImportsPlainly t target ∨ MentionsInPackage t target := by
    rw [← refersTo_iff, hanswer, Option.some.injEq]
  rw [hrefers, mem_extract_iff]
  by_cases hplain : ImportsPlainly t target
  · have himports : Source.Imports t target ↔ Source.IsImportName target := ⟨And.left, hplain.imports⟩
    simp [hplain, hmem, himports, imp_iff_not_or]
  · by_cases hshared : Mentions t target ∧ SharesPackage t target
    · simp only [MentionsInPackage, hplain, hmem, hshared]
      by_cases hsimple : ClassName.simple target = [] <;> simp [hsimple]
    · have hpackage : ¬MentionsInPackage t target := fun h => hshared h.2
      simp only [hplain, hpackage, hmem, hshared, or_false, true_and, and_false, not_false_eq_true,
        and_true, false_and, false_iff]

/-- A catalog of one class. -/
def loneCatalog : Catalog where
  root := "/"
  extension := ".java"
  units := UnitMap.empty.add ⟨"p.B", "p", "/m/B.java", "m"⟩
  modules := ["m"]
  readErrors := []
  stats := ⟨1, 1, 0, 0, 0⟩

/-- The search for that class. -/
def loneExtractor : Extractor := (Extractor.of? loneCatalog).get rfl

/-- An import with another gap does no harm where the class is used in its own package. -/
theorem refersTo_agrees_in_package : Text.ofString "p.B" ∈ loneExtractor.names ∧
    (refersTo "package p;\nimport\tp.B;\nB b;" "p.B" = some true ↔
      ∃ dep ∈ loneExtractor.extract "package p;\nimport\tp.B;\nB b;", dep.target = "p.B") := by
  have hmem : Text.ofString "p.B" ∈ loneExtractor.names := by decide
  have hmentions : MentionsInPackage "package p;\nimport\tp.B;\nB b;" "p.B" :=
    ⟨by decide, (isUsed_iff (c := ⟨"p.B", none, rfl⟩)).mp rfl, by decide, rfl⟩
  obtain ⟨answer, hanswer, hagrees⟩ := refersTo_agrees_iff loneExtractor _ hmem
  refine ⟨hmem, ?_⟩
  rw [hanswer, Option.some.injEq]
  refine hagrees.mpr ⟨?_, ?_, ?_⟩
  · exact fun h => h.2.2 hmentions
  · exact fun h => hmentions.1 h.1
  · exact fun h => h.2.2 hmentions.2.1

/-- An import statement with two blanks is found by the search and not by the check. -/
theorem not_refersTo_of_two_blanks : Text.ofString "p.B" ∈ loneExtractor.names ∧
    refersTo "package q;\nimport  p.B;\nclass X {}\n" "p.B" = some false ∧
    loneExtractor.extract "package q;\nimport  p.B;\nclass X {}\n" = [⟨"p.B", Rules.imported⟩] := by
  decide

end ClassAtlas.Dependency
