import ClassAtlas.Proofs.Dependency.Extract
import ClassAtlas.Proofs.Dependency.References

namespace ClassAtlas

namespace Dependency

variable {t name : Text} {c : ClassRef} {x : Extractor} {deps : List Dependency}

/-- A class is listed with a rule. -/
def Carries (deps : List Dependency) (rule : Rules) (name : Text) : Prop :=
  ∃ dep ∈ deps, dep.target = name ∧ dep.rules.has rule = true

/-- A list says on which of some classes a text depends, and by which rules. -/
structure Describes (t : Text) (candidate : Text → Prop) (deps : List Dependency) : Prop where
  sorted : IncreasingBy (·.target) deps
  known : ∀ dep ∈ deps, candidate dep.target ∧ (dep.rules = Rules.imported ∨ dep.rules = Rules.used ∨
    dep.rules = Rules.imported.union Rules.used)
  /-- The text has the word of an import, blanks, the name and a semicolon. -/
  imported_iff : ∀ name, candidate name → (Carries deps Rules.imported name ↔ Source.Imports t name)
  /-- The simple name stands between other bytes than word bytes, and the text declares the package of
  the class or has its plain import statement. -/
  used_iff : ∀ name, candidate name → Word.isIdentifier (ClassName.simple name) = true →
    (Carries deps Rules.used name ↔ Word.Stands t (ClassName.simple name) ∧
      (SharesPackage t name ∨ ImportsPlainly t name))

/-- A list stays right for the classes that are left in it. -/
theorem Describes.filter {candidate : Text → Prop} (h : Describes t candidate deps) (keep : Text → Bool) :
    Describes t (fun name => candidate name ∧ keep name = true) (deps.filter fun dep => keep dep.target) := by
  have hcarries : ∀ {rule name}, keep name = true →
      (Carries (deps.filter fun dep => keep dep.target) rule name ↔ Carries deps rule name) := by
    intro rule name hkeep
    constructor
    · rintro ⟨dep, hdep, hcarried⟩
      exact ⟨dep, (List.mem_filter.mp hdep).1, hcarried⟩
    · rintro ⟨dep, hdep, rfl, hhas⟩
      exact ⟨dep, List.mem_filter.mpr ⟨hdep, hkeep⟩, rfl, hhas⟩
  constructor
  case sorted => exact h.sorted.filter _
  case known =>
    intro dep hdep
    obtain ⟨hmem, hkeep⟩ := List.mem_filter.mp hdep
    exact ⟨⟨(h.known dep hmem).1, hkeep⟩, (h.known dep hmem).2⟩
  case imported_iff =>
    rintro name ⟨hname, hkeep⟩
    rw [hcarries hkeep, h.imported_iff name hname]
  case used_iff =>
    rintro name ⟨hname, hkeep⟩ hword
    rw [hcarries hkeep, h.used_iff name hname hword]

end Dependency

end ClassAtlas
