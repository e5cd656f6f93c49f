import ClassAtlas.Text.Basic

namespace ClassAtlas

/-- A set of rules. The first bit is the import rule and the second the usage rule. -/
structure Rules where
  bits : UInt8
  deriving DecidableEq, Repr

namespace Rules

/-- No rule. -/
def none : Rules := ⟨0⟩

/-- The class is named by an import statement. -/
def imported : Rules := ⟨1⟩

/-- The simple name of the class is used, and its package or an import makes it visible. -/
def used : Rules := ⟨2⟩

/-- The rules of either set. -/
def union (r s : Rules) : Rules := ⟨r.bits ||| s.bits⟩

/-- Every rule of `s` is a rule of `r`. -/
def has (r s : Rules) : Bool := r.bits &&& s.bits == s.bits

/-- The names of the rules. -/
def label (r : Rules) : Text :=
  match r.has imported, r.has used with
  | true, true => "import+usage"
  | true, false => "import"
  | false, true => "usage"
  | false, false => "none"

end Rules

end ClassAtlas
