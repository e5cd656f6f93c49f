import ClassAtlas.Json.Decode
import ClassAtlas.Json.Reader

namespace ClassAtlas

/-- A rule that a field breaks. The path leads to the field from the kind of the request. -/
structure BrokenRule where
  path : Text
  field : Text
  rule : Text
  deriving DecidableEq, Repr

/-- The wording of a broken rule. -/
def BrokenRule.message (b : BrokenRule) : Text :=
  "Key: '" ++ b.path ++ "' Error:Field validation for '" ++ b.field ++ "' failed on the '" ++ b.rule
    ++ "' tag"

/-- Why a body is refused. -/
inductive BodyError where
  | malformed
  | broken (rules : List BrokenRule)
  deriving DecidableEq, Repr

/-- The wording of a refused body. -/
def BodyError.message : BodyError → Text
  | .malformed => "malformed JSON"
  | .broken rules => Text.join "\n" (rules.map (·.message))

namespace Body

/-- A text that must not be empty. -/
def required (path field t : Text) : List BrokenRule :=
  if t.isEmpty then [⟨path ++ "." ++ field, field, "required"⟩] else []

/-- The root of a project, which every request has. -/
def requiredRoot (kind root : Text) : List BrokenRule :=
  required (kind ++ ".ProjectRequest") "ProjectRoot" root

/-- Texts that must not be empty. -/
def requiredItems (kind field : Text) (items : Option (List Text)) : List BrokenRule :=
  (items.getD []).zipIdx.flatMap fun (t, i) =>
    required kind (field ++ "[" ++ Decimal.ofNat i ++ "]") t

/-- A text of at most so many characters. -/
def atMost (kind field : Text) (size : Nat) (t : Text) : List BrokenRule :=
  if size < Utf8.count t then [⟨kind ++ "." ++ field, field, "max"⟩] else []

/-- Reads a body and checks its rules. What follows the first value is not looked at. -/
def read {α : Type} (blank : α) (fill : Json.Filler α) (broken : α → List BrokenRule) (t : Text) :
    Except BodyError α :=
  match (Json.readFront? t).bind fun (j, _) => fill blank j with
  | none => .error .malformed
  | some a =>
    let rules := broken a
    if rules.isEmpty then .ok a else .error (.broken rules)

/-- Fills a text member of a record. -/
def textPart {α : Type} (name : Text) (get : α → Text) (set : α → Text → α) : Text × Json.Filler α :=
  (name, Json.part get set Json.fillText)

/-- Fills a member that is a list of texts. -/
def textsPart {α : Type} (name : Text) (get : α → Option (List Text))
    (set : α → Option (List Text) → α) : Text × Json.Filler α :=
  (name, Json.part get set (Json.fillList [] Json.fillText))

/-- The member that names the root of a project. -/
def rootName : Text := "project_root"

end Body

/-- A request about a project. -/
structure ProjectBody where
  root : Text := []
  deriving DecidableEq, Repr

/-- A request for a trace. -/
structure TraceBody where
  root : Text := []
  patterns : Option (List Text) := none
  starts : Option (List Text) := none
  deriving DecidableEq, Repr

/-- A request for exposed classes. -/
structure ExposeBody where
  root : Text := []
  showDependency : Bool := false
  deriving DecidableEq, Repr

/-- A request for the impact of a patch. -/
structure ImpactBody where
  root : Text := []
  patch : Text := []
  deriving DecidableEq, Repr

/-- A request for a snapshot. -/
structure SnapshotBody where
  root : Text := []
  label : Text := []
  deriving DecidableEq, Repr

/-- Reads a request about a project; the kind tells what is asked. -/
def ProjectBody.read (kind : Text) : Text → Except BodyError ProjectBody :=
  Body.read {}
    (Json.fillRecord (Json.named [Body.textPart Body.rootName (·.root) ({ · with root := · })]))
    fun b => Body.requiredRoot kind b.root

/-- Reads a request for a trace. -/
def TraceBody.read : Text → Except BodyError TraceBody :=
  Body.read {}
    (Json.fillRecord (Json.named [
      Body.textPart Body.rootName (·.root) ({ · with root := · }),
      Body.textsPart "patterns" (·.patterns) ({ · with patterns := · }),
      Body.textsPart "start_classes" (·.starts) ({ · with starts := · })]))
    fun b => Body.requiredRoot "TraceRequest" b.root ++
      Body.requiredItems "TraceRequest" "Patterns" b.patterns ++
      Body.requiredItems "TraceRequest" "StartClasses" b.starts

/-- Reads a request for exposed classes. -/
def ExposeBody.read : Text → Except BodyError ExposeBody :=
  Body.read {}
    (Json.fillRecord (Json.named [
      Body.textPart Body.rootName (·.root) ({ · with root := · }),
      ("show_dependency",
        Json.part (·.showDependency) ({ · with showDependency := · }) Json.fillBool)]))
    fun b => Body.requiredRoot "ExposeRequest" b.root

/-- Reads a request for the impact of a patch. -/
def ImpactBody.read : Text → Except BodyError ImpactBody :=
  Body.read {}
    (Json.fillRecord (Json.named [
      Body.textPart Body.rootName (·.root) ({ · with root := · }),
      Body.textPart "patch" (·.patch) ({ · with patch := · })]))
    fun b => Body.requiredRoot "ImpactRequest" b.root ++ Body.required "ImpactRequest" "Patch" b.patch

/-- The number of characters that a label may have. -/
def SnapshotBody.maxLabel : Nat := 128

/-- Reads a request for a snapshot. -/
def SnapshotBody.read : Text → Except BodyError SnapshotBody :=
  Body.read {}
    (Json.fillRecord (Json.named [
      Body.textPart Body.rootName (·.root) ({ · with root := · }),
      Body.textPart "label" (·.label) ({ · with label := · })]))
    fun b => Body.requiredRoot "SnapshotRequest" b.root ++
      Body.atMost "SnapshotRequest" "Label" maxLabel b.label

end ClassAtlas
