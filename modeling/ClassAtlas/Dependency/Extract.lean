import ClassAtlas.Catalog.Basic
import ClassAtlas.Dependency.Rules
import ClassAtlas.Source.Word

namespace ClassAtlas

/-- A class that a text depends on, with the rules that found it. -/
structure Dependency where
  target : Text
  rules : Rules
  deriving DecidableEq, Repr

/-- What is looked for in texts to find a class. -/
structure ClassRef where
  name : Text
  /-- The pattern of the simple name, unless that is made of word bytes. -/
  pattern : Option Word.Pattern
  fits : pattern.map (·.word) =
    if Word.isIdentifier (ClassName.simple name) then none else some (ClassName.simple name)

/-- What is looked for to find the class of a name. There is nothing if the simple name is not made of
word bytes and has no pattern. -/
def ClassRef.of? (name : Text) : Option ClassRef :=
  if hword : Word.isIdentifier (ClassName.simple name) = true then some ⟨name, none, by simp [hword]⟩
  else if hvalid : Utf8.isValid (ClassName.simple name) = true then
    some ⟨name, some ⟨ClassName.simple name, hvalid⟩, by simp [hword]⟩
  else none

/-- What is looked for to find the classes of names, if all of them can be looked for. -/
def ClassRef.all? : List Text → Option (List ClassRef)
  | [] => some []
  | name :: rest =>
    match of? name, all? rest with
    | some c, some more => some (c :: more)
    | _, _ => none

/-- A catalog with what is looked for to find its classes. -/
structure Extractor extends Catalog where
  classes : List ClassRef
  complete : ClassRef.all? toCatalog.names = some classes

instance : Coe Extractor Catalog := ⟨Extractor.toCatalog⟩

/-- Prepares the search for the classes of a catalog. There is none as soon as one class cannot be looked
for. -/
def Extractor.of? (c : Catalog) : Option Extractor :=
  match hclasses : ClassRef.all? c.names with
  | none => none
  | some classes => some ⟨c, classes, hclasses⟩

namespace Dependency

/-- The plain import statement of a class. -/
def importStatement (name : Text) : Text := "import " ++ name ++ ";"

/-- The simple name of a class occurs as a whole word. Names of word bytes are looked up among
the words of the text. -/
def isUsed (t : Text) (words : List Text) (c : ClassRef) : Bool :=
  match c.pattern with
  | some p => Word.occurs t p
  | none => words.contains (ClassName.simple c.name)

/-- The text has the package of the class, or imports it. -/
def isVisible (t package name : Text) : Bool :=
  (!package.isEmpty && package == ClassName.package name) || t.includes (importStatement name)

/-- The rules by which a text depends on a class. -/
def rulesFor (t package : Text) (imported words : List Text) (c : ClassRef) : Rules :=
  (if imported.contains c.name then Rules.imported else Rules.none).union
    (if isUsed t words c && isVisible t package c.name then Rules.used else Rules.none)

end Dependency

namespace Extractor

/-- The classes of the catalog that a text depends on, by name. -/
def extract (x : Extractor) (t : Text) : List Dependency :=
  let package := Source.package t
  let imported := Source.imports t
  let words := Word.runs t
  (x.classes.map fun c => ⟨c.name, Dependency.rulesFor t package imported words c⟩).filter
    fun d => d.rules != Rules.none

/-- The classes that a class of the catalog depends on, without itself. -/
def extractFor (x : Extractor) (d : Disk) (name : Text) (cache : TextCache) :
    Except SourceError (List Dependency) × TextCache :=
  match x.text d name cache with
  | (.error e, cache') => (.error e, cache')
  | (.ok t, cache') => (.ok ((x.extract t).filter fun dep => dep.target != name), cache')

end Extractor

namespace Dependency

/-- A text refers to one given class: it has its plain import statement, or the package of the
class and its simple name as a whole word. There is no answer if it comes to look for a simple name that
cannot be looked for. -/
def refersTo (t target : Text) : Option Bool :=
  if t.includes (importStatement target) then some true
  else
    (Word.isIn t (ClassName.simple target)).map fun used =>
      let package := Source.package t
      used && !package.isEmpty && package == ClassName.package target

end Dependency

end ClassAtlas
