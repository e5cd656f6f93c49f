import ClassAtlas.Impact.Change
import ClassAtlas.Proofs.Path.Shape
import ClassAtlas.Proofs.Text.Parts
import Mathlib.Data.List.Forall2

namespace ClassAtlas

/-- What a patch says on a file. It is there on both sides, under one path or two, or on one side only. -/
inductive Edit where
  | change (old new : Text)
  | create (new : Text)
  | remove (old : Text)
  deriving DecidableEq, Repr

namespace Edit

/-- The file of a patch that tells of an edit. -/
def written (hunks : List Text) : Edit → FilePatch
  | .change old new => ⟨"a/" ++ old, "b/" ++ new, hunks⟩
  | .create new => ⟨Patch.nowhere, "b/" ++ new, hunks⟩
  | .remove old => ⟨"a/" ++ old, Patch.nowhere, hunks⟩

/-- The path of the changed file, its old path if that is another one, and its status. -/
def told : Edit → Text × Text × FileStatus
  | .change old new => if old = new then (new, [], .modified) else (new, old, .renamed)
  | .create new => (new, [], .added)
  | .remove old => (old, [], .deleted)

/-- The path on the old side. -/
def old? : Edit → Option Text
  | .change old _ => some old
  | .create _ => none
  | .remove old => some old

/-- The paths on both sides. -/
def paths : Edit → List Text
  | .change old new => [old, new]
  | .create new => [new]
  | .remove old => [old]

/-- All paths are in their shortest form. -/
def IsClean (e : Edit) : Prop := ∀ p ∈ e.paths, Path.clean p = p

instance : DecidablePred IsClean := fun e =>
  inferInstanceAs (Decidable (∀ p ∈ e.paths, Path.clean p = p))

/-- The edit that is taken from the names of another: on the old side, a first directory `b` is lost. -/
def taken : Edit → Edit
  | .change old new => .change (old.dropLead "b/") new
  | .create new => .create new
  | .remove old => .remove (old.dropLead "b/")

/-- Different edits are told in different ways. -/
theorem told_injective : Function.Injective told := by
  intro e e' h
  cases e <;> cases e' <;> grind [told]

/-- Only a path in a directory `b` loses its lead. -/
theorem dropLead_eq_self_iff {p : Text} : p.dropLead "b/" = p ↔ p.startsWith "b/" = false := by
  unfold Text.dropLead
  split
  · next hstart =>
    obtain ⟨rest, rfl⟩ := List.isPrefixOf_iff_prefix.mp hstart
    have hlonger : rest ≠ Text.ofString "b/" ++ rest := by
      intro heq
      have hlength := congrArg List.length heq
      have htwo : (Text.ofString "b/").length = 2 := rfl
      rw [List.length_append] at hlength
      omega
    rw [List.drop_left, hstart]
    simp [hlonger]
  · next hstart => simpa using hstart

/-- An edit is taken as it is exactly if its old path is in no directory `b`. -/
theorem taken_eq_iff {e : Edit} :
    e.taken = e ↔ ∀ p, e.old? = some p → p.startsWith "b/" = false := by
  cases e with
  | change old new => simp [taken, old?, dropLead_eq_self_iff]
  | create new => simp [taken, old?]
  | remove old => simp [taken, old?, dropLead_eq_self_iff]

end Edit

namespace ChangedFile

/-- What is told of a changed file: its path, its old path and its status. -/
def told (f : ChangedFile) : Text × Text × FileStatus := (f.path, f.oldPath, f.status)

/-- No path on the old side is the name for no file. -/
theorem old_ne_nowhere (p : Text) : Text.ofString "a/" ++ p ≠ Patch.nowhere := by
  intro heq
  have hhead : (97 : UInt8) = 47 := (List.cons.inj heq).1
  contradiction

/-- No path on the new side is the name for no file. -/
theorem new_ne_nowhere (p : Text) : Text.ofString "b/" ++ p ≠ Patch.nowhere := by
  intro heq
  have hhead : (98 : UInt8) = 47 := (List.cons.inj heq).1
  contradiction

/-- The name on the new side is the path behind its lead. -/
theorem cleanName_new {p : Text} (hp : Path.clean p = p) : cleanName ("b/" ++ p) = p := by
  have hkept : Text.dropLead ("b/" ++ p) "a/" = "b/" ++ p := rfl
  rw [cleanName, if_neg (by simpa using new_ne_nowhere p), hkept, Text.dropLead_append, hp]

/-- A path in its shortest form is still so without a lead. -/
theorem clean_dropLead {p : Text} (hp : Path.clean p = p) :
    Path.clean (p.dropLead "b/") = p.dropLead "b/" := by
  unfold Text.dropLead
  split
  · next hstart =>
    obtain ⟨rest, rfl⟩ := List.isPrefixOf_iff_prefix.mp hstart
    have hletter : Path.IsName [98] := by decide
    rw [List.drop_left]
    exact Path.clean_of_clean_append hletter hp
  · exact hp

/-- The name on the old side is the path behind its lead, without a further lead of the new side. -/
theorem cleanName_old {p : Text} (hp : Path.clean p = p) : cleanName ("a/" ++ p) = p.dropLead "b/" := by
  rw [cleanName, if_neg (by simpa using old_ne_nowhere p), Text.dropLead_append, clean_dropLead hp]

/-- What is told of a file, in terms of its two names. -/
theorem told_ofPatch (f : FilePatch) : (ofPatch f).told =
    if f.before = Patch.nowhere then (cleanName f.after, [], .added)
    else if f.after = Patch.nowhere then (cleanName f.before, [], .deleted)
    else (Edit.change (cleanName f.before) (cleanName f.after)).told := by
  unfold ofPatch told Edit.told
  by_cases hbefore : f.before = Patch.nowhere
  · simp [hbefore, plain]
  by_cases hafter : f.after = Patch.nowhere
  · simp [hbefore, hafter, plain]
  by_cases hsame : cleanName f.before = cleanName f.after
  · simp [hbefore, hafter, hsame, plain]
  · simp [hbefore, hafter, hsame, plain]

/-- What is told of a file is the edit that is taken from its names. The hunks do not matter. -/
theorem told_ofPatch_written {e : Edit} (he : e.IsClean) (hunks : List Text) :
    (ofPatch (e.written hunks)).told = e.taken.told := by
  rw [told_ofPatch]
  cases e with
  | change old new =>
    have hold := cleanName_old (he old (by simp [Edit.paths]))
    have hnew := cleanName_new (he new (by simp [Edit.paths]))
    simp only [Edit.written, Edit.taken, old_ne_nowhere, new_ne_nowhere, if_false, hold, hnew]
  | create new =>
    have hnew := cleanName_new (he new (by simp [Edit.paths]))
    simp only [Edit.written, Edit.taken, Edit.told, if_true, hnew]
  | remove old =>
    have hold := cleanName_old (he old (by simp [Edit.paths]))
    simp only [Edit.written, Edit.taken, Edit.told, old_ne_nowhere, if_false, if_true, hold]

/-- Of the files of a patch, as many changed files are read, in their order. Each is told as it was
written exactly if its old path, if it has one, does not start with a directory `b`; otherwise it is told
as if this directory were not there. -/
theorem ofPatchText?_told_iff {t : Text} {edits : List (Edit × List Text)}
    (hclean : ∀ e ∈ edits, e.1.IsClean)
    (hfiles : Patch.files? t = some (edits.map fun e => e.1.written e.2)) :
    ∃ files, ofPatchText? t = some files ∧
      List.Forall₂ (fun f e => f.told = e.1.taken.told ∧
        (f.told = e.1.told ↔ ∀ p, e.1.old? = some p → p.startsWith "b/" = false)) files edits := by
  refine ⟨edits.map fun e => ofPatch (e.1.written e.2), by simp [ofPatchText?, hfiles], ?_⟩
  rw [List.forall₂_map_left_iff, List.forall₂_same]
  intro e he
  have htold := told_ofPatch_written (hclean e he) e.2
  refine ⟨htold, ?_⟩
  rw [htold, Edit.told_injective.eq_iff, Edit.taken_eq_iff]

/-- A patch on four files, three of them in a directory `b` on one side or both. -/
def letteredPatch : Text :=
  "--- a/a/A.java\n+++ b/a/A.java\n@@ -1 +1 @@\n-x\n+y\n" ++
  "--- a/b/B.java\n+++ /dev/null\n@@ -1 +0,0 @@\n-x\n" ++
  "--- /dev/null\n+++ b/b/C.java\n@@ -0,0 +1 @@\n+x\n" ++
  "--- a/D.java\n+++ b/b/D.java\n@@ -1 +1 @@\n-x\n+y\n"

/-- The edits of this patch, with their hunks. -/
def letteredEdits : List (Edit × List Text) := [
  (.change "a/A.java" "a/A.java", ["-x\n+y\n"]), (.remove "b/B.java", ["-x\n"]),
  (.create "b/C.java", ["+x\n"]), (.change "D.java" "b/D.java", ["-x\n+y\n"])]

/-- Only the file that is removed from the directory is told under another path. -/
theorem ofPatchText?_told_lettered : (∀ e ∈ letteredEdits, e.1.IsClean) ∧
    Patch.files? letteredPatch = some (letteredEdits.map fun e => e.1.written e.2) ∧
    ∃ files, ofPatchText? letteredPatch = some files ∧ files.map told =
      [(Text.ofString "a/A.java", [], .modified), (Text.ofString "B.java", [], .deleted),
        (Text.ofString "b/C.java", [], .added), (Text.ofString "b/D.java", "D.java", .renamed)] := by
  have hclean : ∀ e ∈ letteredEdits, e.1.IsClean := by decide
  have hfiles : Patch.files? letteredPatch = some (letteredEdits.map fun e => e.1.written e.2) := by
    decide +kernel
  obtain ⟨files, hread, hall⟩ := ofPatchText?_told_iff hclean hfiles
  have htold : files.map told = letteredEdits.map fun e => e.1.taken.told := by
    rw [← List.forall₂_eq_eq_eq, List.forall₂_map_left_iff, List.forall₂_map_right_iff]
    exact hall.imp fun _ _ h => h.1
  have hlist : (letteredEdits.map fun e => e.1.taken.told) =
      [(Text.ofString "a/A.java", [], .modified), (Text.ofString "B.java", [], .deleted),
        (Text.ofString "b/C.java", [], .added), (Text.ofString "b/D.java", "D.java", .renamed)] := by
    decide
  exact ⟨hclean, hfiles, files, hread, htold.trans hlist⟩

/-- A file that is changed in place in a directory `b` is told as renamed from the directory above. -/
theorem told_of_change_in_place :
    (ofPatchText? "--- a/b/A.java\n+++ b/b/A.java\n@@ -1 +1 @@\n-x\n+y\n").map (·.map told) =
      some [(Text.ofString "b/A.java", Text.ofString "A.java", .renamed)] ∧
    Patch.files? "--- a/b/A.java\n+++ b/b/A.java\n@@ -1 +1 @@\n-x\n+y\n" =
      some [(Edit.change "b/A.java" "b/A.java").written ["-x\n+y\n"]] ∧
    (Edit.change "b/A.java" "b/A.java").told = (Text.ofString "b/A.java", [], .modified) := by
  decide +kernel

end ChangedFile

end ClassAtlas
