import ClassAtlas.Proofs.Text.Case
import ClassAtlas.Proofs.Trace.FirstArgument
import Mathlib.Data.List.Induction

namespace ClassAtlas

variable {p q line : Text}

/-- Patterns that differ only in the case of ASCII letters occur in each other. -/
theorem Occurs.of_lowerAscii_eq (h : p.lowerAscii = q.lowerAscii) : Occurs q p := ⟨[], p, [], by simp, h⟩

/-- A pattern occurs in itself. -/
theorem Occurs.refl (p : Text) : Occurs p p := .of_lowerAscii_eq rfl

/-- What occurs in a pattern occurs wherever the pattern does. -/
theorem Occurs.trans (hqp : Occurs q p) (hp : Occurs p line) : Occurs q line := by
  obtain ⟨front, part, back, rfl, hpart⟩ := hqp
  obtain ⟨lead, whole, tail, rfl, hwhole⟩ := hp
  simp only [Text.lowerAscii, List.map_append] at hwhole
  obtain ⟨start, rest, rfl, hstart, hrest⟩ := List.map_eq_append_iff.mp hwhole
  obtain ⟨inner, outer, rfl, -, hinner⟩ := List.map_eq_append_iff.mp hstart
  refine ⟨lead ++ inner, outer, rest ++ tail, by simp, ?_⟩
  exact hinner.trans hpart

namespace Trace

variable {ts patterns : List Text}

/-- The patterns without blanks around them, repetitions included. -/
def trimmed (patterns : List Text) : List Text := (patterns.map Blank.trim).filter (!·.isEmpty)

/-- What is kept of a list, and the lower case of everything in it. -/
def distinct (ts : List Text) : List Text × List Text :=
  ts.foldl (fun acc p =>
    if acc.2.contains (Case.lowerText p) then acc
    else (acc.1 ++ [p], Case.lowerText p :: acc.2)) ([], [])

/-- Patterns are normalized by trimming them and then dropping repetitions. -/
theorem normalize_eq (patterns : List Text) : normalize patterns = (distinct (trimmed patterns)).1 := rfl

/-- A pattern of the list has the same lower case. -/
def Repeats (ts : List Text) (p : Text) : Prop := ∃ q ∈ ts, Case.lowerText q = Case.lowerText p

/-- One more pattern is kept if its lower case is new. -/
theorem distinct_append (ts : List Text) (p : Text) : distinct (ts ++ [p]) =
    if (distinct ts).2.contains (Case.lowerText p) then distinct ts
    else ((distinct ts).1 ++ [p], Case.lowerText p :: (distinct ts).2) := by
  rw [distinct, List.foldl_append]
  rfl

/-- The lower case of every pattern is remembered, whether the pattern is kept or not. -/
theorem mem_keys_iff {key : Text} : key ∈ (distinct ts).2 ↔ ∃ q ∈ ts, Case.lowerText q = key := by
  induction ts using List.reverseRecOn with
  | nil => simp [distinct]
  | append_singleton ts p ih =>
    have hor : (∃ q ∈ ts ++ [p], Case.lowerText q = key) ↔ key ∈ (distinct ts).2 ∨ Case.lowerText p = key := by
      rw [ih]
      simp [or_and_right, exists_or]
    rw [distinct_append, hor]
    split
    · next hseen =>
      have hp : Case.lowerText p ∈ (distinct ts).2 := by simpa using hseen
      exact ⟨.inl, fun h => h.elim id fun heq => heq ▸ hp⟩
    · rw [List.mem_cons, or_comm, eq_comm]

/-- A repetition is not kept. -/
theorem distinct_append_of_repeats (h : Repeats ts p) : (distinct (ts ++ [p])).1 = (distinct ts).1 := by
  have hseen : (distinct ts).2.contains (Case.lowerText p) = true := by simpa using mem_keys_iff.mpr h
  rw [distinct_append, if_pos hseen]

/-- A pattern that repeats none is kept at the end. -/
theorem distinct_append_of_not_repeats (h : ¬Repeats ts p) :
    (distinct (ts ++ [p])).1 = (distinct ts).1 ++ [p] := by
  have hseen : ¬(distinct ts).2.contains (Case.lowerText p) = true := by simpa using mt mem_keys_iff.mp h
  rw [distinct_append, if_neg hseen]

/-- The patterns that are kept stay in their order. -/
theorem distinct_sublist (ts : List Text) : (distinct ts).1.Sublist ts := by
  induction ts using List.reverseRecOn with
  | nil => exact .slnil
  | append_singleton ts p ih =>
    by_cases h : Repeats ts p
    · rw [distinct_append_of_repeats h]
      exact ih.trans (List.sublist_append_left ..)
    · rw [distinct_append_of_not_repeats h]
      exact ih.append (.refl _)

/-- What is kept stands somewhere in the list behind no pattern of its lower case. -/
theorem exists_of_mem_distinct (h : p ∈ (distinct ts).1) :
    ∃ before after, ts = before ++ p :: after ∧ ¬Repeats before p := by
  induction ts using List.reverseRecOn with
  | nil => simp [distinct] at h
  | append_singleton ts q ih =>
    have hearlier : p ∈ (distinct ts).1 →
        ∃ before after, ts ++ [q] = before ++ p :: after ∧ ¬Repeats before p := by
      intro h
      obtain ⟨before, after, rfl, hnot⟩ := ih h
      exact ⟨before, after ++ [q], by simp, hnot⟩
    by_cases hq : Repeats ts q
    · rw [distinct_append_of_repeats hq] at h
      exact hearlier h
    · rw [distinct_append_of_not_repeats hq, List.mem_append, List.mem_singleton] at h
      rcases h with h | rfl
      · exact hearlier h
      · exact ⟨ts, [], rfl, hq⟩

/-- Of some patterns at least one is kept. -/
theorem distinct_ne_nil (h : ts ≠ []) : (distinct ts).1 ≠ [] := by
  induction ts using List.reverseRecOn with
  | nil => contradiction
  | append_singleton ts p ih =>
    by_cases hrep : Repeats ts p
    · rw [distinct_append_of_repeats hrep]
      obtain ⟨q, hq, -⟩ := hrep
      exact ih (List.ne_nil_of_mem hq)
    · rw [distinct_append_of_not_repeats hrep]
      simp

/-- A single pattern that is not blank is enough for a trace. -/
theorem normalize_ne_nil (h : ∃ p ∈ patterns, Blank.trim p ≠ []) : normalize patterns ≠ [] := by
  obtain ⟨p, hp, hne⟩ := h
  have hmem : Blank.trim p ∈ trimmed patterns :=
    List.mem_filter.mpr ⟨List.mem_map_of_mem hp, by simpa using hne⟩
  exact distinct_ne_nil (List.ne_nil_of_mem hmem)

/-- In every repetition an earlier pattern occurs. -/
def Covered (ts : List Text) : Prop :=
  ∀ before p after, ts = before ++ p :: after → Repeats before p → ∃ q ∈ before, Occurs q p

/-- The first pattern of the list that occurs in the line does so at this place first. -/
def FirstMatch (patterns : List Text) (line lead part back : Text) : Prop :=
  ∃ p, patterns.find? (Argument.mentions line) = some p ∧ Argument.OccursFirst p line lead part back

/-- Some pattern of the list is found in the line. -/
def Mentioned (patterns : List Text) (line : Text) : Prop := ∃ p ∈ patterns, Argument.mentions line p = true

/-- Without the repetitions a line is found if it is found with them, and at the same place. -/
structure Keeps (patterns : List Text) (line : Text) : Prop where
  mentioned : Mentioned (normalize patterns) line ↔ Mentioned (trimmed patterns) line
  place : ∀ lead part back, FirstMatch (normalize patterns) line lead part back ↔
    FirstMatch (trimmed patterns) line lead part back

/-- If repetitions are covered in a list, they are in its beginning. -/
theorem Covered.init (h : Covered (ts ++ [p])) : Covered ts := by
  rintro before q after rfl
  exact h before q (after ++ [p]) (by simp)

/-- A line is found by the same pattern, with and without repetitions. -/
theorem Covered.find?_distinct (h : Covered ts) (line : Text) :
    (distinct ts).1.find? (Argument.mentions line) = ts.find? (Argument.mentions line) := by
  induction ts using List.reverseRecOn with
  | nil => rfl
  | append_singleton ts p ih =>
    have hinit := ih h.init
    rw [List.find?_append]
    by_cases hrep : Repeats ts p
    · rw [distinct_append_of_repeats hrep, hinit]
      cases hfind : ts.find? (Argument.mentions line) with
      | some q => rfl
      | none =>
        -- a pattern that occurs in the repetition would occur in the line as well
        have hnone : ¬Argument.mentions line p = true := by
          intro hp
          obtain ⟨q, hq, hqp⟩ := h ts p [] rfl hrep
          have hocc := hqp.trans (Argument.mentions_iff.mp hp)
          exact List.find?_eq_none.mp hfind q hq (Argument.mentions_iff.mpr hocc)
        simp [hnone]
    · rw [distinct_append_of_not_repeats hrep, List.find?_append, hinit]

/-- Covered repetitions can be dropped, for every line. -/
theorem Covered.keeps (h : Covered (trimmed patterns)) (line : Text) : Keeps patterns line := by
  have hfind := h.find?_distinct line
  rw [← normalize_eq] at hfind
  refine ⟨?_, fun lead part back => by simp only [FirstMatch, hfind]⟩
  rw [Mentioned, Mentioned, ← List.find?_isSome, ← List.find?_isSome, hfind]

/-- A repetition is lost on the line that consists of it, unless an earlier pattern occurs there. A
pattern at the same place would be one of the same lower case, and that is kept only before it. -/
theorem covered_of_keeps (h : ∀ line, Keeps patterns line) : Covered (trimmed patterns) := by
  intro before p after hsplit hrep
  apply Classical.byContradiction
  intro hnone
  have hbefore : ∀ q ∈ before, ¬Occurs q p := fun q hq hocc => hnone ⟨q, hq, hocc⟩
  have hfirst : FirstMatch (trimmed patterns) p [] p [] := by
    refine ⟨p, ?_, ⟨by simp, rfl, by simp⟩⟩
    rw [List.find?_eq_some_iff_append]
    refine ⟨Argument.mentions_iff.mpr (.refl p), before, after, hsplit, fun q hq => ?_⟩
    rw [Bool.not_eq_true', ← Bool.not_eq_true, Argument.mentions_iff]
    exact hbefore q hq
  obtain ⟨r, hfind, hplace⟩ := ((h p).place [] p []).mpr hfirst
  rw [normalize_eq] at hfind
  have hsame : Case.lowerText p = Case.lowerText r := by
    rw [← Case.lowerText_lowerAscii, hplace.same, Case.lowerText_lowerAscii]
  obtain ⟨before', after', hsplit', hkept⟩ := exists_of_mem_distinct (List.mem_of_find?_eq_some hfind)
  have hrep' : ¬before <+: before' := by
    intro hle
    obtain ⟨q, hq, hkey⟩ := hrep
    exact hkept ⟨q, hle.subset hq, hkey.trans hsame⟩
  rw [hsplit, List.append_eq_append_iff] at hsplit'
  rcases hsplit' with ⟨mid, rfl, -⟩ | ⟨mid, rfl, hmid⟩
  · exact hrep' (List.prefix_append ..)
  · cases mid with
    | nil => exact hrep' (by simp)
    | cons c mid =>
      obtain ⟨rfl, -⟩ := List.cons.inj hmid
      exact hbefore r (by simp) (.of_lowerAscii_eq hplace.same)

/-- In ASCII patterns all repetitions are covered: they differ from an earlier pattern only in case. -/
theorem covered_of_ascii (h : ∀ p ∈ ts, ∀ b ∈ p, b < 0x80) : Covered ts := by
  rintro before p after rfl ⟨q, hq, hkey⟩
  rw [Case.lowerText_of_ascii (h q (by simp [hq])), Case.lowerText_of_ascii (h p (by simp))] at hkey
  exact ⟨q, hq, .of_lowerAscii_eq hkey.symm⟩

/-- A line is found if some pattern occurs in it. -/
theorem mentioned_iff : Mentioned patterns line ↔ ∃ p ∈ patterns, Occurs p line := by
  simp only [Mentioned, Argument.mentions_iff]

/-- Every trimmed pattern comes from a pattern. -/
theorem exists_of_mem_trimmed (h : p ∈ trimmed patterns) : ∃ q ∈ patterns, Blank.trim q = p :=
  List.mem_map.mp (List.mem_filter.mp h).1

/-- Dropping repetitions only ever drops patterns. No line is lost by it exactly if some pattern that is
kept occurs in every pattern, and every line is moreover found at the same place exactly if an earlier
pattern occurs in every repetition. That is so for patterns in ASCII. -/
theorem normalize_keeps_iff (patterns : List Text) :
    (normalize patterns).Sublist (trimmed patterns) ∧
      ((∀ line, Mentioned (normalize patterns) line ↔ Mentioned (trimmed patterns) line) ↔
        ∀ p ∈ trimmed patterns, ∃ q ∈ normalize patterns, Occurs q p) ∧
      ((∀ line, Keeps patterns line) ↔ Covered (trimmed patterns)) ∧
      ((∀ p ∈ patterns, ∀ b ∈ p, b < 0x80) → ∀ line, Keeps patterns line) := by
  have hsublist : (normalize patterns).Sublist (trimmed patterns) := distinct_sublist _
  refine ⟨hsublist, ⟨fun h p hp => ?_, fun h line => ?_⟩, ⟨covered_of_keeps, Covered.keeps⟩, fun h => ?_⟩
  · exact mentioned_iff.mp ((h p).mpr (mentioned_iff.mpr ⟨p, hp, .refl p⟩))
  · rw [mentioned_iff, mentioned_iff]
    constructor
    · rintro ⟨q, hq, hocc⟩
      exact ⟨q, hsublist.subset hq, hocc⟩
    · rintro ⟨p, hp, hocc⟩
      obtain ⟨q, hq, hqp⟩ := h p hp
      exact ⟨q, hq, hqp.trans hocc⟩
  · refine (covered_of_ascii fun p hp b hb => ?_).keeps
    obtain ⟨q, hq, rfl⟩ := exists_of_mem_trimmed hp
    obtain ⟨before, after, -, -, hsplit⟩ := Blank.exists_trim q
    refine h q hq b ?_
    rw [hsplit]
    simp [hb]

/-- Patterns that differ in blanks and in the case of ASCII letters. -/
def plainPatterns : List Text := ["client.post", " ", "POST", " Client.Post\t"]

/-- The patterns consist of ASCII bytes. -/
theorem ascii_of_mem_plainPatterns {p : Text} (hp : p ∈ plainPatterns) : ∀ b ∈ p, b < 0x80 := fun b hb =>
  of_decide_eq_true (List.all_eq_true.mp (List.all_eq_true.mp
    (rfl : plainPatterns.all (fun p => p.all fun b => decide (b < 0x80)) = true) p hp) b hb)

/-- The last pattern is dropped, and every line is still found at its place. -/
theorem normalize_keeps_plain : (∀ p ∈ plainPatterns, ∀ b ∈ p, b < 0x80) ∧
    normalize plainPatterns = trimmed ["client.post", "POST"] ∧ ∀ line, Keeps plainPatterns line :=
  ⟨fun _ => ascii_of_mem_plainPatterns, rfl,
    (normalize_keeps_iff plainPatterns).2.2.2 fun _ => ascii_of_mem_plainPatterns⟩

/-- Patterns that differ in the case of a letter beyond ASCII. -/
def accentedPatterns : List Text := ["É.post", "é.post"]

/-- The second pattern is dropped, though the first one is not found where it is. -/
theorem not_keeps_accented : ¬Keeps accentedPatterns "é.post(url);" := by
  rintro ⟨hmentioned, -⟩
  have hfound : Mentioned (trimmed accentedPatterns) "é.post(url);" := ⟨"é.post", by decide⟩
  obtain ⟨p, hp, hmentions⟩ := hmentioned.mpr hfound
  have hkept : normalize accentedPatterns = trimmed ["É.post"] := by decide +kernel
  have hnone : (trimmed ["É.post"]).all (fun p => !Argument.mentions "é.post(url);" p) = true :=
    rfl
  rw [hkept] at hp
  have hnot := List.all_eq_true.mp hnone p hp
  simp [hmentions] at hnot

end Trace

end ClassAtlas
