import Mathlib.Data.List.Infix
import Mathlib.Data.List.TakeWhile
import ClassAtlas.Proofs.Source.Word
import ClassAtlas.Source.Declared

namespace ClassAtlas

/-- A text includes the parts that stand in it without a gap. -/
theorem Text.includes_iff {t part : Text} : t.includes part = true ↔ part <:+: t := by
  induction t with
  | nil => simp [Text.includes]
  | cons b rest ih => simp [Text.includes, ih, List.infix_cons_iff]

namespace Scan

variable {α : Type} {recognise : Recogniser α}

/-- Something is found at a position of a text. -/
def Finds (recognise : Recogniser α) (t : Text) (found : α) : Prop :=
  ∃ front back previous width, t = front ++ back ∧ recognise previous back = some (found, width)

/-- What comes before a position does not matter, nothing is found at the end of a text, and no
occurrence starts inside another one. -/
structure Separate (recognise : Recogniser α) : Prop where
  nil : ∀ previous, recognise previous [] = none
  blind : ∀ previous previous' t, recognise previous t = recognise previous' t
  apart : ∀ {previous t found width}, recognise previous t = some (found, width) →
    ∀ {k}, 0 < k → k < width → recognise previous (t.drop k) = none

/-- Something is found in a text at its first byte or behind it. -/
theorem finds_cons {b : UInt8} {rest : Text} {found : α} :
    Finds recognise (b :: rest) found ↔
      (∃ previous width, recognise previous (b :: rest) = some (found, width)) ∨
        Finds recognise rest found := by
  constructor
  · rintro ⟨front, back, previous, width, hsplit, hfound⟩
    cases front with
    | nil =>
      rw [hsplit]
      exact Or.inl ⟨previous, width, hfound⟩
    | cons c front =>
      obtain ⟨-, rfl⟩ := List.cons.inj hsplit
      exact Or.inr ⟨front, back, previous, width, rfl, hfound⟩
  · rintro (⟨previous, width, hfound⟩ | ⟨front, back, previous, width, rfl, hfound⟩)
    · exact ⟨[], b :: rest, previous, width, rfl, hfound⟩
    · exact ⟨b :: front, back, previous, width, rfl, hfound⟩

/-- Bytes at which nothing is found can be skipped. -/
theorem finds_drop {t : Text} {skip : Nat}
    (hskip : ∀ k < skip, ∀ previous, recognise previous (t.drop k) = none) {found : α} :
    Finds recognise (t.drop skip) found ↔ Finds recognise t found := by
  induction skip generalizing t with
  | zero => rfl
  | succ skip ih =>
    cases t with
    | nil => rfl
    | cons b rest =>
      have hhere : ∀ previous, recognise previous (b :: rest) = none := hskip 0 (Nat.succ_pos _)
      rw [List.drop_succ_cons, ih fun k hk => hskip (k + 1) (by omega), finds_cons]
      simp [hhere]

/-- The search finds what is found at any position behind the bytes to skip. -/
theorem Separate.mem_allFrom_iff (h : Separate recognise) {skip : Nat} {previous : Option UInt8}
    {t : Text} {found : α} :
    found ∈ allFrom recognise skip previous t ↔ Finds recognise (t.drop skip) found := by
  induction t generalizing skip previous with
  | nil =>
    simp only [allFrom, List.not_mem_nil, List.drop_nil, false_iff]
    rintro ⟨front, back, previous, width, hsplit, hfound⟩
    obtain ⟨-, rfl⟩ := List.append_eq_nil_iff.mp hsplit.symm
    rw [h.nil] at hfound
    contradiction
  | cons b rest ih =>
    cases skip with
    | succ skip => rw [allFrom, ih, List.drop_succ_cons]
    | zero =>
      rw [List.drop_zero, finds_cons, allFrom]
      cases hhere : recognise previous (b :: rest) with
      | none =>
        have hnone : ∀ other, recognise other (b :: rest) = none :=
          fun other => (h.blind other previous _).trans hhere
        simp [hnone, ih]
      | some hit =>
        obtain ⟨here, width⟩ := hit
        have hskip : ∀ k < width - 1, ∀ other, recognise other (rest.drop k) = none := by
          intro k hk other
          rw [h.blind other previous, ← List.drop_succ_cons (a := b)]
          exact h.apart hhere (Nat.succ_pos k) (by omega)
        have hsame : ∀ other, recognise other (b :: rest) = some (here, width) :=
          fun other => (h.blind other previous _).trans hhere
        simp only [List.mem_cons, ih, finds_drop hskip, hsame, Option.some.injEq, Prod.mk.injEq]
        simp [eq_comm]

/-- Where occurrences are separate, going over a text from left to right finds all of them. -/
theorem Separate.mem_all_iff (h : Separate recognise) {t : Text} {found : α} :
    found ∈ all recognise t ↔ Finds recognise t found := h.mem_allFrom_iff

/-- A run is as long as possible and not empty. -/
theorem run?_eq_some_iff {holds : UInt8 → Bool} {t found rest : Text} :
    run? holds t = some (found, rest) ↔ t = found ++ rest ∧ found ≠ [] ∧
      (∀ b ∈ found, holds b = true) ∧ ∀ b, rest.head? = some b → holds b = false := by
  have hspan : run? holds t =
      if t.takeWhile holds = [] then none else some (t.takeWhile holds, t.dropWhile holds) := by
    unfold run?
    rw [List.span_eq_takeWhile_dropWhile]
    split
    · next heq => simp [(Prod.mk.inj heq).1]
    · next hne heq =>
      obtain ⟨rfl, rfl⟩ := Prod.mk.inj heq
      exact (if_neg hne).symm
  rw [hspan]
  constructor
  · intro h
    split at h
    · contradiction
    · next hne =>
      obtain ⟨rfl, rfl⟩ := Prod.mk.inj (Option.some.inj h)
      refine ⟨List.takeWhile_append_dropWhile.symm, hne, fun b hb => List.mem_takeWhile_imp hb, ?_⟩
      intro b hb
      have hhead := List.head?_dropWhile_not holds t
      simpa [hb] using hhead
  · rintro ⟨rfl, hne, hall, hrest⟩
    have hstop : rest.takeWhile holds = [] ∧ rest.dropWhile holds = rest := by
      cases rest with
      | nil => simp
      | cons b rest => simp [hrest b rfl]
    rw [List.takeWhile_append_of_pos hall, List.dropWhile_append_of_pos hall, hstop.1, hstop.2]
    simp [hne]

end Scan

namespace Source

/-- A name in an import statement: name bytes and at least one of them. -/
def IsImportName (name : Text) : Prop := name ≠ [] ∧ ∀ b ∈ name, isNameByte b = true

/-- A run of blanks in an import statement. -/
def IsGap (gap : Text) : Prop := gap ≠ [] ∧ ∀ b ∈ gap, Text.isGap b = true

/-- The word that an import statement starts with. -/
def importWord : Text := [105, 109, 112, 111, 114, 116]

/-- The text of an import statement. -/
def statement (gap name : Text) : Text := importWord ++ gap ++ name ++ [59]

/-- The text has an import statement of the name, with some gap between its word and the name. -/
def Imports (t name : Text) : Prop :=
  IsImportName name ∧ ∃ gap, IsGap gap ∧ statement gap name <:+: t

/-- The word of an import statement, byte by byte. -/
theorem ofString_import : Text.ofString "import" = importWord := rfl

/-- No byte of a name is a blank. -/
theorem not_isGap_of_isNameByte {b : UInt8} (h : isNameByte b = true) : Text.isGap b = false := by
  cases hgap : Text.isGap b with
  | false => rfl
  | true =>
    simp only [Text.isGap, Bool.or_eq_true, beq_iff_eq] at hgap
    obtain (((rfl | rfl) | rfl) | rfl) | rfl := hgap <;> exact absurd h (by decide)

/-- An import is recognised exactly where a statement stands, with its name and its length. What comes
before it does not matter. -/
theorem importAt?_eq_some_iff {previous : Option UInt8} {t name : Text} {width : Nat} :
    importAt? previous t = some (name, width) ↔ IsImportName name ∧ ∃ gap rest, IsGap gap ∧
      t = statement gap name ++ rest ∧ width = (statement gap name).length := by
  constructor
  · intro h
    simp only [importAt?, ofString_import, Option.bind_eq_bind, Option.bind_eq_some_iff,
      Option.pure_def, Option.some.injEq, Prod.mk.injEq, Scan.gaps?, Option.map_eq_some_iff,
      Prod.exists, Text.after?_eq_some_iff, Scan.run?_eq_some_iff] at h
    obtain ⟨afterWord, rfl, afterGap, ⟨gap, _, ⟨rfl, hgap, hgaps, -⟩, rfl⟩, name', afterName,
      ⟨rfl, hname, hnames, -⟩, rest, hsemi, rfl, rfl⟩ := h
    have hafter : afterName = 59 :: rest := by
      cases afterName with
      | nil => simp [Scan.byte?] at hsemi
      | cons b tail =>
        simp only [Scan.byte?, beq_iff_eq, Option.ite_none_right_eq_some, Option.some.injEq] at hsemi
        rw [hsemi.1, hsemi.2]
    subst hafter
    refine ⟨⟨hname, hnames⟩, gap, rest, ⟨hgap, hgaps⟩, by simp [statement], ?_⟩
    simp only [statement, List.length_append, List.length_cons, List.length_nil]
    omega
  · rintro ⟨⟨hname, hnames⟩, gap, rest, ⟨hgap, hgaps⟩, rfl, rfl⟩
    have hafter : (statement gap name ++ rest).after? importWord =
        some (gap ++ (name ++ 59 :: rest)) := by
      rw [Text.after?_eq_some_iff]
      simp [statement]
    have hgap' : Scan.gaps? (gap ++ (name ++ 59 :: rest)) = some (name ++ 59 :: rest) := by
      rw [Scan.gaps?, Scan.run?_eq_some_iff.mpr ⟨rfl, hgap, hgaps, ?_⟩]
      · rfl
      · intro b hb
        cases name with
        | nil => exact absurd rfl hname
        | cons c name =>
          obtain rfl : c = b := by simpa using hb
          exact not_isGap_of_isNameByte (hnames c (List.mem_cons_self ..))
    have hname' : Scan.run? isNameByte (name ++ 59 :: rest) = some (name, 59 :: rest) := by
      refine Scan.run?_eq_some_iff.mpr ⟨rfl, hname, hnames, ?_⟩
      intro b hb
      obtain rfl : 59 = b := by simpa using hb
      decide
    simp [importAt?, ofString_import, hafter, hgap', hname', Scan.byte?]

/-- A statement is its word, a gap, the name and a semicolon. -/
theorem statement_append (gap name rest : Text) :
    statement gap name ++ rest = importWord ++ (gap ++ (name ++ 59 :: rest)) := by
  simp [statement]

/-- No byte of the word is a blank. -/
theorem not_isGap_of_mem_importWord {b : UInt8} (h : b ∈ importWord) : Text.isGap b = false := by
  have hall : importWord.all (fun b => !Text.isGap b) = true := rfl
  simpa using List.all_eq_true.mp hall b h

/-- No blank stands behind the gap of an import statement. -/
theorem lt_of_isGap_getElem? {gap name rest : Text} (hname : IsImportName name) {i : Nat} {b : UInt8}
    (hi : i < (statement gap name).length) (hb : (statement gap name ++ rest)[i]? = some b)
    (hgap : Text.isGap b = true) : i < (importWord ++ gap).length := by
  by_contra hbehind
  rw [List.getElem?_append_left hi, statement, List.append_assoc,
    List.getElem?_append_right (by omega)] at hb
  rcases List.mem_append.mp (List.mem_of_getElem? hb) with hmem | hmem
  · rw [not_isGap_of_isNameByte (hname.2 b hmem)] at hgap
    contradiction
  · rw [List.mem_singleton.mp hmem] at hgap
    exact absurd hgap (by decide)

/-- A statement ends with a semicolon. -/
theorem getElem?_statement_last (gap name rest : Text) :
    (statement gap name ++ rest)[(statement gap name).length - 1]? = some 59 := by
  have hlast : (statement gap name).length - 1 = (importWord ++ gap ++ name).length := by
    rw [statement, List.length_append, List.length_singleton, Nat.add_sub_cancel]
  rw [hlast, statement, List.append_assoc, List.getElem?_append_right (Nat.le_refl _)]
  simp

/-- An import statement starts with its word, and a blank follows. -/
theorem getElem?_statement_head (gap name rest : Text) (hgap : IsGap gap) :
    (∀ i < 6, ∃ b ∈ importWord, (statement gap name ++ rest)[i]? = some b) ∧
      ∃ b, (statement gap name ++ rest)[6]? = some b ∧ Text.isGap b = true := by
  rw [statement_append]
  constructor
  · intro i hi
    have hword : i < importWord.length := hi
    rw [List.getElem?_append_left hword, List.getElem?_eq_getElem hword]
    exact ⟨importWord[i], List.getElem_mem hword, rfl⟩
  · obtain ⟨hne, hall⟩ := hgap
    cases gap with
    | nil => exact absurd rfl hne
    | cons b gap => exact ⟨b, rfl, hall b (List.mem_cons_self ..)⟩

/-- No import statement starts inside of another one. -/
theorem separate_importAt? : Scan.Separate importAt? where
  nil _ := rfl
  blind _ _ _ := rfl
  apart {previous t name width} h {k} hpos hlt := by
    obtain ⟨hname, gap, rest, hgap, rfl, rfl⟩ := importAt?_eq_some_iff.mp h
    -- A second statement at `k` puts its word either over the closing byte of the first one, or
    -- before a blank: that blank lies in the first gap, and then so does the word's last byte.
    refine Option.eq_none_iff_forall_ne_some.mpr ?_
    rintro ⟨name', width'⟩ h'
    obtain ⟨-, gap', rest', hgap', hdrop, -⟩ := importAt?_eq_some_iff.mp h'
    obtain ⟨hletters, blank, hblank, hisgap⟩ := getElem?_statement_head gap' name' rest' hgap'
    rw [← hdrop, List.getElem?_drop] at hblank
    simp only [← hdrop, List.getElem?_drop] at hletters
    by_cases hover : (statement gap name).length ≤ k + 6
    · obtain ⟨b, hb, hat⟩ := hletters ((statement gap name).length - 1 - k) (by omega)
      rw [show k + ((statement gap name).length - 1 - k) = (statement gap name).length - 1 by omega,
        getElem?_statement_last] at hat
      obtain rfl := Option.some.inj hat
      exact absurd hb (by decide)
    · have hin := lt_of_isGap_getElem? hname (by omega) hblank hisgap
      obtain ⟨b, hb, hat⟩ := hletters 5 (by omega)
      have hlength : importWord.length = 6 := rfl
      rw [List.length_append] at hin
      rw [statement_append, List.getElem?_append_right (by omega),
        List.getElem?_append_left (by omega)] at hat
      have hblank' := hgap.2 b (List.mem_of_getElem? hat)
      rw [not_isGap_of_mem_importWord hb] at hblank'
      contradiction

/-- The imports of a text are those of all import statements in it, wherever they stand. -/
theorem mem_imports_iff {t name : Text} : name ∈ imports t ↔ Imports t name := by
  unfold imports
  rw [separate_importAt?.mem_all_iff]
  constructor
  · rintro ⟨front, back, previous, width, rfl, hfound⟩
    obtain ⟨hname, gap, rest, hgap, rfl, -⟩ := importAt?_eq_some_iff.mp hfound
    exact ⟨hname, gap, hgap, front, rest, by simp⟩
  · rintro ⟨hname, gap, hgap, front, rest, rfl⟩
    exact ⟨front, statement gap name ++ rest, none, _, by simp,
      importAt?_eq_some_iff.mpr ⟨hname, gap, rest, hgap, rfl, rfl⟩⟩

end Source

end ClassAtlas
