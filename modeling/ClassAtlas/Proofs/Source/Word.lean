import Mathlib.Data.List.Basic
import ClassAtlas.Proofs.Text.Utf8
import ClassAtlas.Source.Word

namespace ClassAtlas

/-- What comes after a lead is the rest of a text that starts with it. -/
theorem Text.after?_eq_some_iff {t lead rest : Text} :
    t.after? lead = some rest ↔ t = lead ++ rest := by
  induction lead generalizing t with
  | nil => simp [Text.after?, eq_comm]
  | cons b lead ih =>
    cases t with
    | nil => simp [Text.after?]
    | cons c t =>
      by_cases hc : c = b
      · simp [Text.after?, hc, ih]
      · simp [Text.after?, hc]

namespace Word

variable {t word : Text}

/-- An identifier has word bytes only, and at least one. -/
theorem isIdentifier_iff : isIdentifier word = true ↔ word ≠ [] ∧ word.all Text.isWord = true := by
  simp [isIdentifier]

/-- The byte before what follows `front`, where `previous` comes before the text. -/
def lastOf (previous : Option UInt8) (front : Text) : Option UInt8 := front.getLast?.or previous

/-- Behind nothing the byte before is the one before the text. -/
@[simp] theorem lastOf_nil (previous : Option UInt8) : lastOf previous [] = previous := rfl

/-- Behind a first byte the text goes on from there. -/
@[simp] theorem lastOf_cons (previous : Option UInt8) (b : UInt8) (front : Text) :
    lastOf previous (b :: front) = lastOf (some b) front := by
  cases front with
  | nil => rfl
  | cons c front => simp [lastOf, List.getLast?_cons]

/-- `word` is a part of `t` whose neighbours are no word bytes, where `previous` comes before the
text. -/
def StandsBehind (previous : Option UInt8) (t word : Text) : Prop :=
  ∃ front back, t = front ++ word ++ back ∧ inWord (lastOf previous front) = false ∧
    inWord back.head? = false

/-- `word` is a part of `t` whose neighbours are no word bytes. -/
def Stands (t word : Text) : Prop :=
  ∃ front back, t = front ++ word ++ back ∧ inWord front.getLast? = false ∧
    inWord back.head? = false

/-- A word stands in a text as it does behind no byte. -/
theorem stands_iff : Stands t word ↔ StandsBehind none t word := by
  simp [Stands, StandsBehind, lastOf]

/-- No word stands in the empty text. -/
theorem standsBehind_nil (hword : word ≠ []) (previous : Option UInt8) :
    ¬StandsBehind previous [] word := by
  rintro ⟨front, back, hsplit, -⟩
  simp [hword] at hsplit

/-- A word starts at the first byte or behind it. -/
theorem standsBehind_cons {previous : Option UInt8} {b : UInt8} {rest : Text} :
    StandsBehind previous (b :: rest) word ↔
      (inWord previous = false ∧ ∃ back, b :: rest = word ++ back ∧ inWord back.head? = false) ∨
        StandsBehind (some b) rest word := by
  constructor
  · rintro ⟨front, back, hsplit, hfront, hback⟩
    cases front with
    | nil => exact Or.inl ⟨hfront, back, hsplit, hback⟩
    | cons c front =>
      obtain ⟨rfl, hrest⟩ := List.cons.inj hsplit
      exact Or.inr ⟨front, back, hrest, by simpa using hfront, hback⟩
  · rintro (⟨hprevious, back, hsplit, hback⟩ | ⟨front, back, rfl, hfront, hback⟩)
    · exact ⟨[], back, hsplit, hprevious, hback⟩
    · exact ⟨b :: front, back, rfl, by simpa using hfront, hback⟩

/-- A word stands at the front of a text if it is there and has no word bytes for neighbours. -/
theorem standsAt_iff {previous : Option UInt8} :
    standsAt word previous t = true ↔
      inWord previous = false ∧ ∃ back, t = word ++ back ∧ inWord back.head? = false := by
  unfold standsAt
  cases hafter : t.after? word with
  | none =>
    simp only [Bool.false_eq_true, false_iff, not_and, not_exists]
    rintro - back rfl -
    rw [Text.after?_eq_some_iff.mpr rfl] at hafter
    contradiction
  | some rest =>
    obtain rfl := Text.after?_eq_some_iff.mp hafter
    simp

/-- The search finds a word exactly where it stands. -/
theorem standsFrom_iff (hword : word ≠ []) {previous : Option UInt8} :
    standsFrom word previous t = true ↔ StandsBehind previous t word := by
  induction t generalizing previous with
  | nil =>
    have hnot := standsBehind_nil hword previous
    simp only [standsFrom, standsAt_iff, hnot, iff_false, not_and, not_exists]
    rintro - back hsplit
    simp [hword] at hsplit
  | cons b rest ih => rw [standsFrom, Bool.or_eq_true, standsAt_iff, ih, standsBehind_cons]

/-- A word at the start of a text is the longest run of word bytes there. -/
theorem takeWhile_isWord_append {back : Text} (hword : word.all Text.isWord = true)
    (hback : inWord back.head? = false) : (word ++ back).takeWhile Text.isWord = word := by
  rw [List.takeWhile_append_of_pos (List.all_eq_true.mp hword)]
  cases back with
  | nil => simp
  | cons b back =>
    have hb : Text.isWord b = false := hback
    simp [hb]

/-- A word stands at the start of a text, where it is the run of word bytes there, or it stands
behind a word byte. -/
theorem standsBehind_of_not_inWord {previous : Option UInt8} (hprevious : inWord previous = false)
    (hword : isIdentifier word = true) {b : UInt8} (hb : Text.isWord b = true) :
    StandsBehind previous t word ↔
      word = t.takeWhile Text.isWord ∨ StandsBehind (some b) t word := by
  obtain ⟨hne, hall⟩ := isIdentifier_iff.mp hword
  constructor
  · rintro ⟨front, back, rfl, hfront, hback⟩
    cases front with
    | nil => exact Or.inl (takeWhile_isWord_append hall hback).symm
    | cons c front => exact Or.inr ⟨c :: front, back, rfl, by simpa using hfront, hback⟩
  · rintro (heq | ⟨front, back, rfl, hfront, hback⟩)
    · refine ⟨[], t.dropWhile Text.isWord, ?_, hprevious, ?_⟩
      · rw [List.nil_append, heq, List.takeWhile_append_dropWhile]
      · have hhead := List.head?_dropWhile_not Text.isWord t
        cases hdrop : (t.dropWhile Text.isWord).head? with
        | none => rfl
        | some b => simpa [hdrop, inWord] using hhead
    · cases front with
      | nil => simp [inWord, hb] at hfront
      | cons c front => exact ⟨c :: front, back, rfl, by simpa using hfront, hback⟩

/-- From the end to the start, the open word is the run at the start of what was read, and the
closed ones are those that would stand behind a word byte. -/
theorem foldr_extend (t : Text) :
    (t.foldr extend ([], [])).1 = t.takeWhile Text.isWord ∧
      ∀ {word}, isIdentifier word = true → ∀ {b}, Text.isWord b = true →
        (word ∈ (t.foldr extend ([], [])).2 ↔ StandsBehind (some b) t word) := by
  induction t with
  | nil =>
    refine ⟨rfl, ?_⟩
    intro word hword b hb
    simp [standsBehind_nil (isIdentifier_iff.mp hword).1]
  | cons c rest ih =>
    obtain ⟨hopened, hclosed⟩ := ih
    have hstart : ∀ {word b}, Text.isWord b = true →
        (StandsBehind (some b) (c :: rest) word ↔ StandsBehind (some c) rest word) := by
      intro word b hb
      rw [standsBehind_cons]
      simp [inWord, hb]
    by_cases hc : Text.isWord c = true
    · refine ⟨by simp [extend, hc, hopened], ?_⟩
      intro word hword b hb
      rw [hstart hb, ← hclosed hword hc]
      simp [extend, hc]
    · have hc' : inWord (some c) = false := by simpa [inWord] using hc
      refine ⟨?_, ?_⟩
      · by_cases hempty : (rest.foldr extend ([], [])).1 = [] <;> simp [extend, hc, hempty]
      · intro word hword b hb
        rw [hstart hb, standsBehind_of_not_inWord hc' hword hb, ← hopened, ← hclosed hword hb]
        by_cases hempty : (rest.foldr extend ([], [])).1 = []
        · simp [extend, hc, hempty, (isIdentifier_iff.mp hword).1]
        · simp [extend, hc, hempty]

/-- The runs of word bytes are the words that stand in a text. -/
theorem mem_runs_iff (hword : isIdentifier word = true) : word ∈ runs t ↔ Stands t word := by
  have hne := (isIdentifier_iff.mp hword).1
  obtain ⟨hopened, hclosed⟩ := foldr_extend t
  have hb : Text.isWord 97 = true := by decide
  rw [stands_iff, standsBehind_of_not_inWord rfl hword hb, ← hopened, ← hclosed hword hb]
  unfold runs
  by_cases hempty : (t.foldr extend ([], [])).1 = []
  · simp [hempty, hne]
  · simp [hempty]

/-- Looking a word up among the runs and searching for it give the same answer, and there always is one. -/
theorem isIn_eq_contains_runs (hword : isIdentifier word = true) :
    isIn t word = some ((runs t).contains word) := by
  have hne := (isIdentifier_iff.mp hword).1
  have hsearch : standsFrom word none t = (runs t).contains word := by
    rw [Bool.eq_iff_iff, List.contains_iff_mem, mem_runs_iff hword, stands_iff, ← standsFrom_iff hne]
  simp [isIn, hne, hword, hsearch]

/-- Word bytes are well-formed by themselves. -/
theorem isValid_of_isIdentifier (hword : isIdentifier word = true) : Utf8.isValid word = true := by
  have hbytes := List.all_eq_true.mp (isIdentifier_iff.mp hword).2
  refine Utf8.isValid_iff.mpr (Utf8.scrub_of_ascii (List.all_eq_true.mpr fun b hb => ?_))
  have hb := hbytes b hb
  simp only [Text.isWord, Text.isLetter, Text.isUpper, Text.isLower, Text.isDigit, Bool.or_eq_true, Bool.and_eq_true,
    decide_eq_true_eq, beq_iff_eq, UInt8.le_iff_toNat_le, UInt8.toNat_ofNat, ← UInt8.toNat_inj] at hb
  simp only [decide_eq_true_eq, UInt8.lt_iff_toNat_lt, UInt8.toNat_ofNat]
  omega

/-- There is a pattern for exactly the words that are well-formed. -/
theorem Pattern.of?_eq_some_iff {p : Pattern} : Pattern.of? word = some p ↔ p.word = word := by
  unfold Pattern.of?
  constructor
  · intro h
    split at h
    · rw [← Option.some.inj h]
    · contradiction
  · rintro rfl
    rw [dif_pos p.valid]

/-- A text has a word that is not made of word bytes if the pattern of the word occurs in it. -/
theorem isIn_eq_some_iff (hne : word ≠ []) (hword : isIdentifier word = false) {answer : Bool} :
    isIn t word = some answer ↔ ∃ p : Pattern, p.word = word ∧ occurs t p = answer := by
  simp [isIn, hne, hword, Pattern.of?_eq_some_iff]

/-- The search has an answer for every word that is well-formed. -/
theorem exists_isIn (hvalid : Utf8.isValid word = true) : ∃ answer, isIn t word = some answer := by
  unfold isIn
  split
  · exact ⟨_, rfl⟩
  · split
    · exact ⟨_, rfl⟩
    · have hpattern : Pattern.of? word = some ⟨word, hvalid⟩ := Pattern.of?_eq_some_iff.mpr rfl
      exact ⟨_, by rw [hpattern, Option.map_some]⟩

end Word

end ClassAtlas
