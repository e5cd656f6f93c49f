import ClassAtlas.Proofs.Text.Utf8
import ClassAtlas.Text.Case

namespace ClassAtlas

namespace Text

variable {b : UInt8}

/-- The capital letters are A to Z. -/
theorem isUpper_iff : isUpper b = true ↔ 65 ≤ b.toNat ∧ b.toNat ≤ 90 := by
  simp [isUpper, UInt8.le_iff_toNat_le]

/-- A byte that is no capital letter is left as it is. -/
theorem lowerByte_of_not_isUpper (h : isUpper b = false) : lowerByte b = b := by simp [lowerByte, h]

/-- The small letters stand 32 bytes behind the capital ones. -/
theorem toNat_lowerByte (h : isUpper b = true) : (lowerByte b).toNat = b.toNat + 32 := by
  have hbounds := isUpper_iff.mp h
  simp only [lowerByte, h, if_true, UInt8.toNat_add, UInt8.toNat_ofNat]
  omega

/-- No capital letter is left. -/
theorem isUpper_lowerByte (b : UInt8) : isUpper (lowerByte b) = false := by
  cases h : isUpper b with
  | false => rw [lowerByte_of_not_isUpper h, h]
  | true =>
    have hbounds := isUpper_iff.mp h
    rw [← Bool.not_eq_true, isUpper_iff, toNat_lowerByte h]
    omega

/-- A byte is lowered within ASCII or outside of it. -/
theorem lowerByte_lt_iff : lowerByte b < 0x80 ↔ b < 0x80 := by
  cases h : isUpper b with
  | false => rw [lowerByte_of_not_isUpper h]
  | true =>
    have hbounds := isUpper_iff.mp h
    simp only [UInt8.lt_iff_toNat_lt, toNat_lowerByte h, UInt8.reduceToNat]
    omega

/-- Lowering a text twice is lowering it once. -/
theorem lowerAscii_lowerAscii (t : Text) : t.lowerAscii.lowerAscii = t.lowerAscii := by
  simp [lowerAscii, lowerByte_of_not_isUpper (isUpper_lowerByte _)]

end Text

namespace Utf8

variable {a b c d : UInt8}

/-- A byte that is no letter is left alone; a letter continues no code point, in either case. -/
theorem lowerByte_cases (b : UInt8) :
    Text.lowerByte b = b ∨ isTail b = false ∧ isTail (Text.lowerByte b) = false := by
  cases h : Text.isUpper b with
  | false => exact .inl (Text.lowerByte_of_not_isUpper h)
  | true =>
    have hbounds := Text.isUpper_iff.mp h
    right
    simp only [isTail, Bool.and_eq_false_iff, decide_eq_false_iff_not, UInt8.le_iff_toNat_le,
      UInt8.toNat_ofNat, Text.toNat_lowerByte h]
    omega

/-- Bytes that continue a sequence are left as they are. -/
theorem lowerByte_of_isTail (h : isTail b = true) : Text.lowerByte b = b := by
  rcases lowerByte_cases b with hsame | ⟨hnot, -⟩
  · exact hsame
  · rw [h] at hnot
    contradiction

/-- Lowering the second byte neither makes nor breaks a sequence of two. -/
theorem isPair_lowerByte : isPair a (Text.lowerByte b) = isPair a b := by
  rcases lowerByte_cases b with hb | ⟨hb, hb'⟩
  · rw [hb]
  · simp [isPair, hb, hb']

/-- Lowering the later bytes neither makes nor breaks a sequence of three. -/
theorem isTriple_lowerByte : isTriple a (Text.lowerByte b) (Text.lowerByte c) = isTriple a b c := by
  rcases lowerByte_cases b with hb | ⟨hb, hb'⟩ <;> rcases lowerByte_cases c with hc | ⟨hc, hc'⟩
  · rw [hb, hc]
  all_goals simp [isTriple, *]

/-- Lowering the later bytes neither makes nor breaks a sequence of four. -/
theorem isQuad_lowerByte :
    isQuad a (Text.lowerByte b) (Text.lowerByte c) (Text.lowerByte d) = isQuad a b c d := by
  rcases lowerByte_cases b with hb | ⟨hb, hb'⟩ <;> rcases lowerByte_cases c with hc | ⟨hc, hc'⟩ <;>
    rcases lowerByte_cases d with hd | ⟨hd, hd'⟩
  · rw [hb, hc, hd]
  all_goals simp [isQuad, *]

/-- Behind a byte beyond ASCII, lowering ASCII letters leaves the first rune as it is. -/
theorem next?_cons_lowerAscii (ha : ¬a < 0x80) (t : Text) : next? (a :: Text.lowerAscii t) =
    (next? (a :: t)).map fun first => (first.1, Text.lowerAscii first.2) := by
  cases t with
  | nil => simp [next?, ha, Text.lowerAscii]
  | cons b t =>
    by_cases hpair : isPair a b = true
    · have hb : isTail b = true := by simp_all [isPair]
      simp [next?, ha, Text.lowerAscii, hpair, lowerByte_of_isTail hb]
    cases t with
    | nil => simp [next?, ha, Text.lowerAscii, isPair_lowerByte, hpair]
    | cons c t =>
      by_cases htriple : isTriple a b c = true
      · have hb : isTail b = true := by simp_all [isTriple]
        have hc : isTail c = true := by simp_all [isTriple]
        simp [next?, ha, Text.lowerAscii, hpair, htriple, lowerByte_of_isTail hb, lowerByte_of_isTail hc]
      cases t with
      | nil => simp [next?, ha, Text.lowerAscii, isPair_lowerByte, hpair, isTriple_lowerByte, htriple]
      | cons d t =>
        by_cases hquad : isQuad a b c d = true
        · have hb : isTail b = true := by simp_all [isQuad]
          have hc : isTail c = true := by simp_all [isQuad]
          have hd : isTail d = true := by simp_all [isQuad]
          simp [next?, ha, Text.lowerAscii, hpair, htriple, hquad, lowerByte_of_isTail hb,
            lowerByte_of_isTail hc, lowerByte_of_isTail hd]
        · simp [next?, ha, Text.lowerAscii, isPair_lowerByte, hpair, isTriple_lowerByte, htriple,
            isQuad_lowerByte, hquad]

end Utf8

namespace Case

set_option maxRecDepth 4096 in
/-- All stretches but the first one lie beyond ASCII. -/
theorem le_first_of_mem_tail {s : Stretch} (hs : s ∈ stretches.tail) : 0x80 ≤ s.first :=
  of_decide_eq_true
    (List.all_eq_true.mp (rfl : stretches.tail.all (fun s => decide (0x80 ≤ s.first)) = true) s hs)

/-- Of ASCII only the capital letters have a lower case of their own. -/
theorem lower_of_ascii {code : Nat} (hcode : code < 0x80) :
    lower code = if 65 ≤ code ∧ code ≤ 90 then code + 32 else code := by
  have htail : stretches.tail.find? (·.covers code) = none := by
    refine List.find?_eq_none.mpr fun s hs hcovers => ?_
    have hfirst := le_first_of_mem_tail hs
    simp only [Stretch.covers, Bool.and_eq_true, decide_eq_true_eq] at hcovers
    omega
  have hcovers : Stretch.covers ⟨0x41, 0x5A, 1, 32⟩ code = true ↔ 65 ≤ code ∧ code ≤ 90 := by
    simp [Stretch.covers, Nat.mod_one]
  have hfind : stretches.find? (·.covers code) =
      if 65 ≤ code ∧ code ≤ 90 then some ⟨0x41, 0x5A, 1, 32⟩ else none := by
    change (⟨0x41, 0x5A, 1, 32⟩ :: stretches.tail : List Stretch).find? (·.covers code) = _
    by_cases h : 65 ≤ code ∧ code ≤ 90
    · rw [List.find?_cons_of_pos, if_pos h]
      exact hcovers.mpr h
    · rw [List.find?_cons_of_neg, htail, if_neg h]
      exact mt hcovers.mp h
  rw [lower, hfind]
  by_cases h : 65 ≤ code ∧ code ≤ 90
  · simp only [h, and_self, if_true]
    omega
  · simp only [h, if_false]

/-- A byte of ASCII and the one that lowering makes of it have the same lower case. -/
theorem lower_lowerByte {b : UInt8} (hb : b < 0x80) : lower (Text.lowerByte b).toNat = lower b.toNat := by
  have hnat : b.toNat < 128 := by simpa [UInt8.lt_iff_toNat_lt] using hb
  cases h : Text.isUpper b with
  | false => rw [Text.lowerByte_of_not_isUpper h]
  | true =>
    have hbounds := Text.isUpper_iff.mp h
    rw [Text.toNat_lowerByte h, lower_of_ascii (by omega), lower_of_ascii hnat, if_neg (by omega),
      if_pos hbounds]

/-- Lowering the ASCII letters of a text changes its first rune in case only. -/
theorem next?_lowerAscii {t rest : Text} {r : Rune} (h : Utf8.next? t = some (r, rest)) :
    ∃ r', Utf8.next? t.lowerAscii = some (r', rest.lowerAscii) ∧
      lower (Utf8.code r') = lower (Utf8.code r) := by
  cases t with
  | nil => simp [Utf8.next?] at h
  | cons a r0 =>
    by_cases ha : a < 0x80
    · have hnext : ∀ {a : UInt8} {r0 : Text}, a < 0x80 →
          Utf8.next? (a :: r0) = some (.scalar a.toNat, r0) := by
        intro a r0 ha
        simp [Utf8.next?, ha]
      obtain ⟨rfl, rfl⟩ := Prod.mk.inj (Option.some.inj ((hnext ha).symm.trans h))
      exact ⟨_, hnext (Text.lowerByte_lt_iff.mpr ha), lower_lowerByte ha⟩
    · have hlead : Text.lowerByte a = a := by
        refine Text.lowerByte_of_not_isUpper (Bool.eq_false_iff.mpr fun hupper => ha ?_)
        have hbounds := Text.isUpper_iff.mp hupper
        simp only [UInt8.lt_iff_toNat_lt, UInt8.reduceToNat]
        omega
      have hnext := Utf8.next?_cons_lowerAscii ha r0
      rw [h, ← hlead] at hnext
      exact ⟨r, hnext, rfl⟩

/-- Runes are lowered to the same text whether or not ASCII was lowered before. The text need not be
well-formed. -/
theorem flatMap_lower_lowerAscii (t : Text) :
    ((Utf8.runes t.lowerAscii).flatMap fun r => Utf8.encode (lower (Utf8.code r))) =
      (Utf8.runes t).flatMap fun r => Utf8.encode (lower (Utf8.code r)) := by
  refine Utf8.runes_induction (P := fun t rs =>
    ((Utf8.runes t.lowerAscii).flatMap fun r => Utf8.encode (lower (Utf8.code r))) =
      rs.flatMap fun r => Utf8.encode (lower (Utf8.code r))) ?_ ?_ t
  · exact congrArg _ Utf8.runes_nil
  · intro r rest _ hnext ih
    obtain ⟨r', hnext', hlower⟩ := next?_lowerAscii hnext
    rw [Utf8.runes_of_next? hnext', List.flatMap_cons, List.flatMap_cons, ih, hlower]

/-- The lower case of a text does not depend on the case of its ASCII letters. -/
theorem lowerText_lowerAscii (t : Text) : lowerText t.lowerAscii = lowerText t := by
  have hall : t.lowerAscii.all (· < 0x80) = t.all (· < 0x80) := by
    simp [Text.lowerAscii, List.all_map, Function.comp_def, Text.lowerByte_lt_iff]
  simp only [lowerText, hall, Text.lowerAscii_lowerAscii, flatMap_lower_lowerAscii]

/-- ASCII is lowered byte by byte. -/
theorem lowerText_of_ascii {t : Text} (h : ∀ b ∈ t, b < 0x80) : lowerText t = t.lowerAscii :=
  if_pos (by simpa using h)

end Case

end ClassAtlas
