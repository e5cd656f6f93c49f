import ClassAtlas.Text.Utf8

namespace ClassAtlas.Utf8

/-- A code point that UTF-8 encodes: all of them except the surrogates. -/
def IsScalar (code : Nat) : Prop := code < 0xD800 ∨ (0xE000 ≤ code ∧ code < 0x110000)

private theorem toNat_toUInt8 {n : Nat} (h : n < 256) : n.toUInt8.toNat = n := by
  simp only [Nat.toUInt8_eq, UInt8.toNat_ofNat']
  omega

private theorem isTail_iff {b : UInt8} : isTail b = true ↔ 128 ≤ b.toNat ∧ b.toNat ≤ 191 := by
  simp [isTail, UInt8.le_iff_toNat_le]

private theorem isPair_iff {a b : UInt8} : isPair a b = true ↔
    194 ≤ a.toNat ∧ a.toNat ≤ 223 ∧ 128 ≤ b.toNat ∧ b.toNat ≤ 191 := by
  simp [isPair, isTail_iff, UInt8.le_iff_toNat_le, and_assoc]

/-- Three bytes are a sequence if they lie in the ranges that leave out overlong forms and surrogates. -/
theorem isTriple_iff {a b c : UInt8} : isTriple a b c = true ↔
    224 ≤ a.toNat ∧ a.toNat ≤ 239 ∧ 128 ≤ b.toNat ∧ b.toNat ≤ 191 ∧ 128 ≤ c.toNat ∧ c.toNat ≤ 191 ∧
      (a.toNat ≠ 224 ∨ 160 ≤ b.toNat) ∧ (a.toNat ≠ 237 ∨ b.toNat ≤ 159) := by
  simp [isTriple, isTail_iff, UInt8.le_iff_toNat_le, and_assoc, ← UInt8.toNat_inj]

private theorem isQuad_iff {a b c d : UInt8} : isQuad a b c d = true ↔
    240 ≤ a.toNat ∧ a.toNat ≤ 244 ∧ 128 ≤ b.toNat ∧ b.toNat ≤ 191 ∧ 128 ≤ c.toNat ∧ c.toNat ≤ 191 ∧
      128 ≤ d.toNat ∧ d.toNat ≤ 191 ∧ (a.toNat ≠ 240 ∨ 144 ≤ b.toNat) ∧
      (a.toNat ≠ 244 ∨ b.toNat ≤ 143) := by
  simp [isQuad, isTail_iff, UInt8.le_iff_toNat_le, and_assoc, ← UInt8.toNat_inj]

/-- Beyond ASCII no byte of a code point is an ASCII byte. -/
theorem toNat_of_mem_encode {c : Nat} (h : IsScalar c) {b : UInt8} (hb : b ∈ encode c) :
    b.toNat = c ∨ (128 ≤ b.toNat ∧ 128 ≤ c) := by
  unfold IsScalar at h
  unfold encode at hb
  repeat' split at hb
  · left
    rw [List.mem_singleton.mp hb, toNat_toUInt8 (by omega)]
  all_goals
    right
    refine ⟨?_, by omega⟩
    simp only [List.mem_cons, List.not_mem_nil, or_false] at hb
  · rcases hb with rfl | rfl <;> rw [toNat_toUInt8 (by omega)] <;> omega
  · rcases hb with rfl | rfl | rfl <;> rw [toNat_toUInt8 (by omega)] <;> omega
  · rcases hb with rfl | rfl | rfl | rfl <;> rw [toNat_toUInt8 (by omega)] <;> omega

/-- The bytes of a code point are read as that code point. -/
theorem next?_encode {c : Nat} (h : IsScalar c) (rest : Text) :
    next? (encode c ++ rest) = some (.scalar c, rest) := by
  unfold IsScalar at h
  unfold encode
  split
  · next hc =>
    have ha := toNat_toUInt8 (n := c) (by omega)
    have hlead : c.toUInt8 < 0x80 := by simp [UInt8.lt_iff_toNat_lt, ha]; omega
    simp [next?, hlead, ha]
  split
  · next hc =>
    have ha := toNat_toUInt8 (n := 0xC0 + c / 64) (by omega)
    have hb := toNat_toUInt8 (n := 0x80 + c % 64) (by omega)
    have hlead : ¬ (0xC0 + c / 64).toUInt8 < 0x80 := by rw [UInt8.lt_iff_toNat_lt, ha]; simp; omega
    have hpair : isPair (0xC0 + c / 64).toUInt8 (0x80 + c % 64).toUInt8 = true :=
      isPair_iff.mpr (by omega)
    simp only [next?, List.cons_append, List.nil_append, hlead, if_false, hpair, if_true, tailBits,
      ha, hb]
    congr 3
    omega
  split
  · next hc =>
    have ha := toNat_toUInt8 (n := 0xE0 + c / 4096) (by omega)
    have hb := toNat_toUInt8 (n := 0x80 + c / 64 % 64) (by omega)
    have hd := toNat_toUInt8 (n := 0x80 + c % 64) (by omega)
    have hlead : ¬ (0xE0 + c / 4096).toUInt8 < 0x80 := by
      rw [UInt8.lt_iff_toNat_lt, ha]; simp; omega
    have hpair : ¬ isPair (0xE0 + c / 4096).toUInt8 (0x80 + c / 64 % 64).toUInt8 = true := by
      rw [isPair_iff]
      omega
    have htriple : isTriple (0xE0 + c / 4096).toUInt8 (0x80 + c / 64 % 64).toUInt8
        (0x80 + c % 64).toUInt8 = true :=
      isTriple_iff.mpr (by omega)
    simp only [next?, List.cons_append, List.nil_append, hlead, if_false, hpair, Bool.false_eq_true,
      htriple, if_true, tailBits, ha, hb, hd]
    congr 3
    omega
  · next hc =>
    have ha := toNat_toUInt8 (n := 0xF0 + c / 262144) (by omega)
    have hb := toNat_toUInt8 (n := 0x80 + c / 4096 % 64) (by omega)
    have hd := toNat_toUInt8 (n := 0x80 + c / 64 % 64) (by omega)
    have he := toNat_toUInt8 (n := 0x80 + c % 64) (by omega)
    have hlead : ¬ (0xF0 + c / 262144).toUInt8 < 0x80 := by
      rw [UInt8.lt_iff_toNat_lt, ha]; simp; omega
    have hpair : ¬ isPair (0xF0 + c / 262144).toUInt8 (0x80 + c / 4096 % 64).toUInt8 = true := by
      rw [isPair_iff]
      omega
    have htriple : ¬ isTriple (0xF0 + c / 262144).toUInt8 (0x80 + c / 4096 % 64).toUInt8
        (0x80 + c / 64 % 64).toUInt8 = true := by
      rw [isTriple_iff]
      omega
    have hquad : isQuad (0xF0 + c / 262144).toUInt8 (0x80 + c / 4096 % 64).toUInt8
      (0x80 + c / 64 % 64).toUInt8
        (0x80 + c % 64).toUInt8 = true := isQuad_iff.mpr (by omega)
    simp only [next?, List.cons_append, List.nil_append, hlead, if_false, hpair, htriple,
      Bool.false_eq_true, hquad, if_true, tailBits, ha, hb, hd, he]
    congr 3
    omega

private theorem toUInt8_eq {n : Nat} {b : UInt8} (h : n = b.toNat) : n.toUInt8 = b := by
  rw [h]
  simp

private theorem encode_pair {a b : UInt8} (h : isPair a b = true) :
    encode (a.toNat % 32 * 64 + tailBits b) = [a, b] ∧ IsScalar
    (a.toNat % 32 * 64 + tailBits b) := by
  rw [isPair_iff] at h
  simp only [tailBits, IsScalar]
  generalize hcode : a.toNat % 32 * 64 + b.toNat % 64 = c
  refine ⟨?_, by omega⟩
  rw [encode, if_neg (by omega), if_pos (by omega), toUInt8_eq (b := a) (by omega),
    toUInt8_eq (b := b) (by omega)]

/-- Three bytes of a sequence are the encoding of its code point, which is none of the surrogates. -/
theorem encode_triple {a b d : UInt8} (h : isTriple a b d = true) :
    encode ((a.toNat % 16 * 64 + tailBits b) * 64 + tailBits d) = [a, b, d] ∧
      IsScalar ((a.toNat % 16 * 64 + tailBits b) * 64 + tailBits d) := by
  rw [isTriple_iff] at h
  simp only [tailBits, IsScalar]
  generalize hcode : (a.toNat % 16 * 64 + b.toNat % 64) * 64 + d.toNat % 64 = c
  refine ⟨?_, by omega⟩
  rw [encode, if_neg (by omega), if_neg (by omega), if_pos (by omega),
    toUInt8_eq (b := a) (by omega), toUInt8_eq (b := b) (by omega), toUInt8_eq (b := d) (by omega)]

private theorem encode_quad {a b d e : UInt8} (h : isQuad a b d e = true) :
    encode (((a.toNat % 8 * 64 + tailBits b) * 64 + tailBits d) * 64 + tailBits e) = [a, b, d, e] ∧
      IsScalar (((a.toNat % 8 * 64 + tailBits b) * 64 + tailBits d) * 64 + tailBits e) := by
  rw [isQuad_iff] at h
  simp only [tailBits, IsScalar]
  generalize hcode : ((a.toNat % 8 * 64 + b.toNat % 64) * 64 + d.toNat % 64) * 64 + e.toNat % 64 = c
  refine ⟨?_, by omega⟩
  rw [encode, if_neg (by omega), if_neg (by omega), if_neg (by omega),
    toUInt8_eq (b := a) (by omega), toUInt8_eq (b := b) (by omega), toUInt8_eq (b := d) (by omega),
    toUInt8_eq (b := e) (by omega)]

/-- What the first rune of a text says about it: it stands there with its bytes, and a code point
is one that can be encoded. -/
theorem next?_cases {t rest : Text} {r : Rune} (h : next? t = some (r, rest)) :
    t = bytes r ++ rest ∧ ∀ c, r = .scalar c → IsScalar c := by
  have hstray : ∀ {a : UInt8} {r0 : Text}, some (Rune.stray a, r0) = some (r, rest) →
      a :: r0 = bytes r ++ rest ∧ ∀ c, r = .scalar c → IsScalar c := by
    rintro a r0 ⟨⟩
    exact ⟨rfl, by simp⟩
  have hscalar : ∀ (front : Text) {r0 : Text} {c : Nat}, encode c = front ∧ IsScalar c →
      some (Rune.scalar c, r0) = some (r, rest) → front ++ r0 = bytes r ++ rest ∧ ∀ c,
        r = .scalar c → IsScalar c := by
    rintro front r0 c ⟨rfl, hc⟩ ⟨⟩
    exact ⟨rfl, by rintro _ ⟨⟩; exact hc⟩
  cases t with
  | nil => simp [next?] at h
  | cons a r0 =>
    unfold next? at h
    simp only at h
    split at h
    · next ha =>
      have hnat : a.toNat < 128 := by simpa [UInt8.lt_iff_toNat_lt] using ha
      exact hscalar [a] ⟨by rw [encode, if_pos hnat]; simp, by simp only [IsScalar]; omega⟩ h
    · cases r0 with
      | nil => exact hstray h
      | cons b r1 =>
        simp only at h
        split at h
        · next hpair => exact hscalar _ (encode_pair hpair) h
        · cases r1 with
          | nil => exact hstray h
          | cons d r2 =>
            simp only at h
            split at h
            · next htriple => exact hscalar _ (encode_triple htriple) h
            · cases r2 with
              | nil => exact hstray h
              | cons e r3 =>
                simp only at h
                split at h
                · next hquad => exact hscalar _ (encode_quad hquad) h
                · exact hstray h

private theorem runesGo_of_none {t : Text} (h : next? t = none) (acc : List Rune) :
    runesGo acc t = acc.reverse := by
  rw [runesGo]
  split
  · rfl
  · next heq => rw [h] at heq; contradiction

private theorem runesGo_of_some {t rest : Text} {r : Rune} (h : next? t = some (r, rest))
    (acc : List Rune) :
    runesGo acc t = runesGo (r :: acc) rest := by
  rw [runesGo]
  split
  · next heq => rw [h] at heq; contradiction
  · next heq =>
    rw [h] at heq
    obtain ⟨rfl, rfl⟩ := Prod.mk.inj (Option.some.inj heq)
    rfl

private theorem runesGo_eq_append (acc : List Rune) (t : Text) :
    runesGo acc t = acc.reverse ++ runesGo [] t := by
  cases h : next? t with
  | none => simp [runesGo_of_none h]
  | some first =>
    obtain ⟨r, rest⟩ := first
    have hshorter := next?_shorter h
    rw [runesGo_of_some h, runesGo_of_some h, runesGo_eq_append (r :: acc) rest,
      runesGo_eq_append [r] rest]
    simp
termination_by t.length

/-- The empty text has no runes. -/
@[simp] theorem runes_nil : runes [] = [] := runesGo_of_none rfl []

/-- The first rune comes before those of the rest. -/
theorem runes_of_next? {t rest : Text} {r : Rune} (h : next? t = some (r, rest)) :
    runes t = r :: runes rest := by
  rw [runes, runesGo_of_some h, runesGo_eq_append]
  rfl

/-- Every text that is not empty starts with a rune, well-formed or not. -/
theorem exists_next? {t : Text} (h : t ≠ []) : ∃ r rest, next? t = some (r, rest) := by
  cases t with
  | nil => contradiction
  | cons a r0 =>
    simp only [next?]
    repeat' split
    all_goals exact ⟨_, _, rfl⟩

/-- An ASCII byte is no part of the rune before it. -/
theorem next?_append {a : UInt8} (ha : a < 0x80) {t : Text} (ht : t ≠ []) (more : Text) :
    next? (t ++ a :: more) = (next? t).map fun first => (first.1, first.2 ++ a :: more) := by
  have htail : isTail a = false := by
    have hnat : a.toNat < 128 := by simpa [UInt8.lt_iff_toNat_lt] using ha
    rw [← Bool.not_eq_true, isTail_iff]
    omega
  cases t with
  | nil => contradiction
  | cons b r0 =>
    by_cases hb : b < 0x80
    · simp [next?, hb]
    -- the byte stands where a tail byte would have to stand
    rcases r0 with _ | ⟨c, _ | ⟨d, _ | ⟨e, r3⟩⟩⟩
    · rcases more with _ | ⟨f, _ | ⟨g, more⟩⟩ <;> simp [next?, hb, isPair, isTriple, isQuad, htail]
    · rcases more with _ | ⟨f, more⟩ <;> by_cases hpair : isPair b c = true <;>
        simp [next?, hb, hpair, isTriple, isQuad, htail]
    · by_cases hpair : isPair b c = true <;> by_cases htriple : isTriple b c d = true <;>
        simp [next?, hb, hpair, htriple, isQuad, htail]
    · by_cases hpair : isPair b c = true <;> by_cases htriple : isTriple b c d = true <;>
        by_cases hquad : isQuad b c d e = true <;> simp [next?, hb, hpair, htriple, hquad]

/-- A text is read rune by rune. -/
theorem runes_induction {P : Text → List Rune → Prop} (hnil : P [] [])
    (hrune : ∀ r rest, (∀ c, r = .scalar c → IsScalar c) →
      next? (bytes r ++ rest) = some (r, rest) →
      P rest (runes rest) → P (bytes r ++ rest) (r :: runes rest)) (t : Text) : P t (runes t) := by
  by_cases ht : t = []
  · rw [ht, runes_nil]
    exact hnil
  · obtain ⟨r, rest, hnext⟩ := exists_next? ht
    obtain ⟨rfl, hscalar⟩ := next?_cases hnext
    have hshorter := next?_shorter hnext
    rw [runes_of_next? hnext]
    exact hrune r rest hscalar hnext (runes_induction hnil hrune rest)
termination_by t.length

/-- A text is the bytes of its runes. -/
theorem flatMap_bytes_runes (t : Text) : (runes t).flatMap bytes = t :=
  runes_induction (P := fun t rs => rs.flatMap bytes = t) rfl
    (fun _ _ _ _ ih => by rw [List.flatMap_cons, ih]) t

/-- A text can be read in two parts, if the second one starts with an ASCII byte. -/
theorem runes_append {a : UInt8} (ha : a < 0x80) (t more : Text) :
    runes (t ++ a :: more) = runes t ++ runes (a :: more) := by
  refine runes_induction (P := fun t rs => runes (t ++ a :: more) = rs ++ runes (a :: more)) rfl ?_ t
  intro r rest _ hnext ih
  have hne : bytes r ++ rest ≠ [] := by
    intro hempty
    simp [hempty, next?] at hnext
  have happend := next?_append ha hne more
  rw [hnext] at happend
  rw [runes_of_next? happend, ih, List.cons_append]

/-- Runes that are no stray bytes have code points that UTF-8 encodes. -/
theorem isScalar_of_mem_runes {t : Text} {c : Nat} : .scalar c ∈ runes t → IsScalar c := by
  refine runes_induction (P := fun _ rs => .scalar c ∈ rs → IsScalar c) (by simp) ?_ t
  intro r rest hscalar _ ih hmem
  rcases List.mem_cons.mp hmem with heq | hmem
  · exact hscalar c heq.symm
  · exact ih hmem

/-- Encoded code points are read back. -/
theorem runes_flatMap_encode {cs : List Nat} (h : ∀ c ∈ cs, IsScalar c) :
    runes (cs.flatMap encode) = cs.map .scalar := by
  induction cs with
  | nil => exact runes_nil
  | cons c rest ih =>
    have hnext := next?_encode (h c (List.mem_cons_self ..)) (rest.flatMap encode)
    rw [List.flatMap_cons, runes_of_next? hnext, ih fun c hc => h c (List.mem_cons_of_mem _ hc),
      List.map_cons]

/-- The replacement character is encoded by UTF-8. -/
theorem isScalar_replacement : IsScalar replacement := Or.inr (by decide)

/-- What is made of code points has nothing to scrub. -/
theorem scrub_flatMap_encode {cs : List Nat} (h : ∀ c ∈ cs, IsScalar c) :
    scrub (cs.flatMap encode) = cs.flatMap encode := by
  rw [scrub, runes_flatMap_encode h, List.flatMap_map]
  rfl

/-- With the replacement character for stray bytes, all runes have code points that UTF-8 encodes. -/
theorem isScalar_code_of_mem_runes {t : Text} {r : Rune} (h : r ∈ runes t) : IsScalar (code r) := by
  cases r with
  | scalar c => exact isScalar_of_mem_runes h
  | stray b => exact isScalar_replacement

/-- Scrubbing twice is scrubbing once. -/
theorem scrub_scrub (t : Text) : scrub (scrub t) = scrub t := by
  have hcodes : scrub t = ((runes t).map code).flatMap encode := by rw [scrub, List.flatMap_map]
  rw [hcodes]
  refine scrub_flatMap_encode ?_
  intro c hc
  obtain ⟨r, hr, rfl⟩ := List.mem_map.mp hc
  exact isScalar_code_of_mem_runes hr

/-- A well-formed text has nothing to scrub. -/
theorem scrub_of_isValid {t : Text} (h : isValid t = true) : scrub t = t := by
  have hsame : ∀ r ∈ runes t, encode (code r) = bytes r := by
    intro r hr
    have hvalid := List.all_eq_true.mp h r hr
    cases r with
    | scalar c => rfl
    | stray b => simp at hvalid
  calc scrub t = (runes t).flatMap bytes := by
        rw [scrub, List.flatMap_def, List.map_congr_left hsame, ← List.flatMap_def]
    _ = t := flatMap_bytes_runes t

/-- ASCII has no stray bytes. -/
theorem scrub_of_ascii {t : Text} (h : t.all (· < 0x80) = true) : scrub t = t := by
  have hcodes : (t.map (·.toNat)).flatMap encode = t ∧ ∀ c ∈ t.map (·.toNat), IsScalar c := by
    induction t with
    | nil => simp
    | cons b rest ih =>
      obtain ⟨hb, hrest⟩ := by simpa only [List.all_cons, Bool.and_eq_true,
        decide_eq_true_eq] using h
      have hnat : b.toNat < 128 := by simpa [UInt8.lt_iff_toNat_lt] using hb
      have hencode : encode b.toNat = [b] := by simp [encode, hnat]
      obtain ⟨heq, hscalar⟩ := ih hrest
      rw [List.map_cons, List.flatMap_cons, heq, hencode]
      refine ⟨rfl, List.forall_mem_cons.mpr ⟨?_, hscalar⟩⟩
      unfold IsScalar
      omega
  have hscrub := scrub_flatMap_encode hcodes.2
  rwa [hcodes.1] at hscrub

/-- Only the empty text becomes empty. -/
theorem scrub_eq_nil_iff {t : Text} : scrub t = [] ↔ t = [] := by
  constructor
  · intro h
    apply Classical.byContradiction
    intro hne
    obtain ⟨r, rest, hnext⟩ := exists_next? hne
    have hencode : ∀ c, encode c ≠ [] := by
      intro c
      unfold encode
      repeat' split
      all_goals simp
    rw [scrub, runes_of_next? hnext, List.flatMap_cons, List.append_eq_nil_iff] at h
    exact hencode _ h.1
  · rintro rfl
    simp [scrub]

/-- What is left without stray bytes is well-formed. -/
theorem isValid_scrub (t : Text) : isValid (scrub t) = true := by
  have hcodes : scrub t = ((runes t).map code).flatMap encode := by rw [scrub, List.flatMap_map]
  have hscalar : ∀ c ∈ (runes t).map code, IsScalar c := by
    intro c hc
    obtain ⟨r, hr, rfl⟩ := List.mem_map.mp hc
    exact isScalar_code_of_mem_runes hr
  rw [isValid, hcodes, runes_flatMap_encode hscalar]
  simp

/-- A text is well-formed exactly if it has no stray byte to replace. -/
theorem isValid_iff {t : Text} : isValid t = true ↔ scrub t = t := by
  constructor
  · exact scrub_of_isValid
  · intro h
    rw [← h]
    exact isValid_scrub t

end ClassAtlas.Utf8
