import ClassAtlas.Json.Reader
import ClassAtlas.Proofs.Text.Decimal
import ClassAtlas.Proofs.Text.Utf8

namespace ClassAtlas.Json

/-- Four hexadecimal digits are read as the number they were written for. -/
theorem unit?_hex {code : Nat} (h : code < 65536) (rest : Text) :
    unit? (Decimal.hex 4 code ++ rest) = some (code, rest) := by
  have hdigits : Decimal.hex 4 code =
      [Decimal.hexDigit (code / 4096), Decimal.hexDigit (code / 256),
        Decimal.hexDigit (code / 16), Decimal.hexDigit code] := by
    simp [Decimal.hex, List.range_succ, Nat.shiftRight_eq_div_pow]
  rw [hdigits]
  simp only [List.cons_append, List.nil_append, unit?, Decimal.hexValue?_hexDigit,
    Option.bind_eq_bind, Option.bind_some, Option.pure_def, Option.some.injEq, Prod.mk.injEq,
    and_true]
  omega

/-- A code unit that is no surrogate stands for itself. -/
theorem unitText_of_not_surrogate {code : Nat} (h : code < 0xD800 ∨ 0xE000 ≤ code) (rest : Text) :
    unitText code rest = (Utf8.encode code, rest) := by
  have hrange : (0xD800 ≤ code && code < 0xE000) = false := by
    simp
    omega
  simp [unitText, hrange]

private theorem unitEscape_eq (code : Nat) : unitEscape code = 92 :: 117 :: Decimal.hex 4 code := by
  have hlead : Text.ofString "\\u" = [92, 117] := rfl
  rw [unitEscape, hlead]
  rfl

/-- An escape with four digits is read as its code point, if that is none of the surrogates. -/
theorem stringGo_unitEscape {code : Nat} (h : code < 0xD800 ∨ (0xE000 ≤ code ∧ code < 65536))
    (fuel : Nat) (acc rest : Text) :
    stringGo (fuel + 1) acc (unitEscape code ++ rest) =
      stringGo fuel ((Utf8.encode code).reverse ++ acc) rest := by
  have hplain : code < 0xD800 ∨ 0xE000 ≤ code := by omega
  rw [unitEscape_eq]
  simp only [List.cons_append, stringGo]
  rw [unit?_hex (by omega)]
  simp [unitText_of_not_surrogate hplain]

/-- A short escape is read as its byte. -/
theorem stringGo_simpleEscape {e b : UInt8} (h : simpleEscape? e = some b) (he : e ≠ 117)
    (fuel : Nat) (acc rest : Text) :
    stringGo (fuel + 1) acc (92 :: e :: rest) = stringGo fuel (b :: acc) rest := by
  simp [stringGo, h, he]

/-- Bytes without a meaning of their own are taken as they are. -/
theorem stringGo_raw {bs : Text} (h : ∀ b ∈ bs, 32 ≤ b.toNat ∧ b.toNat ≠ 34 ∧ b.toNat ≠ 92)
    (fuel : Nat) (acc rest : Text) :
    stringGo (fuel + bs.length) acc (bs ++ rest) = stringGo fuel (bs.reverse ++ acc) rest := by
  induction bs generalizing acc with
  | nil => rfl
  | cons b more ih =>
    obtain ⟨hlow, hquote, hslash⟩ := h b (List.mem_cons_self ..)
    have hb : b ≠ 34 ∧ ¬ b < 32 ∧ b ≠ 92 := by
      simp only [ne_eq, ← UInt8.toNat_inj, UInt8.lt_iff_toNat_lt]
      exact ⟨hquote, by simpa using hlow, hslash⟩
    have hstep : stringGo (fuel + (more.length + 1)) acc (b :: (more ++ rest)) =
        stringGo (fuel + more.length) (b :: acc) (more ++ rest) := by
      rw [← Nat.add_assoc]
      simp [stringGo, hb]
    rw [List.length_cons, List.cons_append, hstep, ih fun b hb => h b (List.mem_cons_of_mem _ hb)]
    simp

/-- A part of a literal is read as a code point, at no more than one unit of fuel for every byte. -/
def ReadAs (part : Text) (code : Nat) : Prop :=
  ∃ used ≤ part.length, ∀ fuel acc rest,
    stringGo (fuel + used) acc (part ++ rest) =
      stringGo fuel ((Utf8.encode code).reverse ++ acc) rest

private theorem readAs_simpleEscape {part : Text} (e b : UInt8)
    (h : part = [92, e] ∧ simpleEscape? e = some b ∧ e ≠ 117 ∧ Utf8.encode b.toNat = [b]) {c : Nat}
    (hc : c = b.toNat) : ReadAs part c := by
  obtain ⟨hpart, hescape, he, hcode⟩ := h
  refine ⟨1, by simp [hpart], ?_⟩
  intro fuel acc rest
  rw [hpart, hc, hcode]
  exact stringGo_simpleEscape hescape he fuel acc rest

private theorem readAs_unitEscape {c : Nat} (h : c < 0xD800 ∨ (0xE000 ≤ c ∧ c < 65536)) :
    ReadAs (unitEscape c) c :=
  ⟨1, by simp [unitEscape_eq], stringGo_unitEscape h⟩

private theorem readAs_raw {c : Nat} (h : Utf8.IsScalar c) (hlow : 32 ≤ c) (hquote : c ≠ 34)
    (hslash : c ≠ 92) : ReadAs (Utf8.encode c) c := by
  refine ⟨(Utf8.encode c).length, Nat.le_refl _, stringGo_raw ?_⟩
  intro b hb
  have hbyte := Utf8.toNat_of_mem_encode h hb
  omega

/-- A rune is written so that its code point is read back. -/
theorem readAs_escapeRune {r : Rune} (h : Utf8.IsScalar (Utf8.code r)) :
    ReadAs (escapeRune r) (Utf8.code r) := by
  cases r with
  | stray b => exact readAs_unitEscape (Or.inr (by decide))
  | scalar c =>
    simp only [escapeRune, Utf8.code, beq_iff_eq] at h ⊢
    repeat' split
    · next hc => exact readAs_simpleEscape 34 34 (by decide) hc
    · next hc => exact readAs_simpleEscape 92 92 (by decide) hc
    · next hc => exact readAs_simpleEscape 98 8 (by decide) hc
    · next hc => exact readAs_simpleEscape 102 12 (by decide) hc
    · next hc => exact readAs_simpleEscape 110 10 (by decide) hc
    · next hc => exact readAs_simpleEscape 114 13 (by decide) hc
    · next hc => exact readAs_simpleEscape 116 9 (by decide) hc
    · next hc =>
      refine readAs_unitEscape ?_
      simp only [Bool.or_eq_true, decide_eq_true_eq, beq_iff_eq] at hc
      omega
    · next hquote hslash _ _ _ _ _ hc =>
      simp only [Bool.or_eq_true, decide_eq_true_eq, beq_iff_eq, not_or] at hc
      exact readAs_raw h (by omega) hquote hslash

/-- Runes written one after the other are read back one after the other. -/
theorem stringGo_runes {rs : List Rune} (h : ∀ r ∈ rs, Utf8.IsScalar (Utf8.code r)) :
    ∃ used ≤ (rs.flatMap escapeRune).length, ∀ fuel acc rest,
      stringGo (fuel + used) acc (rs.flatMap escapeRune ++ rest) =
        stringGo fuel ((rs.flatMap fun r => Utf8.encode (Utf8.code r)).reverse ++ acc) rest := by
  induction rs with
  | nil => exact ⟨0, Nat.le_refl _, fun _ _ _ => rfl⟩
  | cons r more ih =>
    obtain ⟨later, hlater, hmore⟩ := ih fun r hr => h r (List.mem_cons_of_mem _ hr)
    obtain ⟨used, hused, hfirst⟩ := readAs_escapeRune (h r (List.mem_cons_self ..))
    refine ⟨later + used, ?_, ?_⟩
    · rw [List.flatMap_cons, List.length_append]
      omega
    · intro fuel acc rest
      rw [List.flatMap_cons, List.append_assoc, ← Nat.add_assoc, hfirst, hmore]
      simp

/-- A string literal is read as the text without its stray bytes. -/
theorem string?_quoted (t rest : Text) :
    string? ((Utf8.runes t).flatMap escapeRune ++ 34 :: rest) = some (Utf8.scrub t, rest) := by
  have hscalar : ∀ r ∈ Utf8.runes t, Utf8.IsScalar (Utf8.code r) :=
    fun r hr => Utf8.isScalar_code_of_mem_runes hr
  obtain ⟨used, hused, hread⟩ := stringGo_runes hscalar
  have hfuel : ((Utf8.runes t).flatMap escapeRune ++ 34 :: rest).length + 1 =
      (((Utf8.runes t).flatMap escapeRune).length - used + rest.length + 1) + 1 + used := by
    simp only [List.length_append, List.length_cons]
    omega
  rw [string?, hfuel, hread]
  change stringGo _ ((Utf8.scrub t).reverse ++ []) (34 :: rest) = _
  simp [stringGo, Utf8.scrub_scrub]

end ClassAtlas.Json
