import ClassAtlas.Text.Decimal

namespace ClassAtlas.Decimal

private theorem toNat_digit (n : Nat) : (digit n).toNat = 48 + n % 10 := by
  simp only [digit, Nat.toUInt8_eq, UInt8.toNat_ofNat']
  omega

/-- The digits are 0 to 9. -/
theorem isDigit_iff {b : UInt8} : Text.isDigit b = true ↔ 48 ≤ b.toNat ∧ b.toNat ≤ 57 := by
  simp [Text.isDigit, UInt8.le_iff_toNat_le]

private theorem isDigit_digit (n : Nat) : Text.isDigit (digit n) = true := by
  rw [isDigit_iff, toNat_digit]
  omega

private theorem valueOf_concat (ds : Text) (b : UInt8) :
    valueOf (ds ++ [b]) = valueOf ds * 10 + (b.toNat - 48) := by
  simp [valueOf]

/-- Digits that stand for a number, with no needless zero in front. -/
structure Denotes (ds : Text) (n : Nat) : Prop where
  nonempty : ds ≠ []
  digits : ∀ b ∈ ds, Text.isDigit b = true
  value : valueOf ds = n
  lead : ds.head? = some 48 → ds = [48]

private theorem denotes_digit {n : Nat} (h : n < 10) : Denotes [digit n] n := by
  refine ⟨by simp, by simp [isDigit_digit], ?_, ?_⟩
  · simp only [valueOf, List.foldl_cons, List.foldl_nil, toNat_digit]
    omega
  · simp

private theorem Denotes.append_digit {ds : Text} {n : Nat} (h : Denotes ds (n / 10)) (hn : 10 ≤ n) :
    Denotes (ds ++ [digit n]) n := by
  refine ⟨by simp, ?_, ?_, ?_⟩
  · intro b hb
    rcases List.mem_append.mp hb with hb | hb
    · exact h.digits b hb
    · rw [List.mem_singleton.mp hb]
      exact isDigit_digit n
  · rw [valueOf_concat, h.value, toNat_digit]
    omega
  · intro hlead
    have hone : ds = [48] := by
      obtain ⟨b, rest, rfl⟩ := List.exists_cons_of_ne_nil h.nonempty
      exact h.lead (by simpa using hlead)
    have hzero : n / 10 = 0 := by rw [← h.value, hone]; rfl
    omega

private theorem digitsGo_denotes {fuel n : Nat} (h : n < fuel) (acc : Text) :
    ∃ ds, digitsGo fuel n acc = ds ++ acc ∧ Denotes ds n := by
  induction fuel generalizing n acc with
  | zero => omega
  | succ fuel ih =>
    rw [digitsGo]
    split
    · next hn => exact ⟨[digit n], rfl, denotes_digit hn⟩
    · next hn =>
      obtain ⟨ds, heq, hds⟩ := ih (n := n / 10) (by omega) (digit n :: acc)
      exact ⟨ds ++ [digit n], by rw [heq]; simp, hds.append_digit (by omega)⟩

/-- A number is written in digits that stand for it. -/
theorem ofNat_denotes (n : Nat) : Denotes (ofNat n) n := by
  obtain ⟨ds, heq, hds⟩ := digitsGo_denotes (Nat.lt_succ_self n) []
  rw [ofNat, heq, List.append_nil]
  exact hds

/-- A number that is written is read back. -/
theorem nat?_ofNat (n : Nat) : nat? (ofNat n) = some n := by
  have h := ofNat_denotes n
  have hall : (ofNat n).all Text.isDigit = true := List.all_eq_true.mpr h.digits
  simp [nat?, h.nonempty, hall, h.value]

/-- The digits of a number start with a digit. -/
theorem Denotes.head_ne {ds : Text} {n : Nat} (h : Denotes ds n) {b : UInt8}
    (hb : Text.isDigit b = false) (rest : Text) : ds ≠ b :: rest := by
  rintro rfl
  rw [h.digits b (List.mem_cons_self ..)] at hb
  contradiction

/-- Digits have no sign in front. -/
theorem Denotes.splitSign_eq {ds : Text} {n : Nat} (h : Denotes ds n) :
    splitSign ds = (false, ds) := by
  unfold splitSign
  split
  · exact absurd rfl (h.head_ne (by decide) _)
  · exact absurd rfl (h.head_ne (by decide) _)
  · rfl

/-- A number within the range of `bits` bits is read as what was written. -/
theorem signed_ofInt {bits : Nat} {n : Int} (hlow : -(1 <<< (bits - 1) : Nat) ≤ n)
    (hhigh : n < (1 <<< (bits - 1) : Nat)) :
    signed bits (ofInt n) = .ok n := by
  unfold signed
  cases n with
  | ofNat n =>
    have hbound : n < 1 <<< (bits - 1) := Int.ofNat_lt.mp hhigh
    simp only [ofInt, (ofNat_denotes n).splitSign_eq, nat?_ofNat, hbound, if_true,
      Bool.false_eq_true, if_false]
    rfl
  | negSucc n =>
    have hbound : n + 1 ≤ 1 <<< (bits - 1) := by omega
    simp only [ofInt, splitSign, nat?_ofNat, hbound, if_true]
    rfl

private theorem toNat_hexDigit (n : Nat) :
    (hexDigit n).toNat = if n % 16 < 10 then 48 + n % 16 else 87 + n % 16 := by
  unfold hexDigit
  split
  · simp only [Nat.toUInt8_eq, UInt8.toNat_ofNat']
    omega
  · simp only [Nat.toUInt8_eq, UInt8.toNat_ofNat']
    omega

/-- A hexadecimal digit is read back. -/
theorem hexValue?_hexDigit (n : Nat) : hexValue? (hexDigit n) = some (n % 16) := by
  have hnat := toNat_hexDigit n
  unfold hexValue?
  split at hnat
  · have hdigit : Text.isDigit (hexDigit n) = true := by
      rw [isDigit_iff, hnat]
      omega
    simp only [hdigit, if_true, hnat]
    congr 1
    omega
  · have hdigit : ¬ Text.isDigit (hexDigit n) = true := by
      rw [isDigit_iff, hnat]
      omega
    have hletter : (97 ≤ hexDigit n && hexDigit n ≤ 102) = true := by
      simp [UInt8.le_iff_toNat_le, hnat]
      omega
    simp only [hdigit, hletter, if_true, hnat, if_false, Bool.false_eq_true]
    congr 1
    omega

/-- The digits of a digest are no letters beyond the sixth. -/
theorem toNat_hexDigit_le (n : Nat) :
    48 ≤ (hexDigit n).toNat ∧ (hexDigit n).toNat ≤ 102 ∧ (hexDigit n).toNat ≠ 58 := by
  rw [toNat_hexDigit]
  split <;> omega

end ClassAtlas.Decimal
