import ClassAtlas.Proofs.Text.Utf8
import ClassAtlas.Text.Blank

namespace ClassAtlas.Blank

/-- The code points with the property White_Space. -/
def spaces : List Nat :=
  [0x09, 0x0A, 0x0B, 0x0C, 0x0D, 0x20, 0x85, 0xA0, 0x1680, 0x2000, 0x2001, 0x2002, 0x2003, 0x2004, 0x2005,
    0x2006, 0x2007, 0x2008, 0x2009, 0x200A, 0x2028, 0x2029, 0x202F, 0x205F, 0x3000]

/-- The bytes of one white-space code point. -/
def IsBlank (w : Text) : Prop := ∃ code ∈ spaces, w = Utf8.encode code

/-- A text of white space. -/
def AllBlank (t : Text) : Prop := ∃ ws : List Text, (∀ w ∈ ws, IsBlank w) ∧ t = ws.flatten

/-- There is no white space at either end. -/
def Bare (t : Text) : Prop := ∀ w, IsBlank w → ¬w <+: t ∧ ¬w <:+ t

variable {w t e before after : Text}

instance : DecidablePred IsBlank := fun w => inferInstanceAs (Decidable (∃ code ∈ spaces, w = Utf8.encode code))

instance : DecidablePred Bare := fun t =>
  decidable_of_iff (∀ code ∈ spaces, ¬Utf8.encode code <+: t ∧ ¬Utf8.encode code <:+ t)
    ⟨fun h _ ⟨code, hcode, hw⟩ => hw ▸ h code hcode, fun h code hcode => h _ ⟨code, hcode, rfl⟩⟩

/-- A single byte is a blank if it is a space or one of the five control bytes from tab to carriage
return. -/
theorem isSingle_iff {a : UInt8} : isSingle a = true ↔ a.toNat = 32 ∨ 9 ≤ a.toNat ∧ a.toNat ≤ 13 := by
  simp [isSingle, UInt8.le_iff_toNat_le, ← UInt8.toNat_inj]

/-- Two bytes are a blank for the next line and for the space that does not break. -/
theorem isDouble_iff {a b : UInt8} :
    isDouble a b = true ↔ a.toNat = 0xC2 ∧ (b.toNat = 0x85 ∨ b.toNat = 0xA0) := by
  simp [isDouble, ← UInt8.toNat_inj]

/-- Three bytes are a blank for the remaining code points of white space. -/
theorem isTriple_iff {a b c : UInt8} : isTriple a b c = true ↔
    (a.toNat = 0xE1 ∧ b.toNat = 0x9A ∧ c.toNat = 0x80) ∨
    (a.toNat = 0xE2 ∧ b.toNat = 0x80 ∧
      (0x80 ≤ c.toNat ∧ c.toNat ≤ 0x8A ∨ c.toNat = 0xA8 ∨ c.toNat = 0xA9 ∨ c.toNat = 0xAF)) ∨
    (a.toNat = 0xE2 ∧ b.toNat = 0x81 ∧ c.toNat = 0x9F) ∨
    (a.toNat = 0xE3 ∧ b.toNat = 0x80 ∧ c.toNat = 0x80) := by
  simp [isTriple, UInt8.le_iff_toNat_le, ← UInt8.toNat_inj, and_assoc, or_assoc]

/-- The bytes are recognised as one blank. -/
def isOne : Text → Bool
  | [a] => isSingle a
  | [a, b] => isDouble a b
  | [a, b, c] => isTriple a b c
  | _ => false

/-- The bytes that are recognised are those of white space. -/
theorem isOne_iff : isOne w = true ↔ IsBlank w := by
  constructor
  · intro h
    fun_cases isOne w with
    | case1 a =>
      have ha := isSingle_iff.mp h
      have hsmall : a.toNat < 0x80 := by omega
      refine ⟨a.toNat, ?_, by simp [Utf8.encode, hsmall]⟩
      simp only [spaces, List.mem_cons]
      omega
    | case2 a b =>
      simp only [isOne, isDouble, Bool.and_eq_true, Bool.or_eq_true, beq_iff_eq] at h
      obtain ⟨rfl, rfl | rfl⟩ := h
      · exact ⟨0x85, by decide, rfl⟩
      · exact ⟨0xA0, by decide, rfl⟩
    | case3 a b c =>
      have habc := isTriple_iff.mp h
      have hutf8 : Utf8.isTriple a b c = true := Utf8.isTriple_iff.mpr (by omega)
      refine ⟨_, ?_, (Utf8.encode_triple hutf8).1.symm⟩
      simp only [spaces, List.mem_cons, Utf8.tailBits]
      omega
    | case4 => simp_all [isOne]
  · rintro ⟨code, hcode, rfl⟩
    exact List.all_eq_true.mp (rfl : spaces.all (fun code => isOne (Utf8.encode code)) = true) code hcode

/-- What the bytes of a blank can be: a byte of ASCII, or a byte that begins a sequence and one or two
that go on with it. None of the latter is a blank for itself. -/
theorem IsBlank.cases (h : IsBlank w) :
    (∃ a, w = [a] ∧ isSingle a = true) ∨
    (∃ a b, w = [a, b] ∧ isDouble a b = true ∧ isSingle a = false ∧ isSingle b = false) ∨
    (∃ a b c, w = [a, b, c] ∧ isTriple a b c = true ∧ isSingle a = false ∧ isSingle c = false ∧
      isDouble a b = false ∧ isDouble b c = false) := by
  rw [← isOne_iff] at h
  fun_cases isOne w with
  | case1 a => exact Or.inl ⟨a, rfl, h⟩
  | case2 a b =>
    refine Or.inr (Or.inl ⟨a, b, rfl, h, ?_⟩)
    have hab := isDouble_iff.mp h
    simp only [← Bool.not_eq_true, isSingle_iff]
    omega
  | case3 a b c =>
    refine Or.inr (Or.inr ⟨a, b, c, rfl, h, ?_⟩)
    have habc := isTriple_iff.mp h
    simp only [← Bool.not_eq_true, isSingle_iff, isDouble_iff]
    omega
  | case4 => simp_all [isOne]

/-- No blank begins with a continuation byte, and all other bytes of it are such. -/
theorem IsBlank.eq_cons (h : IsBlank w) :
    ∃ b rest, w = b :: rest ∧ Utf8.isTail b = false ∧ ∀ c ∈ rest, Utf8.isTail c = true := by
  obtain ⟨code, hcode, rfl⟩ := h
  have hbytes := List.all_eq_true.mp (rfl : spaces.all (fun code =>
    (Utf8.encode code).head?.any (!Utf8.isTail ·) && (Utf8.encode code).tail.all Utf8.isTail) = true) code hcode
  generalize Utf8.encode code = w at hbytes ⊢
  cases w with
  | nil => simp at hbytes
  | cons b rest =>
    simp only [List.head?_cons, Option.any_some, List.tail_cons, Bool.and_eq_true, Bool.not_eq_true',
      List.all_eq_true] at hbytes
    exact ⟨b, rest, rfl, hbytes.1, hbytes.2⟩

/-- White space does not start with a byte from inside of a sequence. -/
theorem AllBlank.isTail_head {b : UInt8} (h : AllBlank (b :: t)) : Utf8.isTail b = false := by
  obtain ⟨ws, hws, ht⟩ := h
  cases ws with
  | nil => simp at ht
  | cons w ws =>
    obtain ⟨c, rest, rfl, hc, -⟩ := (hws w (by simp)).eq_cons
    simp only [List.flatten_cons, List.cons_append, List.cons.injEq] at ht
    rwa [ht.1]

/-- A blank at the start is trimmed. -/
theorem trimStart_append (hw : IsBlank w) (t : Text) : trimStart (w ++ t) = trimStart t := by
  obtain ⟨a, rfl, ha⟩ | ⟨a, b, rfl, hab, ha, -⟩ | ⟨a, b, c, rfl, habc, ha, -, hab, -⟩ := hw.cases
  · conv => lhs; unfold trimStart
    simp [ha]
  · conv => lhs; unfold trimStart
    simp [ha, hab]
  · conv => lhs; unfold trimStart
    simp [ha, hab, habc]

/-- Without a blank at the start nothing is trimmed there. -/
theorem trimStart_eq_self (h : ∀ w, IsBlank w → ¬w <+: t) : trimStart t = t := by
  have hone : ∀ w rest, isOne w = true → t ≠ w ++ rest :=
    fun w rest hw ht => h w (isOne_iff.mp hw) ⟨rest, ht.symm⟩
  fun_cases trimStart t with
  | case2 a rest ha => exact absurd rfl (hone [a] rest ha)
  | case4 a _ b rest hab => exact absurd rfl (hone [a, b] rest hab)
  | case6 a _ b _ c rest habc => exact absurd rfl (hone [a, b, c] rest habc)
  | _ => rfl

/-- A blank at the end, read backwards, is trimmed. -/
theorem trimBack_append (hw : IsBlank w) (t : Text) : trimBack (w.reverse ++ t) = trimBack t := by
  obtain ⟨a, rfl, ha⟩ | ⟨a, b, rfl, hab, -, hb⟩ | ⟨a, b, c, rfl, habc, -, hc, -, hbc⟩ := hw.cases
  · conv => lhs; unfold trimBack
    simp [ha]
  · conv => lhs; unfold trimBack
    simp [hb, hab]
  · conv => lhs; unfold trimBack
    simp [hc, hbc, habc]

/-- Without a blank at the end, read backwards, nothing is trimmed there. -/
theorem trimBack_eq_self (h : ∀ w, IsBlank w → ¬w.reverse <+: t) : trimBack t = t := by
  have hone : ∀ w rest, isOne w = true → t ≠ w.reverse ++ rest :=
    fun w rest hw ht => h w (isOne_iff.mp hw) ⟨rest, ht.symm⟩
  fun_cases trimBack t with
  | case2 a rest ha => exact absurd rfl (hone [a] rest ha)
  | case4 a _ b rest hab => exact absurd rfl (hone [b, a] rest hab)
  | case6 a _ b _ c rest habc => exact absurd rfl (hone [c, b, a] rest habc)
  | _ => rfl

/-- All white space at the start is trimmed. -/
theorem AllBlank.trimStart_append (h : AllBlank before) (t : Text) :
    trimStart (before ++ t) = trimStart t := by
  obtain ⟨ws, hws, rfl⟩ := h
  induction ws with
  | nil => rfl
  | cons w ws ih =>
    obtain ⟨hw, hws⟩ := List.forall_mem_cons.mp hws
    rw [List.flatten_cons, List.append_assoc, Blank.trimStart_append hw, ih hws]

/-- All white space at the end, read backwards, is trimmed. -/
theorem AllBlank.trimBack_append (h : AllBlank after) (t : Text) :
    trimBack (after.reverse ++ t) = trimBack t := by
  obtain ⟨ws, hws, rfl⟩ := h
  induction ws generalizing t with
  | nil => rfl
  | cons w ws ih =>
    obtain ⟨hw, hws⟩ := List.forall_mem_cons.mp hws
    rw [List.flatten_cons, List.reverse_append, List.append_assoc, ih _ hws, Blank.trimBack_append hw]

/-- Blanks behind a text complete no blank that the text begins: what follows the first bytes of a
blank does not begin a blank itself. -/
theorem Bare.not_blank_append (he : Bare e) (hne : e ≠ []) (hafter : AllBlank after) (hw : IsBlank w) :
    ¬w <+: e ++ after := by
  intro hprefix
  rcases List.prefix_or_prefix_of_prefix hprefix (List.prefix_append e after) with hshort | ⟨rest, rfl⟩
  · exact (he w hw).1 hshort
  · have hrest : rest <+: after := (List.prefix_append_right_inj e).mp hprefix
    obtain ⟨b, bs, hbytes, -, htail⟩ := hw.eq_cons
    cases rest with
    | nil => exact (he e (by simpa using hw)).1 List.prefix_rfl
    | cons c rest =>
      -- `c` goes on with the blank that `e` begins, and begins a blank of `after`
      obtain ⟨more, rfl⟩ := hrest
      obtain ⟨first, e, rfl⟩ := List.exists_cons_of_ne_nil hne
      simp only [List.cons_append, List.cons.injEq] at hbytes
      have hc : c ∈ bs := by simp [← hbytes.2]
      simpa [htail c hc] using hafter.isTail_head

/-- Trimming recovers what stands between blanks. -/
theorem trim_between (he : Bare e) (hne : e ≠ []) (hbefore : AllBlank before) (hafter : AllBlank after) :
    trim (before ++ e ++ after) = e := by
  have hstart : trimStart (before ++ e ++ after) = e ++ after := by
    rw [List.append_assoc, hbefore.trimStart_append]
    exact trimStart_eq_self fun w hw => he.not_blank_append hne hafter hw
  have hback : trimBack (e ++ after).reverse = e.reverse := by
    rw [List.reverse_append, hafter.trimBack_append]
    exact trimBack_eq_self fun w hw => fun h => (he w hw).2 (List.reverse_prefix.mp h)
  rw [trim, trimEnd, hstart, hback, List.reverse_reverse]

/-- The empty text is white space. -/
theorem AllBlank.nil : AllBlank [] := ⟨[], by simp, rfl⟩

/-- A blank is white space. -/
theorem IsBlank.allBlank (h : IsBlank w) : AllBlank w := ⟨[w], by simpa using h, by simp⟩

/-- White space before white space is white space. -/
theorem AllBlank.append (hbefore : AllBlank before) (hafter : AllBlank after) : AllBlank (before ++ after) := by
  obtain ⟨ws, hws, rfl⟩ := hbefore
  obtain ⟨vs, hvs, rfl⟩ := hafter
  refine ⟨ws ++ vs, fun w hw => ?_, List.flatten_append.symm⟩
  exact (List.mem_append.mp hw).elim (hws w) (hvs w)

/-- What holds of all bytes of the code points for white space holds of all bytes of blanks. -/
theorem AllBlank.forall_mem {test : UInt8 → Bool} (h : AllBlank t)
    (hspaces : spaces.all (fun code => (Utf8.encode code).all test) = true) : ∀ b ∈ t, test b = true := by
  intro b hb
  obtain ⟨ws, hws, rfl⟩ := h
  obtain ⟨w, hw, hbw⟩ := List.mem_flatten.mp hb
  obtain ⟨code, hcode, rfl⟩ := hws w hw
  exact List.all_eq_true.mp (List.all_eq_true.mp hspaces code hcode) b hbw

/-- Only white space is trimmed at the start. -/
theorem exists_trimStart (t : Text) : ∃ before, AllBlank before ∧ t = before ++ trimStart t := by
  have hstep : ∀ {w t rest : Text}, isOne w = true → (∃ before, AllBlank before ∧ t = before ++ rest) →
      ∃ before, AllBlank before ∧ w ++ t = before ++ rest := by
    rintro w t rest hw ⟨before, hbefore, rfl⟩
    exact ⟨w ++ before, (isOne_iff.mp hw).allBlank.append hbefore, (List.append_assoc ..).symm⟩
  fun_induction trimStart t with
  | case2 a rest ha ih => exact hstep (w := [a]) ha ih
  | case4 a _ b rest hab ih => exact hstep (w := [a, b]) hab ih
  | case6 a _ b _ c rest habc ih => exact hstep (w := [a, b, c]) habc ih
  | _ => exact ⟨[], AllBlank.nil, rfl⟩

/-- Only white space is trimmed at the end, read backwards. -/
theorem exists_trimBack (t : Text) : ∃ after, AllBlank after ∧ t = after.reverse ++ trimBack t := by
  have hstep : ∀ {w t rest : Text}, isOne w = true → (∃ after, AllBlank after ∧ t = after.reverse ++ rest) →
      ∃ after, AllBlank after ∧ w.reverse ++ t = after.reverse ++ rest := by
    rintro w t rest hw ⟨after, hafter, rfl⟩
    exact ⟨after ++ w, hafter.append (isOne_iff.mp hw).allBlank, by simp⟩
  fun_induction trimBack t with
  | case2 a rest ha ih => exact hstep (w := [a]) ha ih
  | case4 a _ b rest hab ih => exact hstep (w := [b, a]) hab ih
  | case6 a _ b _ c rest habc ih => exact hstep (w := [c, b, a]) habc ih
  | _ => exact ⟨[], AllBlank.nil, rfl⟩

/-- After trimming no blank is left at the start. -/
theorem IsBlank.not_prefix_trimStart (hw : IsBlank w) (t : Text) : ¬w <+: trimStart t := by
  fun_induction trimStart t with
  | case2 _ _ _ ih | case4 _ _ _ _ _ ih | case6 _ _ _ _ _ _ _ ih => exact ih
  | _ =>
    -- no blank of one, two or three bytes begins what is left
    intro hlead
    obtain ⟨x, rfl, hx⟩ | ⟨x, y, rfl, hxy, -⟩ | ⟨x, y, z, rfl, hxyz, -⟩ := hw.cases <;>
      simp_all [List.cons_prefix_cons]

/-- After trimming no blank is left at the end, read backwards. -/
theorem IsBlank.not_prefix_trimBack (hw : IsBlank w) (t : Text) : ¬w.reverse <+: trimBack t := by
  fun_induction trimBack t with
  | case2 _ _ _ ih | case4 _ _ _ _ _ ih | case6 _ _ _ _ _ _ _ ih => exact ih
  | _ =>
    intro hlead
    obtain ⟨x, rfl, hx⟩ | ⟨x, y, rfl, hxy, -⟩ | ⟨x, y, z, rfl, hxyz, -⟩ := hw.cases <;>
      simp_all [List.cons_prefix_cons]

/-- Behind what is trimmed on both sides there is only white space. -/
theorem exists_trimStart_eq (t : Text) : ∃ after, AllBlank after ∧ trimStart t = trim t ++ after := by
  obtain ⟨after, hafter, hback⟩ := exists_trimBack (trimStart t).reverse
  refine ⟨after, hafter, ?_⟩
  rw [← List.reverse_inj, hback, trim, trimEnd]
  simp

/-- Trimming removes blanks at both ends and nothing else. -/
theorem exists_trim (t : Text) :
    ∃ before after, AllBlank before ∧ AllBlank after ∧ t = before ++ trim t ++ after := by
  obtain ⟨before, hbefore, ht⟩ := exists_trimStart t
  obtain ⟨after, hafter, hstart⟩ := exists_trimStart_eq t
  refine ⟨before, after, hbefore, hafter, ?_⟩
  rw [List.append_assoc, ← hstart]
  exact ht

/-- Nothing is left to trim. -/
theorem bare_trim (t : Text) : Bare (trim t) := by
  intro w hw
  constructor
  · intro hlead
    obtain ⟨after, -, hstart⟩ := exists_trimStart_eq t
    exact hw.not_prefix_trimStart t (hstart ▸ hlead.trans (List.prefix_append _ after))
  · intro htail
    rw [trim, trimEnd, ← List.reverse_prefix, List.reverse_reverse] at htail
    exact hw.not_prefix_trimBack _ htail

/-- Of white space nothing is left. -/
theorem AllBlank.trim_eq_nil (h : AllBlank t) : trim t = [] := by
  have hstart : trimStart t = [] := by simpa [trimStart] using h.trimStart_append []
  rw [trim, hstart]
  rfl

/-- A text without white space at its ends is left alone. -/
theorem Bare.trim_eq_self (h : Bare t) : trim t = t := by
  by_cases hne : t = []
  · subst hne
    rfl
  · simpa using trim_between h hne AllBlank.nil AllBlank.nil

/-- Blanks around a text make no difference to what trimming leaves of it. -/
theorem trim_append_append (hbefore : AllBlank before) (t : Text) (hafter : AllBlank after) :
    trim (before ++ t ++ after) = trim t := by
  obtain ⟨lead, tail, hlead, htail, ht⟩ := exists_trim t
  have hall : before ++ t ++ after = (before ++ lead) ++ trim t ++ (tail ++ after) := by
    conv => lhs; rw [ht]
    simp
  rw [hall]
  by_cases hne : trim t = []
  · rw [hne, List.append_nil]
    exact ((hbefore.append hlead).append (htail.append hafter)).trim_eq_nil
  · exact trim_between (bare_trim t) hne (hbefore.append hlead) (htail.append hafter)

end ClassAtlas.Blank
