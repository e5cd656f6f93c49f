import ClassAtlas.Proofs.Json.Reading

namespace ClassAtlas.Json

/-- What one reader takes from a text another one takes where more text follows. -/
def Extends {α : Type} (take take' : Text → Option (α × Text)) : Prop :=
  ∀ t x rest more, take t = some (x, rest) → take' (t ++ more) = some (x, rest ++ more)

/-- The same, where the reader did not stop at the end of the text. -/
def ExtendsInside {α : Type} (take take' : Text → Option (α × Text)) : Prop :=
  ∀ t x rest more, rest ≠ [] → take t = some (x, rest) → take' (t ++ more) = some (x, rest ++ more)

/-- Blanks are skipped up to the same byte when more text follows. -/
theorem skipBlanks_append {t rest : Text} {b : UInt8} (h : skipBlanks t = b :: rest) (more : Text) :
    skipBlanks (t ++ more) = b :: (rest ++ more) := by
  unfold skipBlanks at h ⊢
  rw [List.dropWhile_append, h]
  rfl

/-- One unit of a string is taken as before when more text follows. -/
theorem unit?_extends : Extends unit? unit? := by
  intro t x rest more h
  unfold unit? at h
  split at h
  · next a b c d following =>
    simp only [Option.bind_eq_bind, Option.bind_eq_some_iff] at h
    obtain ⟨n₁, h₁, n₂, h₂, n₃, h₃, n₄, h₄, hx⟩ := h
    obtain ⟨rfl, rfl⟩ := Prod.mk.inj (Option.some.inj hx)
    simp [unit?, h₁, h₂, h₃, h₄]
  · contradiction

/-- An escape that is cut short ends no string. -/
theorem stringGo_cut {rest : Text} (h : unit? rest = none) (fuel : Nat) (acc : Text) :
    stringGo fuel acc (92 :: 117 :: rest) = none := by
  cases fuel with
  | zero => rfl
  | succ fuel => simp [stringGo, h]

/-- A half of a surrogate pair takes what follows only if that is the other half. -/
theorem unitText_of_not_escape {code : Nat} {rest : Text} (h : ∀ more, rest ≠ 92 :: 117 :: more) :
    unitText code rest = (Utf8.encode (if 0xD800 ≤ code ∧ code < 0xE000 then Utf8.replacement else code),
      rest) := by
  unfold unitText
  by_cases hrange : 0xD800 ≤ code ∧ code < 0xE000
  · simp only [hrange, decide_true, Bool.and_self, if_true, and_self]
    split <;> rfl
  · simp [hrange]

/-- A code unit is read the same with more text behind it, unless it comes before an escape that is cut
short. -/
theorem unitText_append (code : Nat) (rest more : Text) :
    unitText code (rest ++ more) = ((unitText code rest).1, (unitText code rest).2 ++ more) ∨
      ((unitText code rest).2 = rest ∧ ∀ fuel acc, stringGo fuel acc rest = none) := by
  have hother : (∀ r, rest ≠ 92 :: 117 :: r) → (∀ r, rest ++ more ≠ 92 :: 117 :: r) →
      unitText code (rest ++ more) = ((unitText code rest).1, (unitText code rest).2 ++ more) := by
    intro h h'
    rw [unitText_of_not_escape h, unitText_of_not_escape h']
  match rest with
  | [] => exact Or.inr ⟨by rw [unitText_of_not_escape (by simp)], fun fuel _ => by cases fuel <;> rfl⟩
  | [b] =>
    by_cases hb : b = 92
    · refine Or.inr ⟨by rw [unitText_of_not_escape (by simp)], fun fuel acc => ?_⟩
      subst hb
      cases fuel <;> rfl
    · exact Or.inl (hother (by simp) (by simp [hb]))
  | b :: c :: following =>
    by_cases hescape : b = 92 ∧ c = 117
    · obtain ⟨rfl, rfl⟩ := hescape
      cases hunit : unit? following with
      | none =>
        refine Or.inr ⟨?_, stringGo_cut hunit⟩
        simp only [unitText, hunit]
        repeat' split
        all_goals rfl
      | some x =>
        obtain ⟨low, r⟩ := x
        have hunit' := unit?_extends following low r more hunit
        refine Or.inl ?_
        simp only [unitText, List.cons_append, hunit, hunit']
        repeat' split
        all_goals simp
    · exact Or.inl (hother (by simpa using hescape) (by simpa using hescape))

/-- A string is read the same with more text behind it, since it ends at its closing quote. -/
theorem stringGo_extends {fuel fuel' : Nat} (hle : fuel ≤ fuel') (acc : Text) :
    Extends (stringGo fuel acc) (stringGo fuel' acc) := by
  intro t x rest more h
  induction fuel generalizing fuel' acc t with
  | zero => contradiction
  | succ fuel ih =>
    obtain ⟨fuel', rfl⟩ : ∃ n, fuel' = n + 1 := ⟨fuel' - 1, by omega⟩
    have hle' : fuel ≤ fuel' := by omega
    cases t with
    | nil => contradiction
    | cons c following =>
      rw [List.cons_append]
      rw [stringGo.eq_def] at h ⊢
      dsimp only at h ⊢
      by_cases hquote : (c == 34) = true
      · rw [if_pos hquote] at h ⊢
        obtain ⟨rfl, rfl⟩ := Prod.mk.inj (Option.some.inj h)
        rfl
      rw [if_neg hquote] at h ⊢
      by_cases hcontrol : c < 32
      · rw [if_pos hcontrol] at h
        contradiction
      rw [if_neg hcontrol] at h ⊢
      by_cases hslash : (c == 92) = true
      · rw [if_pos hslash] at h ⊢
        cases following with
        | nil => contradiction
        | cons e following =>
          simp only [List.cons_append] at h ⊢
          by_cases hunit : (e == 117) = true
          · rw [if_pos hunit] at h ⊢
            cases hread : unit? following with
            | none => simp [hread] at h
            | some y =>
              obtain ⟨code, r⟩ := y
              simp only [hread] at h
              simp only [unit?_extends following code r more hread]
              obtain hsame | ⟨hrest, hcut⟩ := unitText_append code r more
              · rw [hsame]
                exact ih hle' _ _ h
              · rw [hrest, hcut] at h
                contradiction
          · rw [if_neg hunit] at h ⊢
            cases hread : simpleEscape? e with
            | none => simp [hread] at h
            | some b =>
              simp only [hread] at h ⊢
              exact ih hle' _ _ h
      · rw [if_neg hslash] at h ⊢
        exact ih hle' _ _ h

/-- A string is taken as before when more text follows, since it ends with its quote. -/
theorem string?_extends : Extends string? string? := by
  intro t x rest more h
  exact stringGo_extends (by simp) [] t x rest more h

/-- Digits are taken as far as they go. -/
theorem digits?_eq (t : Text) : digits? t =
    if t.takeWhile Text.isDigit = [] then none
    else some (t.takeWhile Text.isDigit, t.dropWhile Text.isDigit) := by
  unfold digits?
  rw [List.span_eq_takeWhile_dropWhile]
  split
  · next heq => rw [if_pos (Prod.mk.inj heq).1]
  · next heq =>
    obtain ⟨rfl, rfl⟩ := Prod.mk.inj heq
    rw [if_neg]
    intro hnil
    simp_all

/-- Digits that end inside of a text are taken as before when more text follows. -/
theorem digits?_extendsInside : ExtendsInside digits? digits? := by
  intro t x rest more hrest h
  rw [digits?_eq] at h ⊢
  split at h
  · contradiction
  · next hne =>
    obtain ⟨rfl, rfl⟩ := Prod.mk.inj (Option.some.inj h)
    -- The first digit is not the last byte, so the digits end before the end of the text.
    have hlength : (t.takeWhile Text.isDigit).length ≠ t.length := by
      intro hlength
      have hsum := congrArg List.length (t.takeWhile_append_dropWhile (p := Text.isDigit))
      rw [List.length_append] at hsum
      exact hrest (List.length_eq_zero_iff.mp (by omega))
    rw [List.takeWhile_append, if_neg hlength, if_neg hne, List.dropWhile_append]
    simp [hrest]

/-- A whole number that ends inside of a text is taken as before when more text follows. -/
theorem whole?_extendsInside : ExtendsInside whole? whole? := by
  intro t x rest more hrest h
  match t with
  | [] => contradiction
  | b :: t =>
    by_cases hb : b = 48
    · subst hb
      obtain ⟨rfl, rfl⟩ := Prod.mk.inj (Option.some.inj h)
      rfl
    · have hwhole : ∀ t, whole? (b :: t) = digits? (b :: t) := by
        intro t
        unfold whole?
        split
        · next heq => exact absurd (List.cons.inj heq).1 hb
        · rfl
      rw [hwhole] at h
      rw [List.cons_append, hwhole]
      exact digits?_extendsInside _ x rest more hrest h

/-- A fraction that ends inside of a text is taken as before when more text follows. -/
theorem fraction?_extendsInside : ExtendsInside fraction? fraction? := by
  intro t x rest more hrest h
  match t with
  | [] =>
    obtain ⟨-, rfl⟩ := Prod.mk.inj (Option.some.inj h)
    contradiction
  | b :: t =>
    by_cases hb : b = 46
    · subst hb
      obtain ⟨y, hy, hx⟩ := Option.map_eq_some_iff.mp h
      obtain ⟨rfl, rfl⟩ := Prod.mk.inj hx
      simp [fraction?, digits?_extendsInside _ _ _ more hrest hy]
    · have hfraction : ∀ t, fraction? (b :: t) = some ([], b :: t) := by
        intro t
        unfold fraction?
        split
        · next heq => exact absurd (List.cons.inj heq).1 hb
        · rfl
      rw [hfraction] at h
      obtain ⟨rfl, rfl⟩ := Prod.mk.inj (Option.some.inj h)
      rw [List.cons_append, hfraction]

/-- An exponent that ends inside of a text is taken as before when more text follows. -/
theorem exponent?_extendsInside : ExtendsInside exponent? exponent? := by
  intro t x rest more hrest h
  match t with
  | [] =>
    obtain ⟨-, rfl⟩ := Prod.mk.inj (Option.some.inj h)
    contradiction
  | [b] =>
    rw [exponent?.eq_def] at h
    dsimp only at h
    split at h
    · contradiction
    · next hb =>
      obtain ⟨rfl, rfl⟩ := Prod.mk.inj (Option.some.inj h)
      simp [exponent?, hb]
  | b :: s :: t =>
    rw [List.cons_append, List.cons_append]
    rw [exponent?.eq_def] at h ⊢
    dsimp only at h ⊢
    by_cases hmark : (b == 101 || b == 69) = true
    · rw [if_pos hmark] at h ⊢
      by_cases hsign : (s == 43 || s == 45) = true
      · rw [if_pos hsign] at h ⊢
        obtain ⟨y, hy, hx⟩ := Option.map_eq_some_iff.mp h
        obtain ⟨rfl, rfl⟩ := Prod.mk.inj hx
        rw [digits?_extendsInside _ _ _ more hrest hy]
        rfl
      · rw [if_neg hsign] at h ⊢
        obtain ⟨y, hy, hx⟩ := Option.map_eq_some_iff.mp h
        obtain ⟨rfl, rfl⟩ := Prod.mk.inj hx
        rw [← List.cons_append, digits?_extendsInside _ _ _ more hrest hy]
        rfl
    · rw [if_neg hmark] at h ⊢
      obtain ⟨rfl, rfl⟩ := Prod.mk.inj (Option.some.inj h)
      rfl

/-- The sign is split off as before when more text follows, as long as there is any text. -/
theorem splitMinus_append {t : Text} (ht : t ≠ []) (more : Text) :
    splitMinus (t ++ more) = ((splitMinus t).1, (splitMinus t).2 ++ more) := by
  obtain ⟨b, t, rfl⟩ := List.exists_cons_of_ne_nil ht
  by_cases hb : b = 45
  · subst hb
    rfl
  · have hsplit : ∀ t, splitMinus (b :: t) = ([], b :: t) := by
      intro t
      unfold splitMinus
      split
      · next heq => exact absurd (List.cons.inj heq).1 hb
      · rfl
    rw [List.cons_append, hsplit, hsplit]
    rfl

/-- A number that something stops is read the same with more text behind that. -/
theorem number?_extendsInside : ExtendsInside number? number? := by
  intro t x rest more hrest h
  simp only [number?, Option.bind_eq_bind, Option.bind_eq_some_iff] at h
  obtain ⟨⟨w, r₁⟩, hwhole, ⟨f, r₂⟩, hfraction, ⟨e, r₃⟩, hexponent, hx⟩ := h
  obtain ⟨rfl, rfl⟩ := Prod.mk.inj (Option.some.inj hx)
  have hr₂ : r₂ ≠ [] := by
    rintro rfl
    obtain ⟨-, rfl⟩ := Prod.mk.inj (Option.some.inj hexponent)
    contradiction
  have hr₁ : r₁ ≠ [] := by
    rintro rfl
    obtain ⟨-, rfl⟩ := Prod.mk.inj (Option.some.inj hfraction)
    contradiction
  have ht : t ≠ [] := by
    rintro rfl
    contradiction
  simp only [number?, splitMinus_append ht, whole?_extendsInside _ _ _ more hr₁ hwhole,
    fraction?_extendsInside _ _ _ more hr₂ hfraction,
    exponent?_extendsInside _ _ _ more hrest hexponent, Option.bind_eq_bind, Option.bind_some]
  rfl

/-- A word that is found is found when more text follows. -/
theorem after?_extends {t word rest : Text} (more : Text) (h : Text.after? t word = some rest) :
    Text.after? (t ++ more) word = some (rest ++ more) := by
  induction word generalizing t with
  | nil =>
    unfold Text.after? at h ⊢
    rw [Option.some.inj h]
  | cons b word ih =>
    cases t with
    | nil => contradiction
    | cons c t =>
      rw [List.cons_append]
      unfold Text.after? at h ⊢
      dsimp only at h ⊢
      by_cases hc : (c == b) = true
      · rw [if_pos hc] at h ⊢
        exact ih h
      · rw [if_neg hc] at h
        contradiction

/-- A reader that leaves something behind a value goes on the same with more text behind that. -/
theorem map_extends {α β : Type} {take take' : Option (α × Text)} {make : α → β} {rest more : Text} {y : β}
    (h : take.map (fun x => (make x.1, x.2)) = some (y, rest))
    (hextends : ∀ x, take = some (x, rest) → take' = some (x, rest ++ more)) :
    take'.map (fun x => (make x.1, x.2)) = some (y, rest ++ more) := by
  obtain ⟨⟨x, r⟩, hx, hy⟩ := Option.map_eq_some_iff.mp h
  obtain ⟨rfl, rfl⟩ := Prod.mk.inj hy
  rw [hextends x hx]
  rfl

/-- A value that is one word is taken as before when more text follows. -/
theorem word_extends {t word rest : Text} {x y : Json} (more : Text)
    (h : (Text.after? t word).map (fun r => (y, r)) = some (x, rest)) :
    (Text.after? (t ++ more) word).map (fun r => (y, r)) = some (x, rest ++ more) := by
  obtain ⟨r, hr, hy⟩ := Option.map_eq_some_iff.mp h
  obtain ⟨rfl, rfl⟩ := Prod.mk.inj hy
  rw [after?_extends more hr]
  rfl

section

variable {fuel fuel' : Nat}

/-- An array is read the same with more text behind it if its items are. -/
theorem items?_extends (hvalue : ∀ {n n'}, n < fuel → n ≤ n' → ExtendsInside (value? n) (value? n'))
    (hle : fuel ≤ fuel') (acc : List Json) : Extends (items? fuel acc) (items? fuel' acc) := by
  intro t x rest more h
  induction fuel generalizing fuel' acc t with
  | zero => simp [items?] at h
  | succ fuel ih =>
    obtain ⟨fuel', rfl⟩ : ∃ n, fuel' = n + 1 := ⟨fuel' - 1, by omega⟩
    have hle' : fuel ≤ fuel' := by omega
    rw [items?] at h ⊢
    cases hread : value? fuel t with
    | none => simp [hread] at h
    | some y =>
      obtain ⟨item, r⟩ := y
      simp only [hread] at h
      have hr : r ≠ [] := by
        rintro rfl
        simp [skipBlanks] at h
      rw [hvalue (Nat.lt_succ_self _) hle' t item r more hr hread]
      dsimp only
      split at h
      · next r' hblanks =>
        simp only [skipBlanks_append hblanks]
        exact ih (fun hn => hvalue (Nat.lt_succ_of_lt hn)) hle' _ _ h
      · next r' hblanks =>
        simp only [skipBlanks_append hblanks]
        obtain ⟨rfl, rfl⟩ := Prod.mk.inj (Option.some.inj h)
        rfl
      · contradiction

/-- An object is read the same with more text behind it if its values are. -/
theorem members?_extends (hvalue : ∀ {n n'}, n < fuel → n ≤ n' → ExtendsInside (value? n) (value? n'))
    (hle : fuel ≤ fuel') (acc : List (Text × Json)) :
    Extends (members? fuel acc) (members? fuel' acc) := by
  intro t x rest more h
  induction fuel generalizing fuel' acc t with
  | zero => simp [members?] at h
  | succ fuel ih =>
    obtain ⟨fuel', rfl⟩ : ∃ n, fuel' = n + 1 := ⟨fuel' - 1, by omega⟩
    have hle' : fuel ≤ fuel' := by omega
    rw [members?] at h ⊢
    split at h
    · next r₁ hname =>
      simp only [skipBlanks_append hname]
      cases hstring : string? r₁ with
      | none => simp [hstring] at h
      | some y =>
        obtain ⟨name, r₂⟩ := y
        simp only [hstring] at h
        simp only [string?_extends r₁ name r₂ more hstring]
        split at h
        · next r₃ hcolon =>
          simp only [skipBlanks_append hcolon]
          cases hread : value? fuel r₃ with
          | none => simp [hread] at h
          | some z =>
            obtain ⟨v, r₄⟩ := z
            simp only [hread] at h
            have hr : r₄ ≠ [] := by
              rintro rfl
              simp [skipBlanks] at h
            rw [hvalue (Nat.lt_succ_self _) hle' r₃ v r₄ more hr hread]
            dsimp only
            split at h
            · next r₅ hblanks =>
              simp only [skipBlanks_append hblanks]
              exact ih (fun hn => hvalue (Nat.lt_succ_of_lt hn)) hle' _ _ h
            · next r₅ hblanks =>
              simp only [skipBlanks_append hblanks]
              obtain ⟨rfl, rfl⟩ := Prod.mk.inj (Option.some.inj h)
              rfl
            · contradiction
        · contradiction
    · contradiction

end

/-- The rest of an array or an object behind its opening bracket. -/
def enclosed? (close : UInt8) (empty : Json) (take : Text → Option (Json × Text)) (t : Text) :
    Option (Json × Text) :=
  if (skipBlanks t).head? = some close then some (empty, (skipBlanks t).tail)
  else take (skipBlanks t)

section

variable {close : UInt8} {empty : Json} {take : Text → Option (Json × Text)} {t r : Text}

/-- A bracket that closes at once encloses nothing. -/
theorem enclosed?_of_close (h : skipBlanks t = close :: r) : enclosed? close empty take t = some (empty, r) := by
  simp [enclosed?, h]

/-- Otherwise what is enclosed is taken behind the blanks. -/
theorem enclosed?_of_open (h : ∀ r, skipBlanks t ≠ close :: r) :
    enclosed? close empty take t = take (skipBlanks t) := by
  unfold enclosed?
  rw [if_neg]
  intro hhead
  obtain ⟨r, hr⟩ := List.head?_eq_some_iff.mp hhead
  exact h r hr

end

/-- An array or an object is taken as before when more text follows, if its contents are and cannot be
taken from the empty text. -/
theorem enclosed?_extends {take take' : Text → Option (Json × Text)} (h : Extends take take')
    (hnil : take [] = none) (close : UInt8) (empty : Json) :
    Extends (enclosed? close empty take) (enclosed? close empty take') := by
  intro t x rest more ht
  unfold enclosed? at ht ⊢
  cases hblanks : skipBlanks t with
  | nil =>
    rw [hblanks, List.head?_nil, if_neg (by simp), hnil] at ht
    contradiction
  | cons b r =>
    rw [hblanks, List.head?_cons] at ht
    rw [skipBlanks_append hblanks, List.head?_cons]
    by_cases hb : some b = some close
    · rw [if_pos hb] at ht ⊢
      obtain ⟨rfl, rfl⟩ := Prod.mk.inj (Option.some.inj ht)
      rfl
    · rw [if_neg hb] at ht ⊢
      exact h _ x rest more ht

/-- A value is read by its first byte behind blanks. -/
theorem value?_succ {t rest : Text} {c : UInt8} (h : skipBlanks t = c :: rest) (fuel : Nat) :
    value? (fuel + 1) t =
      if c = 34 then (string? rest).map fun x => (.str x.1, x.2)
      else if c = 91 then
        enclosed? 93 (.arr []) (fun r => (items? fuel [] r).map fun x => (.arr x.1, x.2)) rest
      else if c = 123 then
        enclosed? 125 (.obj []) (fun r => (members? fuel [] r).map fun x => (.obj x.1, x.2)) rest
      else if c = 116 then (Text.after? rest "rue").map fun r => (.bool true, r)
      else if c = 102 then (Text.after? rest "alse").map fun r => (.bool false, r)
      else if c = 110 then (Text.after? rest "ull").map fun r => (.null, r)
      else (number? (c :: rest)).map fun x => (.num x.1, x.2) := by
  rw [value?.eq_def]
  simp only [h, beq_iff_eq]
  congr 2
  · split
    · next hclose => rw [enclosed?_of_close hclose]
    · next hopen => rw [enclosed?_of_open hopen]
  congr 1
  split
  · next hclose => rw [enclosed?_of_close hclose]
  · next hopen => rw [enclosed?_of_open hopen]

/-- An object is read the same with more text behind it if the values within it are. -/
theorem value?_object_extends {fuel fuel' : Nat}
    (hvalue : ∀ {n n'}, n < fuel → n ≤ n' → ExtendsInside (value? n) (value? n')) (hle : fuel ≤ fuel')
    {t r : Text} (hobject : skipBlanks t = 123 :: r) {x : Json} {rest : Text} (more : Text)
    (h : value? (fuel + 1) t = some (x, rest)) :
    value? (fuel' + 1) (t ++ more) = some (x, rest ++ more) := by
  have hmark : (123 : UInt8) ≠ 34 ∧ (123 : UInt8) ≠ 91 := by decide
  rw [value?_succ hobject, if_neg hmark.1, if_neg hmark.2, if_pos rfl] at h
  rw [value?_succ (skipBlanks_append hobject more), if_neg hmark.1, if_neg hmark.2, if_pos rfl]
  refine enclosed?_extends ?_ ?_ 125 (.obj []) r x rest more h
  · intro t x rest more h
    exact map_extends h fun ms hms => members?_extends hvalue hle [] t ms rest more hms
  · cases fuel <;> rfl

/-- A value that something stops is read the same with more text behind that. -/
theorem value?_extendsInside {fuel fuel' : Nat} (hle : fuel ≤ fuel') :
    ExtendsInside (value? fuel) (value? fuel') := by
  intro t x rest more hrest h
  induction fuel using Nat.strongRecOn generalizing fuel' t x rest more with
  | _ fuel ih =>
    have hvalue : ∀ {n n'}, n < fuel → n ≤ n' → ExtendsInside (value? n) (value? n') :=
      fun hn hle t x rest more hrest h => ih _ hn hle t x rest more hrest h
    cases fuel with
    | zero => simp [value?] at h
    | succ fuel =>
      obtain ⟨fuel', rfl⟩ : ∃ n, fuel' = n + 1 := ⟨fuel' - 1, by omega⟩
      have hinner : ∀ {n n'}, n < fuel → n ≤ n' → ExtendsInside (value? n) (value? n') :=
        fun hn => hvalue (Nat.lt_succ_of_lt hn)
      have hle' : fuel ≤ fuel' := by omega
      cases hblanks : skipBlanks t with
      | nil => simp [value?, hblanks] at h
      | cons c r =>
        by_cases hobject : c = 123
        · subst hobject
          exact value?_object_extends hinner hle' hblanks more h
        rw [value?_succ hblanks] at h
        rw [value?_succ (skipBlanks_append hblanks more)]
        by_cases hstring : c = 34
        · rw [if_pos hstring] at h ⊢
          exact map_extends h fun s hs => string?_extends r s rest more hs
        rw [if_neg hstring] at h ⊢
        by_cases harray : c = 91
        · rw [if_pos harray] at h ⊢
          refine enclosed?_extends ?_ ?_ 93 (.arr []) r x rest more h
          · intro t x rest more h
            exact map_extends h fun xs hxs => items?_extends hinner hle' [] t xs rest more hxs
          · cases fuel with
            | zero => rfl
            | succ fuel => cases fuel <;> rfl
        rw [if_neg harray, if_neg hobject] at h ⊢
        by_cases htrue : c = 116
        · rw [if_pos htrue] at h ⊢
          exact word_extends more h
        rw [if_neg htrue] at h ⊢
        by_cases hfalse : c = 102
        · rw [if_pos hfalse] at h ⊢
          exact word_extends more h
        rw [if_neg hfalse] at h ⊢
        by_cases hnull : c = 110
        · rw [if_pos hnull] at h ⊢
          exact word_extends more h
        rw [if_neg hnull] at h ⊢
        exact map_extends h fun n hn => number?_extendsInside (c :: r) n rest more hrest hn

/-- No part of the text of an object is read as a value, except the whole. -/
theorem readFront?_cut {members : List (Text × Json)} (h : (Json.obj members).Whole) {front more : Text}
    (hcut : front ++ more = compact (.obj members)) (hmore : more ≠ []) : readFront? front = none := by
  cases hread : readFront? front with
  | none => rfl
  | some y =>
    obtain ⟨x, rest⟩ := y
    have hopen : ∃ r, skipBlanks front = 123 :: r := by
      cases front with
      | nil => simp [readFront?, value?, skipBlanks] at hread
      | cons b front =>
        have htext : compact (.obj members) = 123 :: (compactMembers members ++ [125]) := rfl
        rw [htext, List.cons_append] at hcut
        obtain ⟨rfl, -⟩ := List.cons.inj hcut
        exact ⟨front, skipBlanks_cons (by decide) _⟩
    obtain ⟨r, hr⟩ := hopen
    have hlength : front.length + 1 ≤ (front ++ more).length + 1 := by simp
    have hwhole := value?_object_extends (fun _ => value?_extendsInside) hlength hr more hread
    have hread' := readFront?_compact h
    rw [← hcut] at hread'
    have hrest := (Prod.mk.inj (Option.some.inj (hwhole.symm.trans hread'))).2
    exact absurd (List.append_eq_nil_iff.mp hrest).2 hmore

end ClassAtlas.Json
