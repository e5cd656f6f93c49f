import ClassAtlas.Proofs.Json.Strings
import Mathlib.Data.List.TakeDrop

namespace ClassAtlas.Json

/-- A text that no number goes on with. -/
def Closed (rest : Text) : Prop :=
  ∀ b, rest.head? = some b → Text.isDigit b = false ∧ b ≠ 46 ∧ b ≠ 101 ∧ b ≠ 69

/-- The digits of a number are read up to its end. -/
theorem digits?_append {ds rest : Text} (hne : ds ≠ []) (hdigits : ∀ b ∈ ds, Text.isDigit b = true)
    (hrest : Closed rest) :
    digits? (ds ++ rest) = some (ds, rest) := by
  have hspan : (ds ++ rest).span Text.isDigit = (ds, rest) := by
    rw [List.span_eq_takeWhile_dropWhile, List.takeWhile_append_of_pos hdigits,
      List.dropWhile_append_of_pos hdigits]
    cases rest with
    | nil => simp
    | cons b more => simp [(hrest b rfl).1]
  obtain ⟨b, more, rfl⟩ := List.exists_cons_of_ne_nil hne
  simp only [digits?, hspan]

/-- A whole number is read up to its end; its digits have no leading zero. -/
theorem whole?_append {ds rest : Text} {n : Nat} (h : Decimal.Denotes ds n) (hrest : Closed rest) :
    whole? (ds ++ rest) = some (ds, rest) := by
  by_cases hzero : ds.head? = some 48
  · rw [h.lead hzero]
    rfl
  · unfold whole?
    split
    · next heq =>
      obtain ⟨b, more, rfl⟩ := List.exists_cons_of_ne_nil h.nonempty
      obtain ⟨rfl, -⟩ := List.cons.inj heq
      exact absurd rfl hzero
    · exact digits?_append h.nonempty h.digits hrest

/-- Where a number has ended there is no fraction. -/
theorem fraction?_of_closed {rest : Text} (h : Closed rest) : fraction? rest = some ([], rest) := by
  unfold fraction?
  split
  · exact absurd rfl (h 46 rfl).2.1
  · rfl

/-- Where a number has ended there is no exponent. -/
theorem exponent?_of_closed {rest : Text} (h : Closed rest) : exponent? rest = some ([], rest) := by
  cases rest with
  | nil => rfl
  | cons b more =>
    obtain ⟨-, -, hlower, hupper⟩ := h b rfl
    simp [exponent?, hlower, hupper]

/-- A whole number that was written is read up to its end, with its sign. -/
theorem number?_ofInt (n : Int) {rest : Text} (h : Closed rest) :
    number? (Decimal.ofInt n ++ rest) = some (Decimal.ofInt n, rest) := by
  have hwhole : ∀ m : Nat, whole? (Decimal.ofNat m ++ rest) = some (Decimal.ofNat m, rest) :=
    fun m => whole?_append (Decimal.ofNat_denotes m) h
  cases n with
  | ofNat m =>
    have hsign : splitMinus (Decimal.ofNat m ++ rest) = ([], Decimal.ofNat m ++ rest) := by
      have hden := Decimal.ofNat_denotes m
      unfold splitMinus
      split
      · next heq =>
        obtain ⟨b, more, hb⟩ := List.exists_cons_of_ne_nil hden.nonempty
        rw [hb] at heq
        obtain ⟨rfl, -⟩ := List.cons.inj heq
        exact absurd hb (hden.head_ne (by decide) _)
      · rfl
    simp [number?, Decimal.ofInt, hsign, hwhole, fraction?_of_closed h, exponent?_of_closed h]
  | negSucc m =>
    simp [number?, Decimal.ofInt, splitMinus, hwhole, fraction?_of_closed h, exponent?_of_closed h]

mutual

/-- What a reader makes of a value that was written. -/
def reread : Json → Json
  | .null => .null
  | .bool b => .bool b
  | .num literal => .num literal
  | .str t => .str (Utf8.scrub t)
  | .arr items => .arr (rereadItems items)
  | .obj members => .obj (rereadMembers members)

/-- What a reader makes of the items of an array. -/
def rereadItems : List Json → List Json
  | [] => []
  | item :: more => reread item :: rereadItems more

/-- What a reader makes of the members of an object. -/
def rereadMembers : List (Text × Json) → List (Text × Json)
  | [] => []
  | (name, value) :: more => (Utf8.scrub name, reread value) :: rereadMembers more

end

mutual

/-- All numbers of a value are whole numbers. -/
def Whole : Json → Prop
  | .num literal => ∃ n, literal = Decimal.ofInt n
  | .arr items => WholeItems items
  | .obj members => WholeMembers members
  | _ => True

/-- All numbers of items are whole numbers. -/
def WholeItems : List Json → Prop
  | [] => True
  | item :: more => Whole item ∧ WholeItems more

/-- All numbers of members are whole numbers. -/
def WholeMembers : List (Text × Json) → Prop
  | [] => True
  | (_, value) :: more => Whole value ∧ WholeMembers more

end

/-- The items of an array are reread one by one. -/
theorem rereadItems_eq_map (items : List Json) : rereadItems items = items.map reread := by
  induction items with
  | nil => rfl
  | cons item more ih => rw [rereadItems, ih, List.map_cons]

/-- All numbers of an array are whole if those of each item are. -/
theorem wholeItems_iff {items : List Json} : WholeItems items ↔ ∀ item ∈ items, item.Whole := by
  induction items with
  | nil => simp [WholeItems]
  | cons item more ih => rw [WholeItems, ih, List.forall_mem_cons]

/-- All numbers of an object are whole if those of each member are. -/
theorem wholeMembers_iff {members : List (Text × Json)} :
    WholeMembers members ↔ ∀ m ∈ members, m.2.Whole := by
  induction members with
  | nil => simp [WholeMembers]
  | cons m more ih => rw [WholeMembers, ih, List.forall_mem_cons]

/-- What follows a text is found behind it. -/
theorem after?_append (lead rest : Text) : Text.after? (lead ++ rest) lead = some rest := by
  induction lead with
  | nil => simp [Text.after?]
  | cons b lead ih => simp [Text.after?, ih]

/-- A number starts neither with a blank nor with the mark of another value. -/
theorem ofInt_eq_cons (n : Int) : ∃ b t, Decimal.ofInt n = b :: t ∧
    (b == 32 || b == 9 || b == 10 || b == 13) = false ∧ b ≠ 93 ∧ b ≠ 125 ∧
      b ≠ 34 ∧ b ≠ 91 ∧ b ≠ 123 ∧ b ≠ 116 ∧ b ≠ 102 ∧ b ≠ 110 := by
  cases n with
  | ofNat n =>
    have hden := Decimal.ofNat_denotes n
    obtain ⟨b, t, hb⟩ := List.exists_cons_of_ne_nil hden.nonempty
    have hdigit := Decimal.isDigit_iff.mp (hden.digits b (by simp [hb]))
    refine ⟨b, t, hb, ?_⟩
    simp only [Bool.or_eq_false_iff, beq_eq_false_iff_ne, ne_eq, ← UInt8.toNat_inj]
    simp
    omega
  | negSucc n => exact ⟨45, _, rfl, by decide⟩

/-- The text of a value starts neither with a blank nor with a closing bracket. -/
theorem compact_eq_cons {j : Json} (h : j.Whole) : ∃ b t, compact j = b :: t ∧
    (b == 32 || b == 9 || b == 10 || b == 13) = false ∧ b ≠ 93 ∧ b ≠ 125 := by
  cases j with
  | null => exact ⟨110, "ull", rfl, by decide⟩
  | bool b =>
    cases b with
    | true => exact ⟨116, "rue", rfl, by decide⟩
    | false => exact ⟨102, "alse", rfl, by decide⟩
  | num literal =>
    obtain ⟨n, rfl⟩ := h
    obtain ⟨b, t, hb, hblank, hbracket, hbrace, -⟩ := ofInt_eq_cons n
    exact ⟨b, t, hb, hblank, hbracket, hbrace⟩
  | str t => exact ⟨34, _, rfl, by decide⟩
  | arr items => exact ⟨91, _, rfl, by decide⟩
  | obj members => exact ⟨123, _, rfl, by decide⟩

/-- Nothing is skipped where there is no blank. -/
theorem skipBlanks_cons {b : UInt8} (h : (b == 32 || b == 9 || b == 10 || b == 13) = false)
    (t : Text) :
    skipBlanks (b :: t) = b :: t := by
  simp [skipBlanks, h]

/-- A comma and a closing bracket end a number. -/
theorem closed_cons {b : UInt8} (h : b = 44 ∨ b = 93 ∨ b = 125) (rest : Text) :
    Closed (b :: rest) := by
  intro b' hb'
  obtain rfl : b = b' := by simpa using hb'
  rcases h with rfl | rfl | rfl <;> decide

/-- A number is what is left where a value starts with none of the other marks. -/
theorem value?_num {n : Int} {fuel : Nat} {rest : Text} (hrest : Closed rest) :
    value? (fuel + 1) (Decimal.ofInt n ++ rest) = some (.num (Decimal.ofInt n), rest) := by
  have hread := number?_ofInt n hrest
  obtain ⟨b, t, hb, hblank, -, -, h34, h91, h123, h116, h102, h110⟩ := ofInt_eq_cons n
  rw [hb] at hread ⊢
  rw [List.cons_append] at hread ⊢
  simp only [value?, skipBlanks_cons hblank, beq_iff_eq, h34, h91, h123, h116, h102, h110, if_false,
    hread, Option.map_some]

/-- A text that was written is read back with the replacement character for stray bytes. Any fuel but none
is enough. -/
theorem value?_str (t : Text) (fuel : Nat) (rest : Text) :
    value? (fuel + 1) (quoted t ++ rest) = some (.str (Utf8.scrub t), rest) := by
  have htext : quoted t ++ rest = 34 :: ((Utf8.runes t).flatMap escapeRune ++ 34 :: rest) := by
    simp [quoted]
  simp only [htext, value?, skipBlanks_cons (b := 34) (by decide), beq_self_eq_true, if_true,
    string?_quoted, Option.map_some]

/-- Items are written with commas between them and none at the end. -/
theorem compactItems_cons (item : Json) (more : List Json) :
    compactItems (item :: more) = compact item ++
      if more = [] then [] else 44 :: compactItems more := by
  cases more with
  | nil => simp [compactItems]
  | cons next more => simp [compactItems]

/-- Members are written with commas between them and none at the end. -/
theorem compactMembers_cons (name : Text) (value : Json) (more : List (Text × Json)) :
    compactMembers ((name, value) :: more) =
      quoted name ++ 58 :: compact value ++
      if more = [] then [] else 44 :: compactMembers more := by
  cases more with
  | nil => simp [compactMembers]
  | cons next more => simp [compactMembers]

private theorem value?_word {b : UInt8} {word : Text} {j : Json} (fuel : Nat) (rest : Text)
    (h : ∀ t, value? (fuel + 1) (b :: t) = (Text.after? t word).map fun r => (j, r)) :
    value? (fuel + 1) (b :: word ++ rest) = some (j, rest) := by
  rw [List.cons_append, h, after?_append]
  rfl

/-- The null value is read back. -/
theorem value?_null (fuel : Nat) (rest : Text) :
    value? (fuel + 1) (compact .null ++ rest) = some (.null, rest) := by
  have htext : compact .null = 110 :: Text.ofString "ull" := rfl
  rw [htext]
  exact value?_word fuel rest fun t => by simp [value?, skipBlanks_cons]

/-- A truth value is read back. -/
theorem value?_bool (b : Bool) (fuel : Nat) (rest : Text) :
    value? (fuel + 1) (compact (.bool b) ++ rest) = some (.bool b, rest) := by
  cases b with
  | true =>
    have htext : compact (.bool true) = 116 :: Text.ofString "rue" := rfl
    rw [htext]
    exact value?_word fuel rest fun t => by simp [value?, skipBlanks_cons]
  | false =>
    have htext : compact (.bool false) = 102 :: Text.ofString "alse" := rfl
    rw [htext]
    exact value?_word fuel rest fun t => by simp [value?, skipBlanks_cons]

/-- An array is read by its items, unless it is empty. -/
theorem value?_arr {items : List Json} (hitems : WholeItems items) {fuel : Nat} {rest : Text}
    (hread : items ≠ [] → items? fuel [] (compactItems items ++ 93 :: rest) =
      some (rereadItems items, rest)) :
    value? (fuel + 1) (compact (.arr items) ++ rest) = some (reread (.arr items), rest) := by
  have htext : compact (.arr items) ++ rest = 91 :: (compactItems items ++ 93 :: rest) := by
    simp [compact]
  rw [htext]
  cases items with
  | nil => simp [value?, compactItems, skipBlanks_cons, reread, rereadItems]
  | cons item more =>
    obtain ⟨b, t, hb, hblank, hbracket, -⟩ := compact_eq_cons hitems.1
    have hfirst : compactItems (item :: more) ++ 93 :: rest = b :: (t ++ ((if more = [] then [] else
        44 :: compactItems more) ++ 93 :: rest)) := by
      rw [compactItems_cons, hb]
      simp
    have hitems? := hread (by simp)
    rw [hfirst] at hitems? ⊢
    have hnot : (91 : UInt8) ≠ 34 := by decide
    simp only [value?, skipBlanks_cons (b := 91) (by decide), beq_iff_eq, hnot, if_false, if_true,
      skipBlanks_cons hblank]
    split
    · next heq => exact absurd (List.cons.inj heq).1 hbracket
    · simp [hitems?, reread]

/-- An object is read by its members, unless it is empty. -/
theorem value?_obj {members : List (Text × Json)} {fuel : Nat} {rest : Text}
    (hread : members ≠ [] → members? fuel [] (compactMembers members ++ 125 :: rest) =
      some (rereadMembers members, rest)) :
    value? (fuel + 1) (compact (.obj members) ++ rest) = some (reread (.obj members), rest) := by
  have htext : compact (.obj members) ++ rest = 123 :: (compactMembers members ++ 125 :: rest) := by
    simp [compact]
  rw [htext]
  cases members with
  | nil => simp [value?, compactMembers, skipBlanks_cons, reread, rereadMembers]
  | cons m more =>
    have hfirst : ∃ t, compactMembers (m :: more) ++ 125 :: rest = 34 :: t := by
      rw [compactMembers_cons, quoted]
      exact ⟨_, rfl⟩
    have hmembers? := hread (by simp)
    obtain ⟨t, ht⟩ := hfirst
    rw [ht] at hmembers? ⊢
    have hnot : (123 : UInt8) ≠ 34 ∧ (123 : UInt8) ≠ 91 := by decide
    simp only [value?, skipBlanks_cons (b := 123) (by decide), beq_iff_eq, hnot.1, hnot.2, if_false,
      if_true, skipBlanks_cons (b := 34) (by decide)]
    simp [hmembers?, reread]

mutual

/-- A value is read back if there is a unit of fuel for every byte, and one more. -/
theorem value?_compact (j : Json) (hj : j.Whole) (fuel : Nat) (rest : Text)
    (hfuel : (compact j).length < fuel)
    (hrest : Closed rest) : value? fuel (compact j ++ rest) = some (reread j, rest) := by
  obtain ⟨fuel, rfl⟩ : ∃ n, fuel = n + 1 := ⟨fuel - 1, by omega⟩
  match j with
  | .null => exact value?_null fuel rest
  | .bool b => exact value?_bool b fuel rest
  | .num literal =>
    obtain ⟨n, rfl⟩ := hj
    exact value?_num hrest
  | .str t => exact value?_str t fuel rest
  | .arr items =>
    have hlength : (compactItems items).length + 1 < fuel := by
      simp only [compact, List.length_append, List.length_cons, List.length_nil] at hfuel
      omega
    exact value?_arr hj fun hne => items?_compact items hj hne fuel [] rest hlength
  | .obj members =>
    have hlength : (compactMembers members).length + 1 < fuel := by
      simp only [compact, List.length_append, List.length_cons, List.length_nil] at hfuel
      omega
    exact value?_obj fun hne => members?_compact members hj hne fuel [] rest hlength

/-- The items of an array are read back up to its bracket. The fuel has to last for their length. -/
theorem items?_compact (items : List Json) (hitems : WholeItems items) (hne : items ≠ [])
    (fuel : Nat) (acc : List Json) (rest : Text) (hfuel : (compactItems items).length + 1 < fuel) :
    items? fuel acc (compactItems items ++ 93 :: rest) =
      some (acc.reverse ++ rereadItems items, rest) := by
  obtain ⟨fuel, rfl⟩ : ∃ n, fuel = n + 1 := ⟨fuel - 1, by omega⟩
  match items with
  | [] => contradiction
  | item :: more =>
    rw [compactItems_cons, List.length_append] at hfuel
    by_cases hmore : more = []
    · subst hmore
      have hread := value?_compact item hitems.1 fuel (93 :: rest) (by omega)
        (closed_cons (by simp) _)
      simp only [items?, compactItems, hread, skipBlanks_cons (b := 93) (by decide),
        List.reverse_cons, rereadItems]
    · rw [if_neg hmore, List.length_cons] at hfuel
      have hread := value?_compact item hitems.1 fuel (44 :: (compactItems more ++ 93 :: rest))
        (by omega) (closed_cons (by simp) _)
      have hlater := items?_compact more hitems.2 hmore fuel (reread item :: acc) rest (by omega)
      rw [compactItems_cons, if_neg hmore, List.append_assoc, List.cons_append]
      simp only [items?, hread, skipBlanks_cons (b := 44) (by decide), hlater, rereadItems]
      simp

/-- The members of an object are read back up to its bracket. The fuel has to last for their length. -/
theorem members?_compact (members : List (Text × Json)) (hmembers : WholeMembers members)
    (hne : members ≠ []) (fuel : Nat) (acc : List (Text × Json)) (rest : Text)
    (hfuel : (compactMembers members).length + 1 < fuel) :
    members? fuel acc (compactMembers members ++ 125 :: rest) =
      some (acc.reverse ++ rereadMembers members, rest) := by
  obtain ⟨fuel, rfl⟩ : ∃ n, fuel = n + 1 := ⟨fuel - 1, by omega⟩
  match members with
  | [] => contradiction
  | (name, value) :: more =>
    rw [compactMembers_cons, List.length_append, List.length_append, List.length_cons] at hfuel
    have hname : ∀ t,
        quoted name ++ t = 34 :: ((Utf8.runes name).flatMap escapeRune ++ 34 :: t) := by
      simp [quoted]
    by_cases hmore : more = []
    · subst hmore
      have hread := value?_compact value hmembers.1 fuel (125 :: rest) (by omega)
        (closed_cons (by simp) _)
      rw [compactMembers_cons, if_pos rfl, List.append_nil, List.append_assoc, List.cons_append,
        hname]
      simp only [members?, skipBlanks_cons (b := 34) (by decide), string?_quoted,
        skipBlanks_cons (b := 58) (by decide), hread, skipBlanks_cons (b := 125) (by decide),
        List.reverse_cons, rereadMembers]
    · rw [if_neg hmore, List.length_cons] at hfuel
      have hread := value?_compact value hmembers.1 fuel
        (44 :: (compactMembers more ++ 125 :: rest)) (by omega) (closed_cons (by simp) _)
      have hlater := members?_compact more hmembers.2 hmore fuel
        ((Utf8.scrub name, reread value) :: acc) rest (by omega)
      rw [compactMembers_cons, if_neg hmore, List.append_assoc, List.append_assoc, List.cons_append,
        List.cons_append, hname]
      simp only [members?, skipBlanks_cons (b := 34) (by decide), string?_quoted,
        skipBlanks_cons (b := 58) (by decide), hread, skipBlanks_cons (b := 44) (by decide), hlater,
        rereadMembers]
      simp

end

/-- A value is read back from the front of a text. -/
theorem readFront?_compact {j : Json} (hj : j.Whole) :
    readFront? (compact j) = some (reread j, []) := by
  have hread := value?_compact j hj ((compact j).length + 2) [] (by omega) (by simp [Closed])
  rwa [List.append_nil] at hread

/-- A value that was written on one line is read back, up to its texts with stray bytes. -/
theorem read?_compact {j : Json} (hj : j.Whole) : read? (compact j) = some (reread j) := by
  simp [read?, readFront?_compact hj, skipBlanks]

end ClassAtlas.Json
