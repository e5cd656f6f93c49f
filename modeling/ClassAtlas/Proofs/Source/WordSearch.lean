import ClassAtlas.Proofs.Source.Word

namespace ClassAtlas

namespace Text

variable {t part front back : Text}

/-- A text without the lead does not start with it. -/
theorem ne_append_of_after?_eq_none (h : t.after? part = none) : t ≠ part ++ back := by
  rintro rfl
  rw [after?_eq_some_iff.mpr rfl] at h
  contradiction

/-- Nothing is found where the part does not occur. -/
theorem ne_append_of_cutGo_eq_none (hpart : part ≠ []) {passed : Text} (h : cutGo part passed t = none) :
    t ≠ front ++ part ++ back := by
  induction t generalizing passed front with
  | nil =>
    intro hsplit
    simp [hpart] at hsplit
  | cons b rest ih =>
    rw [cutGo] at h
    cases hafter : after? (b :: rest) part with
    | some following => simp [hafter] at h
    | none =>
      rw [hafter] at h
      intro hsplit
      cases front with
      | nil => exact absurd hsplit (ne_append_of_after?_eq_none hafter)
      | cons c front => exact ih h (List.cons.inj hsplit).2

/-- A text is cut at the first occurrence of the part, and what was passed comes before it. -/
theorem exists_of_cutGo_eq_some (hpart : part ≠ []) {passed : Text} (h : cutGo part passed t = some (front, back)) :
    ∃ mid, front = passed.reverse ++ mid ∧ t = mid ++ part ++ back ∧
      ∀ other following, t = other ++ part ++ following → mid.length ≤ other.length := by
  induction t generalizing passed with
  | nil => simp [cutGo, hpart] at h
  | cons b rest ih =>
    rw [cutGo] at h
    cases hafter : after? (b :: rest) part with
    | some following =>
      rw [hafter] at h
      obtain ⟨rfl, rfl⟩ := Prod.mk.inj (Option.some.inj h)
      exact ⟨[], by simp, after?_eq_some_iff.mp hafter, by simp⟩
    | none =>
      rw [hafter] at h
      obtain ⟨mid, rfl, hrest, hfirst⟩ := ih h
      refine ⟨b :: mid, by simp, by simp [hrest], fun other following hsplit => ?_⟩
      cases other with
      | nil => exact absurd hsplit (ne_append_of_after?_eq_none hafter)
      | cons c other => simpa using hfirst other following (List.cons.inj hsplit).2

/-- What is found is the first occurrence. -/
theorem cut?_first (hpart : part ≠ []) (h : t.cut? part = some (front, back)) : t = front ++ part ++ back ∧
    ∀ other following, t = other ++ part ++ following → front.length ≤ other.length := by
  obtain ⟨mid, rfl, hfirst⟩ := exists_of_cutGo_eq_some hpart h
  exact hfirst

end Text

namespace Word

variable {t word : Text} {start i : Nat}

/-- `word` is the part of `t` from the place `i` on, and its neighbours are no word bytes. -/
def StandsAtPlace (t word : Text) (i : Nat) : Prop :=
  ∃ front back, t = front ++ word ++ back ∧ front.length = i ∧ inWord front.getLast? = false ∧
    inWord back.head? = false

/-- A word stands in a text if it does so at some place. -/
theorem stands_iff_exists_place : Stands t word ↔ ∃ i, StandsAtPlace t word i := by
  constructor
  · rintro ⟨front, back, hsplit, hfront, hback⟩
    exact ⟨front.length, front, back, hsplit, rfl, hfront, hback⟩
  · rintro ⟨i, front, back, hsplit, -, hfront, hback⟩
    exact ⟨front, back, hsplit, hfront, hback⟩

/-- A word stands at a place if it occurs there and its neighbours are no word bytes. -/
theorem standsAtPlace_iff : StandsAtPlace t word i ↔ (∃ front back, t = front ++ word ++ back ∧ front.length = i) ∧
    inWord (t.take i).getLast? = false ∧ inWord t[i + word.length]? = false := by
  have hneighbours : ∀ front back : Text, ((front ++ word ++ back).take front.length).getLast? = front.getLast? ∧
      (front ++ word ++ back)[front.length + word.length]? = back.head? := by
    intro front back
    refine ⟨by rw [List.append_assoc, List.take_left], ?_⟩
    rw [← List.length_append, List.getElem?_append_right (Nat.le_refl _), Nat.sub_self, List.head?_eq_getElem?]
  constructor
  · rintro ⟨front, back, rfl, rfl, hfront, hback⟩
    obtain ⟨hbefore, hbehind⟩ := hneighbours front back
    exact ⟨⟨front, back, rfl, rfl⟩, by rwa [hbefore], by rwa [hbehind]⟩
  · rintro ⟨⟨front, back, rfl, rfl⟩, hfront, hback⟩
    obtain ⟨hbefore, hbehind⟩ := hneighbours front back
    exact ⟨front, back, rfl, rfl, hbefore ▸ hfront, hbehind ▸ hback⟩

/-- One turn of the search: the first occurrence from `start` on stands alone or there is none, which is the answer,
or the next turn starts one byte behind where it starts. -/
def turn (t word : Text) (start : Nat) : Bool ⊕ Nat :=
  match Text.cut? (t.drop start) word with
  | none => .inl false
  | some (front, _) =>
    let place := start + front.length
    if !inWord (t.take place).getLast? && !inWord t[place + word.length]? then .inl true
    else .inr (place + 1)

/-- The answer of the search from `start` on, if it comes within a number of turns. -/
def search (t word : Text) : Nat → Nat → Option Bool
  | 0, _ => none
  | turns + 1, start =>
    match turn t word start with
    | .inl answer => some answer
    | .inr next => search t word turns next

/-- What stands at a place is an occurrence in the text from an earlier place on. -/
theorem drop_eq_of_standsAtPlace (h : StandsAtPlace t word i) (hi : start ≤ i) :
    ∃ other back, t.drop start = other ++ word ++ back ∧ start + other.length = i := by
  obtain ⟨front, back, rfl, rfl, -⟩ := h
  refine ⟨front.drop start, back, ?_, by rw [List.length_drop]; omega⟩
  rw [List.append_assoc, List.append_assoc, List.drop_append_of_le_length hi]

/-- What a turn can come to. It moves on, but not past a place where the word stands. -/
theorem turn_cases (hword : word ≠ []) (hstart : start ≤ t.length) :
    (turn t word start = .inl false ∧ ∀ i, start ≤ i → ¬StandsAtPlace t word i) ∨
      (turn t word start = .inl true ∧ ∃ i, StandsAtPlace t word i) ∨
      ∃ next, turn t word start = .inr next ∧ start < next ∧ next ≤ t.length ∧
        ∀ i, start ≤ i → StandsAtPlace t word i → next ≤ i := by
  unfold turn
  cases hcut : Text.cut? (t.drop start) word with
  | none =>
    refine .inl ⟨rfl, fun i hi hstands => ?_⟩
    obtain ⟨other, back, hsplit, -⟩ := drop_eq_of_standsAtPlace hstands hi
    exact Text.ne_append_of_cutGo_eq_none hword hcut hsplit
  | some found =>
    obtain ⟨front, back⟩ := found
    obtain ⟨hsplit, hfirst⟩ := Text.cut?_first hword hcut
    have hoccurs : ∃ lead back, t = lead ++ word ++ back ∧ lead.length = start + front.length := by
      refine ⟨t.take start ++ front, back, ?_, by simp [hstart]⟩
      rw [List.append_assoc, List.append_assoc, ← List.append_assoc front, ← hsplit, List.take_append_drop]
    have hbound : start + front.length + 1 ≤ t.length := by
      obtain ⟨lead, back, rfl, hplace⟩ := hoccurs
      have hpositive := List.length_pos_of_ne_nil hword
      simp only [List.length_append]
      omega
    by_cases hstands : StandsAtPlace t word (start + front.length)
    · obtain ⟨-, hbefore, hbehind⟩ := standsAtPlace_iff.mp hstands
      exact .inr (.inl ⟨by simp [hbefore, hbehind], _, hstands⟩)
    · refine .inr (.inr ⟨start + front.length + 1, ?_, by omega, hbound, fun i hi hplace => ?_⟩)
      · refine if_neg fun hneighbours => hstands (standsAtPlace_iff.mpr ⟨hoccurs, ?_⟩)
        simpa using hneighbours
      · obtain ⟨other, following, hother, rfl⟩ := drop_eq_of_standsAtPlace hplace hi
        have hle := hfirst other following hother
        have hne : front.length ≠ other.length := fun heq => hstands (heq ▸ hplace)
        omega

/-- The search ends, for every turn moves on. While nothing stands before its start, its answer is right. -/
theorem exists_search_eq_some (hword : word ≠ []) {turns : Nat} (hturns : t.length < start + turns)
    (hstart : start ≤ t.length) (hbefore : ∀ i, StandsAtPlace t word i → start ≤ i) :
    ∃ answer, search t word turns start = some answer ∧ (answer = true ↔ Stands t word) := by
  rw [stands_iff_exists_place]
  induction turns generalizing start with
  | zero => omega
  | succ turns ih =>
    rcases turn_cases hword hstart with ⟨hturn, hnone⟩ | ⟨hturn, hfound⟩ | ⟨next, hturn, hlt, hle, hnext⟩
    · refine ⟨false, by rw [search, hturn], by simpa using fun i hi => hnone i (hbefore i hi) hi⟩
    · exact ⟨true, by rw [search, hturn], by simpa using hfound⟩
    · rw [search, hturn]
      exact ih (by omega) hle fun i hi => hnext i (hbefore i hi) hi

/-- Collects the runs of `t` from the place `i` on, where `rest` is left of the text. A run that is open has begun at
the place `start`. -/
def collectFrom (t : Text) : Option Nat → Nat → Text → List Text
  | none, _, [] => []
  | some start, _, [] => [t.drop start]
  | none, i, b :: rest =>
    if Text.isWord b then collectFrom t (some i) (i + 1) rest else collectFrom t none (i + 1) rest
  | some start, i, b :: rest =>
    if Text.isWord b then collectFrom t (some start) (i + 1) rest
    else (t.take i).drop start :: collectFrom t none (i + 1) rest

/-- The runs of word bytes, collected in one pass by their places. -/
def collect (t : Text) : List Text := collectFrom t none 0 t

/-- The runs are what going over the text from its end leaves, with an open run if it is not empty. -/
theorem runs_eq (t : Text) : runs t = if (t.foldr extend ([], [])).1 = [] then (t.foldr extend ([], [])).2
    else (t.foldr extend ([], [])).1 :: (t.foldr extend ([], [])).2 := by
  simp [runs]

/-- A byte that is no word byte closes the run behind it. -/
theorem foldr_extend_of_not_isWord {b : UInt8} (hb : Text.isWord b = false) (rest : Text) :
    (b :: rest).foldr extend ([], []) = ([], runs rest) := by
  rw [List.foldr_cons, runs_eq, extend, if_neg (by simp [hb])]
  generalize rest.foldr extend ([], []) = state
  obtain ⟨opened, closed⟩ := state
  cases opened <;> rfl

/-- From every place on the pass collects the runs behind it, the first of them behind what is open. -/
theorem collectFrom_eq (front rest : Text) :
    collectFrom (front ++ rest) none front.length rest = runs rest ∧
      ∀ start ≤ front.length, collectFrom (front ++ rest) (some start) front.length rest =
        (front.drop start ++ (rest.foldr extend ([], [])).1) :: (rest.foldr extend ([], [])).2 := by
  induction rest generalizing front with
  | nil => exact ⟨rfl, by simp [collectFrom]⟩
  | cons b rest ih =>
    obtain ⟨hclosed, hopened⟩ := ih (front ++ [b])
    rw [List.append_assoc, List.singleton_append, List.length_append, List.length_singleton] at hclosed hopened
    cases hb : Text.isWord b with
    | false =>
      rw [foldr_extend_of_not_isWord hb]
      refine ⟨?_, fun start hstart => ?_⟩
      · rw [collectFrom, if_neg (by simp [hb]), hclosed, runs_eq (b :: rest), foldr_extend_of_not_isWord hb, if_pos rfl]
      · rw [collectFrom, if_neg (by simp [hb]), hclosed, List.take_left, List.append_nil]
    | true =>
      have hextend : (b :: rest).foldr extend ([], []) =
          (b :: (rest.foldr extend ([], [])).1, (rest.foldr extend ([], [])).2) := by
        rw [List.foldr_cons, extend, if_pos hb]
      refine ⟨?_, fun start hstart => ?_⟩
      · rw [collectFrom, if_pos hb, hopened _ (Nat.le_add_right _ _), List.drop_left, runs_eq (b :: rest), hextend]
        simp
      · rw [collectFrom, if_pos hb, hopened _ (Nat.le_add_right_of_le hstart), List.drop_append_of_le_length hstart,
          hextend, List.append_assoc, List.singleton_append]

/-- Collecting runs by their places gives the same runs. -/
theorem collect_eq_runs (t : Text) : collect t = runs t := (collectFrom_eq [] t).1

/-- What comes of looking for a word in a text, if the search ends within a number of turns: an answer, or none if
the word cannot be looked for. Only words of word bytes are searched for by places. -/
def lookFor (t word : Text) (turns : Nat) : Option (Option Bool) :=
  if word.isEmpty then some (some false)
  else if isIdentifier word then (search t word turns 0).map some
  else some ((Pattern.of? word).map (occurs t))

/-- Whatever the word, the search ends after at most one turn for each byte of the text and one more. -/
theorem lookFor_eq (t word : Text) {turns : Nat} (hturns : t.length < turns) :
    lookFor t word turns = some (isIn t word) := by
  unfold lookFor
  by_cases hempty : word.isEmpty = true
  · simp [isIn, hempty]
  by_cases hword : isIdentifier word = true
  · have hne := (isIdentifier_iff.mp hword).1
    have hturns' : t.length < 0 + turns := by omega
    obtain ⟨answer, hsearch, hanswer⟩ := exists_search_eq_some hne hturns' (Nat.zero_le _) fun i _ => Nat.zero_le i
    have hin : (runs t).contains word = true ↔ Stands t word := by rw [List.contains_iff_mem, mem_runs_iff hword]
    rw [if_neg hempty, if_pos hword, hsearch, isIn_eq_contains_runs hword,
      Bool.eq_iff_iff.mpr (hanswer.trans hin.symm), Option.map_some]
  · simp [isIn, hempty, hword]

/-- Three tests for a word of word bytes say the same: that it is one of the runs of the text, that the text has it, and
that it stands somewhere in the text between other bytes than word bytes. For such a word there is always an answer. The
pass by places collects the same runs, and for every word the search by places ends with the same answer. -/
theorem whole_word_tests_agree (t word : Text) :
    (isIdentifier word = true → (∃ answer, isIn t word = some answer) ∧
        (word ∈ runs t ↔ isIn t word = some true) ∧ (isIn t word = some true ↔ Stands t word)) ∧
      collect t = runs t ∧ ∀ turns, t.length < turns → lookFor t word turns = some (isIn t word) := by
  refine ⟨fun hword => ?_, collect_eq_runs t, fun turns hturns => lookFor_eq t word hturns⟩
  have hin := isIn_eq_contains_runs (t := t) hword
  have hruns : word ∈ runs t ↔ isIn t word = some true := by rw [hin, Option.some.injEq, List.contains_iff_mem]
  exact ⟨⟨_, hin⟩, hruns, hruns.symm.trans (mem_runs_iff hword)⟩

/-- The word overlaps itself twice before it stands alone. -/
theorem whole_word_tests_agree_overlapping :
    isIdentifier "aa" = true ∧ Text.ofString "aa" ∈ runs "aaa aa" ∧ Stands "aaa aa" "aa" ∧
      lookFor "aaa aa" "aa" 7 = some (some true) := by
  have hword : isIdentifier "aa" = true := by decide
  have hin : isIn "aaa aa" "aa" = some true := by decide
  obtain ⟨htests, -, hsearch⟩ := whole_word_tests_agree "aaa aa" "aa"
  obtain ⟨-, hruns, hstands⟩ := htests hword
  exact ⟨hword, hruns.mpr hin, hstands.mp hin, (hsearch 7 (by decide)).trans (congrArg some hin)⟩

end Word

end ClassAtlas
