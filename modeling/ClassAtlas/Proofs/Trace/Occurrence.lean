import ClassAtlas.Trace.Walk

namespace ClassAtlas

/-- Some part of the line equals the pattern up to the case of ASCII letters. -/
def Occurs (pattern line : Text) : Prop :=
  ∃ front part back, line = front ++ part ++ back ∧ part.lowerAscii = pattern.lowerAscii

/-- A search succeeds if its recogniser does so at some position. -/
theorem Scan.first?_isSome_iff {α : Type} {recognise : Text → Option α} {t : Text} :
    (Scan.first? recognise t).isSome = true ↔ ∃ front back, t = front ++ back ∧
    (recognise back).isSome = true := by
  induction t with
  | nil =>
    unfold Scan.first?
    constructor
    · exact fun h => ⟨[], [], rfl, h⟩
    · rintro ⟨front, back, hsplit, hback⟩
      obtain ⟨-, rfl⟩ := List.append_eq_nil_iff.mp hsplit.symm
      exact hback
  | cons b rest ih =>
    unfold Scan.first?
    cases hhere : recognise (b :: rest) with
    | some found => exact ⟨fun _ => ⟨[], b :: rest, rfl, by simp [hhere]⟩, fun _ => rfl⟩
    | none =>
      simp only [ih]
      constructor
      · rintro ⟨front, back, rfl, hback⟩
        exact ⟨b :: front, back, rfl, hback⟩
      · rintro ⟨front, back, hsplit, hback⟩
        cases front with
        | nil =>
          rw [List.nil_append] at hsplit
          rw [← hsplit, hhere] at hback
          contradiction
        | cons c front =>
          obtain ⟨-, hrest⟩ := List.cons.inj hsplit
          exact ⟨front, back, hrest, hback⟩

namespace Argument

/-- What comes after a pattern is the rest behind a part that equals it up to the case of ASCII
letters. -/
theorem afterFolded?_eq_some_iff {t pattern rest : Text} :
    afterFolded? t pattern = some rest ↔ ∃ part, t = part ++ rest ∧
      part.lowerAscii = pattern.lowerAscii := by
  induction pattern generalizing t with
  | nil => simp [afterFolded?, Text.lowerAscii, eq_comm]
  | cons p pattern ih =>
    cases t with
    | nil =>
      simp only [afterFolded?, reduceCtorEq, false_iff, not_exists, not_and]
      intro part hpart
      obtain ⟨rfl, -⟩ := List.append_eq_nil_iff.mp hpart.symm
      simp [Text.lowerAscii]
    | cons c t =>
      simp only [afterFolded?]
      by_cases hc : Text.lowerByte c = Text.lowerByte p
      · simp only [hc, beq_self_eq_true, if_true, ih]
        constructor
        · rintro ⟨part, rfl, hpart⟩
          refine ⟨c :: part, rfl, ?_⟩
          simpa [Text.lowerAscii, hc] using hpart
        · rintro ⟨part, hsplit, hpart⟩
          cases part with
          | nil => simp [Text.lowerAscii] at hpart
          | cons d part =>
            obtain ⟨rfl, rfl⟩ := List.cons.inj hsplit
            exact ⟨part, rfl, by simpa [Text.lowerAscii, hc] using hpart⟩
      · simp only [beq_iff_eq, hc, if_false, reduceCtorEq, false_iff, not_exists, not_and]
        intro part hsplit hpart
        cases part with
        | nil => simp [Text.lowerAscii] at hpart
        | cons d part =>
          obtain ⟨rfl, -⟩ := List.cons.inj hsplit
          simp [Text.lowerAscii, hc] at hpart

/-- A line mentions a pattern exactly if it occurs there. -/
theorem mentions_iff {line pattern : Text} :
    mentions line pattern = true ↔ Occurs pattern line := by
  unfold mentions afterFirst? Occurs
  rw [Scan.first?_isSome_iff]
  constructor
  · rintro ⟨front, back, rfl, hback⟩
    obtain ⟨rest, hrest⟩ := Option.isSome_iff_exists.mp hback
    obtain ⟨part, rfl, hpart⟩ := afterFolded?_eq_some_iff.mp hrest
    exact ⟨front, part, rest, (List.append_assoc ..).symm, hpart⟩
  · rintro ⟨front, part, back, rfl, hpart⟩
    refine ⟨front, part ++ back, List.append_assoc .., ?_⟩
    rw [afterFolded?_eq_some_iff.mpr ⟨part, rfl, hpart⟩]
    rfl

/-- An argument that is found is not empty. -/
theorem first?_ne_nil {line pattern : Text} : first? line pattern ≠ some [] := by
  unfold first?
  cases callTail? line pattern with
  | none => simp
  | some args =>
    simp only [Option.bind_eq_bind, Option.bind_some]
    split
    · simp
    · next hne =>
      intro heq
      simp [Option.some.inj heq] at hne

end Argument

namespace Trace

/-- What a match says about a line: its number, the method around it, the first pattern of the list
that occurs in it, and the argument of the call. -/
structure Reports (patterns : List Text) (f : SourceFile) (index : Nat) (line : Text)
    (m : TraceMatch) : Prop where
  number : m.line = index + 1
  lineText : m.lineText = Blank.trim line
  method : m.method = Signature.methodAt f.lines index
  pattern : ∃ earlier later, patterns = earlier ++ m.pattern :: later ∧ Occurs m.pattern line ∧
    ∀ q ∈ earlier, ¬ Occurs q line
  rawArgument : m.rawArgument = (Argument.first? line m.pattern).getD []
  resolvedArgument : m.resolvedArgument =
    ((Argument.first? line m.pattern).map (Argument.resolve f.declared)).getD []

variable {patterns : List Text} {u : SourceUnit} {chain : List Text} {f : SourceFile}

/-- A match of a line reports it, and names the class and the chain that led there. -/
theorem matchLine?_reports {index : Nat} {line : Text} {m : TraceMatch}
    (h : matchLine? patterns u chain f index line = some m) :
    Reports patterns f index line m ∧ m.className = u.name ∧ m.module = u.module ∧
      m.chain = chain := by
  unfold matchLine? at h
  cases hfind : patterns.find? (Argument.mentions line) with
  | none => simp [hfind] at h
  | some pattern =>
    simp only [hfind, Option.some.injEq] at h
    subst h
    obtain ⟨hoccurs, earlier, later, hsplit, hearlier⟩ := List.find?_eq_some_iff_append.mp hfind
    refine ⟨⟨rfl, rfl, rfl, ⟨earlier, later, hsplit, Argument.mentions_iff.mp hoccurs, ?_⟩, rfl,
      ?_⟩, rfl, rfl, rfl⟩
    · intro q hq hocc
      simpa [Argument.mentions_iff.mpr hocc] using hearlier q hq
    · cases hfirst : Argument.first? line pattern with
      | none => simp
      | some argument =>
        have hne : argument ≠ [] := by
          rintro rfl
          exact Argument.first?_ne_nil hfirst
        simp [hne]

/-- A line gives a match exactly if a pattern occurs in it. -/
theorem matchLine?_isSome_iff {index : Nat} {line : Text} :
    (∃ m, matchLine? patterns u chain f index line = some m) ↔ ∃ p ∈ patterns, Occurs p line := by
  unfold matchLine?
  cases hfind : patterns.find? (Argument.mentions line) with
  | none =>
    simp only [reduceCtorEq, exists_false, false_iff, not_exists, not_and]
    intro p hp hocc
    exact absurd (Argument.mentions_iff.mpr hocc) (List.find?_eq_none.mp hfind p hp)
  | some pattern =>
    simp only [Option.some.injEq, exists_eq', true_iff]
    exact ⟨pattern, List.mem_of_find?_eq_some hfind,
      Argument.mentions_iff.mp (List.find?_some hfind)⟩

/-- The first of the matches that lines give, one line after the other. -/
private theorem find?_filterMap_zipIdx {look : Nat → Text → Option TraceMatch}
    {p : TraceMatch → Bool} {lines : List Text} {start : Nat} {m : TraceMatch}
    (h : ((lines.zipIdx start).filterMap fun x => look x.2 x.1).find? p = some m) :
    ∃ i line, lines[i]? = some line ∧ look (start + i) line = some m ∧ p m = true ∧
      ∀ j < i, ∀ line' m', lines[j]? = some line' →
        look (start + j) line' = some m' → p m' = false := by
  induction lines generalizing start with
  | nil => simp at h
  | cons line rest ih =>
    rw [List.zipIdx_cons, List.filterMap_cons] at h
    have hlater : ((rest.zipIdx (start + 1)).filterMap fun x => look x.2 x.1).find? p = some m →
        (∀ m', look start line = some m' → p m' = false) → ∃ i line',
          (line :: rest)[i]? = some line' ∧
          look (start + i) line' = some m ∧ p m = true ∧
          ∀ j < i, ∀ line'' m', (line :: rest)[j]? = some line'' →
            look (start + j) line'' = some m' →
            p m' = false := by
      intro hrest hskip
      obtain ⟨i, line', hline', hlook, hp, hbefore⟩ := ih hrest
      refine ⟨i + 1, line', by simpa using hline', by rw [← hlook]; congr 1; omega, hp, ?_⟩
      intro j hj line'' m' hline'' hlook'
      cases j with
      | zero =>
        obtain rfl : line = line'' := by simpa using hline''
        exact hskip m' hlook'
      | succ j =>
        refine hbefore j (by omega) line'' m' (by simpa using hline'') ?_
        rw [← hlook']
        congr 1
        omega
    cases hhere : look start line with
    | none =>
      simp only [hhere] at h
      exact hlater h (by simp [hhere])
    | some m' =>
      simp only [hhere, List.find?_cons] at h
      cases hp : p m' with
      | true =>
        simp only [hp, Option.some.injEq] at h
        subst h
        exact ⟨0, line, rfl, hhere, hp, by simp⟩
      | false =>
        simp only [hp] at h
        refine hlater h ?_
        intro m'' hm''
        rw [hhere] at hm''
        obtain rfl := Option.some.inj hm''
        exact hp

/-- All matches in a file are of its class. -/
theorem className_of_mem_matchesIn {m : TraceMatch} (h : m ∈ matchesIn patterns u chain f) :
    m.className = u.name := by
  obtain ⟨⟨line, index⟩, -, hm⟩ := List.mem_filterMap.mp h
  exact (matchLine?_reports hm).2.1

/-- All matches in a file are of the module of its class. -/
theorem module_of_mem_matchesIn {m : TraceMatch} (h : m ∈ matchesIn patterns u chain f) :
    m.module = u.module := by
  obtain ⟨⟨line, index⟩, -, hm⟩ := List.mem_filterMap.mp h
  exact (matchLine?_reports hm).2.2.1

/-- There is a match in a method exactly if a pattern occurs in one of its lines. -/
theorem exists_match_iff {method : Text} :
    (∃ m ∈ matchesIn patterns u chain f, m.method = method) ↔
      ∃ (i : Nat) (line : Text), f.lines[i]? = some line ∧
        (∃ p ∈ patterns, Occurs p line) ∧ Signature.methodAt f.lines i = method := by
  unfold matchesIn
  constructor
  · rintro ⟨m, hm, rfl⟩
    obtain ⟨⟨line, index⟩, hmem, hmatch⟩ := List.mem_filterMap.mp hm
    refine ⟨index, line, ?_, matchLine?_isSome_iff.mp ⟨m, hmatch⟩,
      (matchLine?_reports hmatch).1.method.symm⟩
    exact List.mem_zipIdx_iff_getElem?.mp hmem
  · rintro ⟨i, line, hline, hpattern, rfl⟩
    obtain ⟨m, hm⟩ := matchLine?_isSome_iff.mpr hpattern
    refine ⟨m, List.mem_filterMap.mpr ⟨(line, i), List.mem_zipIdx_iff_getElem?.mpr hline, hm⟩, ?_⟩
    exact (matchLine?_reports hm).1.method

/-- The first match in a method reports the first line of it in which a pattern occurs. -/
theorem find?_matchesIn {method : Text} {m : TraceMatch}
    (h : (matchesIn patterns u chain f).find? (·.isAt u.name method) = some m) :
    ∃ i line, f.lines[i]? = some line ∧ Reports patterns f i line m ∧ m.method = method ∧
      ∀ j < i, ∀ line', f.lines[j]? = some line' → (∃ p ∈ patterns, Occurs p line') →
        Signature.methodAt f.lines j ≠ method := by
  obtain ⟨i, line, hline, hlook, hat, hbefore⟩ :=
    @find?_filterMap_zipIdx (matchLine? patterns u chain f) _ _ _ _ h
  rw [Nat.zero_add] at hlook
  have hmethod : m.method = method := by
    simp only [TraceMatch.isAt, Bool.and_eq_true, beq_iff_eq] at hat
    exact hat.2
  refine ⟨i, line, hline, (matchLine?_reports hlook).1, hmethod, ?_⟩
  intro j hj line' hline' hpattern hsame
  obtain ⟨m', hm'⟩ := (matchLine?_isSome_iff (u := u) (f := f)).mpr hpattern
  have hnot := hbefore j hj line' m' hline' (by rw [Nat.zero_add]; exact hm')
  obtain ⟨hreports, hclass, -⟩ := matchLine?_reports hm'
  simp [TraceMatch.isAt, hclass, hreports.method, hsame] at hnot

end Trace

end ClassAtlas
