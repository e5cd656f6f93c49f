import ClassAtlas.Trace.Match

namespace ClassAtlas

/-- A match is at its class and method. -/
theorem TraceMatch.isAt_iff {m : TraceMatch} {className method : Text} :
    m.isAt className method = true ↔ m.className = className ∧ m.method = method := by
  simp [isAt]

namespace MatchLog

/-- The match of a class and method. -/
def find? (log : MatchLog) (className method : Text) : Option TraceMatch :=
  log.entries.find? (·.isAt className method)

/-- Every match is the one that a look-up of its class and method gives. -/
def OnePerMethod (log : MatchLog) : Prop :=
  ∀ m ∈ log.entries, log.find? m.className m.method = some m

/-- A log contains a class and method if one of its matches is there. -/
theorem contains_iff {log : MatchLog} {className method : Text} : log.contains className method = true ↔
    ∃ m ∈ log.entries, m.className = className ∧ m.method = method := by
  rw [contains, log.seen_iff]
  simp only [TraceMatch.key, Prod.mk.injEq]

/-- A match is found exactly where the log contains one. -/
theorem isSome_find? (log : MatchLog) (className method : Text) :
    (log.find? className method).isSome = log.contains className method := by
  rw [Bool.eq_iff_iff, contains_iff, find?, List.find?_isSome]
  simp only [TraceMatch.isAt_iff]

/-- A match of a class and method that the log contains is left out. -/
theorem add_of_contains {log : MatchLog} {m : TraceMatch} (h : log.contains m.className m.method = true) :
    log.add m = log := by
  rw [add, record, if_pos (by exact h)]

/-- Any other match is put behind those of the log. -/
theorem entries_add_of_not_contains {log : MatchLog} {m : TraceMatch}
    (h : ¬log.contains m.className m.method = true) : (log.add m).entries = log.entries ++ [m] := by
  rw [add, record, if_neg (by exact h)]

/-- A new match is found only where none was before. -/
theorem find?_add (log : MatchLog) (m : TraceMatch) (className method : Text) :
    (log.add m).find? className method = (log.find? className method).or
    ([m].find? (·.isAt className method)) := by
  by_cases hcontains : log.contains m.className m.method = true
  · rw [add_of_contains hcontains]
    rw [← isSome_find?] at hcontains
    by_cases hat : m.isAt className method = true
    · obtain ⟨rfl, rfl⟩ := TraceMatch.isAt_iff.mp hat
      rw [Option.or_of_isSome hcontains]
    · simp [hat]
  · rw [find?, entries_add_of_not_contains hcontains, List.find?_append, find?]

/-- What stands in a log goes before what is added, and of this the first counts. -/
theorem find?_foldl_add (log : MatchLog) (found : List TraceMatch) (className method : Text) :
    (found.foldl add log).find? className method =
      (log.find? className method).or (found.find? (·.isAt className method)) := by
  induction found generalizing log with
  | nil => simp
  | cons m rest ih =>
    rw [List.foldl_cons, ih, find?_add, Option.or_assoc]
    change _ = (log.find? className method).or (List.find? _ ([m] ++ rest))
    rw [List.find?_append]

/-- After all matches are added, the log contains their classes and methods and those it had. -/
theorem contains_foldl_add_iff {log : MatchLog} {found : List TraceMatch} {className method : Text} :
    (found.foldl add log).contains className method = true ↔
      log.contains className method = true ∨ ∃ m ∈ found, m.className = className ∧ m.method = method := by
  rw [← isSome_find?, ← isSome_find?, find?_foldl_add, Option.isSome_or, Bool.or_eq_true,
    List.find?_isSome]
  simp only [TraceMatch.isAt_iff]

/-- A match of the log was there or was added. -/
theorem mem_foldl_add {log : MatchLog} {found : List TraceMatch} {m : TraceMatch}
    (h : m ∈ (found.foldl add log).entries) : m ∈ log.entries ∨ m ∈ found := by
  induction found generalizing log with
  | nil => exact .inl h
  | cons first rest ih =>
    rcases ih h with h | h
    · by_cases hcontains : log.contains first.className first.method = true
      · rw [add_of_contains hcontains] at h
        exact .inl h
      · rw [entries_add_of_not_contains hcontains] at h
        rcases List.mem_append.mp h with h | h
        · exact .inl h
        · exact .inr (List.mem_cons.mpr (.inl (List.mem_singleton.mp h)))
    · exact .inr (List.mem_cons_of_mem first h)

/-- Matches that the log contains all change nothing. -/
theorem foldl_add_eq_self {log : MatchLog} {found : List TraceMatch}
    (h : ∀ m ∈ found, log.contains m.className m.method = true) : found.foldl add log = log := by
  induction found with
  | nil => rfl
  | cons first rest ih =>
    rw [List.foldl_cons, add_of_contains (h first List.mem_cons_self)]
    exact ih fun m hm => h m (List.mem_cons_of_mem first hm)

/-- Adding leaves what stands in a log where it is. -/
theorem entries_prefix_foldl_add (log : MatchLog) (found : List TraceMatch) :
    log.entries <+: (found.foldl add log).entries := by
  induction found generalizing log with
  | nil => exact List.prefix_rfl
  | cons first rest ih =>
    have hadd : log.entries <+: (log.add first).entries := by
      by_cases hcontains : log.contains first.className first.method = true
      · simp only [add_of_contains hcontains, List.prefix_rfl]
      · rw [entries_add_of_not_contains hcontains]
        exact List.prefix_append ..
    exact hadd.trans (ih (log.add first))

/-- One more match leaves one for each class and method. -/
theorem OnePerMethod.add {log : MatchLog} (h : log.OnePerMethod) (m : TraceMatch) :
    (log.add m).OnePerMethod := by
  intro m' hm'
  rw [find?_add]
  by_cases hnew : log.contains m.className m.method = true
  · rw [add_of_contains hnew] at hm'
    rw [h m' hm', Option.some_or]
  · rw [entries_add_of_not_contains hnew] at hm'
    rcases List.mem_append.mp hm' with hold | hm'
    · rw [h m' hold, Option.some_or]
    · obtain rfl := List.mem_singleton.mp hm'
      have hnone : log.find? m'.className m'.method = none := by
        rw [← isSome_find?] at hnew
        simpa using hnew
      have hat : m'.isAt m'.className m'.method = true := TraceMatch.isAt_iff.mpr ⟨rfl, rfl⟩
      simp [hnone, hat]

/-- Any number of matches leave one for each class and method. -/
theorem OnePerMethod.foldl_add {log : MatchLog} (h : log.OnePerMethod) (found : List TraceMatch) :
    (found.foldl MatchLog.add log).OnePerMethod := by
  induction found generalizing log with
  | nil => exact h
  | cons m rest ih => exact ih (h.add m)

/-- The empty log has at most one match for each class and method. -/
theorem onePerMethod_empty : OnePerMethod empty := by simp [OnePerMethod, empty]

end MatchLog

end ClassAtlas
