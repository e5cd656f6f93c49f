import ClassAtlas.Proofs.Trace.Grouping
import ClassAtlas.Proofs.Trace.MatchLog
import Mathlib.Data.List.Induction

namespace ClassAtlas.MatchLog

variable {given : List TraceMatch} {log : MatchLog}

/-- The matches before which no other one of their class and method was given. -/
def firsts (given : List TraceMatch) : List TraceMatch :=
  (given.zipIdx.filter fun p => (given.take p.2).all fun m => m.key != p.1.key).map Prod.fst

/-- One more match comes first if none of its class and method was given before. -/
theorem firsts_append_singleton (given : List TraceMatch) (m : TraceMatch) :
    firsts (given ++ [m]) = firsts given ++ if given.all (·.key != m.key) then [m] else [] := by
  have hold : (given.zipIdx.filter fun p => ((given ++ [m]).take p.2).all fun m' => m'.key != p.1.key) =
      given.zipIdx.filter fun p => (given.take p.2).all fun m' => m'.key != p.1.key := by
    refine List.filter_congr fun p hp => ?_
    have hlt : p.2 < given.length := by simpa using List.snd_lt_of_mem_zipIdx hp
    rw [List.take_append_of_le_length hlt.le]
  rw [firsts, List.zipIdx_append, List.filter_append, hold, List.map_append, firsts]
  congr 1
  rw [List.zipIdx_singleton, List.filter_cons, Nat.zero_add, List.take_left]
  split <;> rfl

/-- For every class and method that was given there is a first match. -/
theorem exists_mem_firsts_iff (given : List TraceMatch) (key : Text × Text) :
    (∃ m ∈ firsts given, m.key = key) ↔ ∃ m ∈ given, m.key = key := by
  induction given using List.reverseRecOn with
  | nil => exact Iff.rfl
  | append_singleton given m ih =>
    rw [firsts_append_singleton]
    simp only [List.mem_append, or_and_right, exists_or, ih, List.mem_singleton, exists_eq_left]
    split
    · simp
    · next hrep =>
      -- the last match is not new, so its key is one of the others
      obtain ⟨m', hm', hkey⟩ : ∃ m' ∈ given, m'.key = m.key := by simpa using hrep
      simp only [List.not_mem_nil, false_and, exists_false, or_false]
      refine ⟨.inl, fun h => h.elim id ?_⟩
      rintro rfl
      exact ⟨m', hm', hkey⟩

/-- There is only one first match for a class and method. -/
theorem nodup_key_firsts (given : List TraceMatch) : ((firsts given).map TraceMatch.key).Nodup := by
  induction given using List.reverseRecOn with
  | nil => exact List.nodup_nil
  | append_singleton given m ih =>
    rw [firsts_append_singleton]
    split
    · next hnew =>
      rw [List.map_append, List.nodup_append_comm, List.map_singleton, List.singleton_append, List.nodup_cons]
      refine ⟨fun hmem => ?_, ih⟩
      obtain ⟨m', hm', hkey⟩ := (exists_mem_firsts_iff given m.key).mp (List.mem_map.mp hmem)
      have hne := List.all_eq_true.mp hnew m' hm'
      simp [hkey] at hne
    · rwa [List.append_nil]

/-- What a log can be asked. -/
inductive Call where
  | add (m : TraceMatch)
  | contains (className method : Text)
  | list
  | group

/-- What a log answers. -/
inductive Answer where
  | added (fresh : Bool)
  | contained (found : Bool)
  | listed (found : List TraceMatch)
  | grouped (groups : List ModuleGroup)

/-- Carries out a call. -/
def Call.perform (log : MatchLog) : Call → MatchLog × Answer
  | .add m => ((log.record m).1, .added (log.record m).2)
  | .contains className method => (log, .contained (log.contains className method))
  | .list => (log, .listed log.entries)
  | .group => (log, .grouped log.groups)

/-- The answers to calls that are made one after the other. -/
def answers : List Call → MatchLog → List Answer
  | [], _ => []
  | call :: rest, log => (call.perform log).2 :: answers rest (call.perform log).1

/-- The match that a call gives to the log, if any. -/
def Call.given? : Call → Option TraceMatch
  | .add m => some m
  | _ => none

/-- The answer is right for the matches given before the call. -/
def Call.Answered (given : List TraceMatch) : Call → Answer → Prop
  | .add m, .added fresh => fresh = true ↔ ∀ m' ∈ given, m'.key ≠ m.key
  | .contains className method, .contained found => found = true ↔ ∃ m ∈ given, m.key = (className, method)
  | .list, .listed found => found = firsts given
  | .group, .grouped groups => Partitions groups (firsts given)
  | _, _ => False

/-- What was given is in the log as far as it came first. -/
def Collects (log : MatchLog) (given : List TraceMatch) : Prop := log.entries = firsts given

/-- The log has seen the classes and methods that were given. -/
theorem Collects.seen_iff (h : log.Collects given) (key : Text × Text) :
    log.seen.contains key = true ↔ ∃ m ∈ given, m.key = key := by
  rw [log.seen_iff, h, exists_mem_firsts_iff]

/-- A match that is recorded counts as given, whether it is kept or not. -/
theorem Collects.record (h : log.Collects given) (m : TraceMatch) : (log.record m).1.Collects (given ++ [m]) := by
  rw [Collects, firsts_append_singleton, MatchLog.record]
  split
  · next hseen =>
    obtain ⟨m', hm', hkey⟩ := (h.seen_iff m.key).mp hseen
    have hrep : ¬given.all (·.key != m.key) = true := by simpa using ⟨m', hm', hkey⟩
    rw [if_neg hrep, List.append_nil]
    exact h
  · next hseen =>
    have hnew : given.all (·.key != m.key) = true := by
      rw [h.seen_iff] at hseen
      simpa using hseen
    rw [if_pos hnew]
    exact congrArg (· ++ [m]) h

/-- A call leaves the log with what was given to it, and only an addition gives it more. -/
theorem Collects.perform (h : log.Collects given) (call : Call) :
    (call.perform log).1.Collects (given ++ call.given?.toList) := by
  have hread : log.Collects (given ++ []) := by rwa [List.append_nil]
  cases call with
  | add m => exact h.record m
  | contains className method => exact hread
  | list => exact hread
  | group => exact hread

/-- A log that has collected what was given answers every call rightly. -/
theorem Collects.answered (h : log.Collects given) (call : Call) :
    call.Answered given (call.perform log).2 := by
  cases call with
  | add m =>
    change (log.record m).2 = true ↔ _
    rw [MatchLog.record]
    split
    · next hseen => simpa using (h.seen_iff m.key).mp hseen
    · next hseen =>
      rw [h.seen_iff] at hseen
      simpa using hseen
  | contains className method => exact h.seen_iff (className, method)
  | list => exact h
  | group =>
    have hpartitions := partitions_groups log (h ▸ nodup_key_firsts given)
    rwa [show log.entries = firsts given from h] at hpartitions

/-- Of calls made one after the other, each is answered rightly for what the calls before it gave. -/
theorem Collects.answers (h : log.Collects given) (before : List Call) (call : Call) (after : List Call) :
    ∃ answer, (answers (before ++ call :: after) log)[before.length]? = some answer ∧
      call.Answered (given ++ before.filterMap Call.given?) answer := by
  induction before generalizing log given with
  | nil =>
    refine ⟨_, rfl, ?_⟩
    rw [List.filterMap_nil, List.append_nil]
    exact h.answered call
  | cons first before ih =>
    obtain ⟨answer, hanswer, hright⟩ := ih (h.perform first)
    refine ⟨answer, hanswer, ?_⟩
    have hgiven : (first :: before).filterMap Call.given? = first.given?.toList ++ before.filterMap Call.given? := by
      rw [List.filterMap_cons]
      cases first.given? <;> rfl
    rwa [hgiven, ← List.append_assoc]

/-- Every answer in a run of calls is right: an addition succeeds for the first match of its class and method and
for no other, a class and method is contained if such a match was given, the list has the first matches in the order
in which they came, and the groups are the same matches by module. Reading in between makes no difference. -/
theorem answers_exact (before : List Call) (call : Call) (after : List Call) :
    ∃ answer, (answers (before ++ call :: after) .empty)[before.length]? = some answer ∧
      call.Answered (before.filterMap Call.given?) answer := by
  have hempty : empty.Collects [] := rfl
  exact hempty.answers before call after

end ClassAtlas.MatchLog
