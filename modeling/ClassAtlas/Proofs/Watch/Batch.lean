import ClassAtlas.Watch.Change
import Mathlib.Data.List.Induction
import Mathlib.Data.List.Nodup

namespace ClassAtlas.Watch

variable {batch out : List FileChange} {c d : FileChange}

/-- The change is the last one of its path. -/
def IsLatest (batch : List FileChange) (c : FileChange) : Prop :=
  ∃ before after, batch = before ++ c :: after ∧ ∀ d ∈ after, d.path ≠ c.path

/-- The last change of a path is one of the batch. -/
theorem IsLatest.mem (h : IsLatest batch c) : c ∈ batch := by
  obtain ⟨before, after, rfl, -⟩ := h
  simp

/-- One more change is the last of its path, and leaves those of other paths. -/
theorem isLatest_append_singleton :
    IsLatest (batch ++ [d]) c ↔ c = d ∨ (IsLatest batch c ∧ d.path ≠ c.path) := by
  constructor
  · rintro ⟨before, after, hsplit, hafter⟩
    rcases List.eq_nil_or_concat after with rfl | ⟨after, last, rfl⟩
    · obtain ⟨-, hlast⟩ := List.append_inj' hsplit rfl
      exact .inl (List.cons.inj hlast).1.symm
    · rw [List.concat_eq_append] at hsplit hafter
      rw [← List.cons_append, ← List.append_assoc] at hsplit
      obtain ⟨rfl, hlast⟩ := List.append_inj' hsplit rfl
      obtain ⟨rfl, -⟩ := List.cons.inj hlast
      exact .inr ⟨⟨before, after, rfl, fun e he => hafter e (by simp [he])⟩, hafter d (by simp)⟩
  · rintro (rfl | ⟨⟨before, after, rfl, hafter⟩, hne⟩)
    · exact ⟨batch, [], rfl, by simp⟩
    · refine ⟨before, after ++ [d], by simp, fun e he => ?_⟩
      rcases List.mem_append.mp he with he | he
      · exact hafter e he
      · rwa [List.mem_singleton.mp he]

/-- Every path of a batch has a latest change. -/
theorem exists_isLatest (hc : c ∈ batch) : ∃ d, IsLatest batch d ∧ d.path = c.path := by
  induction batch using List.reverseRecOn with
  | nil => simp at hc
  | append_singleton batch last ih =>
    by_cases hlast : last.path = c.path
    · exact ⟨last, isLatest_append_singleton.mpr (.inl rfl), hlast⟩
    · have hne : c ≠ last := fun heq => hlast (heq ▸ rfl)
      have hmem : c ∈ batch := by simpa [hne] using hc
      obtain ⟨d, hd, hpath⟩ := ih hmem
      exact ⟨d, isLatest_append_singleton.mpr (.inr ⟨hd, hpath ▸ hlast⟩), hpath⟩

/-- A change that is recorded adds its path at the end, unless the path is there. -/
theorem map_path_record (c : FileChange) (out : List FileChange) : (record c out).map (·.path) =
    if c.path ∈ out.map (·.path) then out.map (·.path) else out.map (·.path) ++ [c.path] := by
  fun_induction record c out with
  | case1 => rfl
  | case2 first rest hfirst =>
    have hpath : first.path = c.path := by simpa using hfirst
    simp [hpath]
  | case3 first rest hfirst ih =>
    have hpath : c.path ≠ first.path := Ne.symm (by simpa using hfirst)
    rw [List.map_cons, ih, List.map_cons]
    simp only [List.mem_cons, hpath, false_or]
    split <;> rfl

/-- A change takes the place of the other changes of its path, if these are only one. -/
theorem mem_record (hnodup : (out.map (·.path)).Nodup) :
    d ∈ record c out ↔ d = c ∨ (d ∈ out ∧ c.path ≠ d.path) := by
  fun_induction record c out with
  | case1 => simp
  | case2 first rest hfirst =>
    have hpath : first.path = c.path := by simpa using hfirst
    have hothers : ∀ e ∈ rest, c.path ≠ e.path := by
      intro e he heq
      exact (List.nodup_cons.mp hnodup).1 (List.mem_map.mpr ⟨e, he, (hpath.trans heq).symm⟩)
    rw [List.mem_cons, List.mem_cons]
    refine or_congr_right ⟨fun hd => ⟨.inr hd, hothers d hd⟩, ?_⟩
    rintro ⟨rfl | hd, hne⟩
    · exact absurd hpath.symm hne
    · exact hd
  | case3 first rest hfirst ih =>
    have hpath : c.path ≠ first.path := Ne.symm (by simpa using hfirst)
    rw [List.mem_cons, ih (List.nodup_cons.mp hnodup).2, List.mem_cons, or_left_comm, or_and_right]
    refine or_congr_right (or_congr_left ⟨?_, And.left⟩)
    rintro rfl
    exact ⟨rfl, hpath⟩

/-- One more change is recorded behind the others. -/
theorem dedupe_append_singleton (batch : List FileChange) (c : FileChange) :
    dedupe (batch ++ [c]) = record c (dedupe batch) := by
  simp [dedupe]

/-- No path is left twice. -/
theorem nodup_map_path_dedupe (batch : List FileChange) : ((dedupe batch).map (·.path)).Nodup := by
  induction batch using List.reverseRecOn with
  | nil => exact List.nodup_nil
  | append_singleton batch c ih =>
    rw [dedupe_append_singleton, map_path_record]
    split
    · exact ih
    · next hnew => exact List.nodup_append_comm.mp (List.nodup_cons.mpr ⟨hnew, ih⟩)

/-- What is kept of a batch are the latest changes of its paths. -/
theorem mem_dedupe_iff : c ∈ dedupe batch ↔ IsLatest batch c := by
  induction batch using List.reverseRecOn with
  | nil => simp [dedupe, IsLatest]
  | append_singleton batch d ih =>
    rw [dedupe_append_singleton, mem_record (nodup_map_path_dedupe batch), ih, isLatest_append_singleton]

/-- The change is to a source file. -/
def isSource (extension : Text) (c : FileChange) : Bool := Case.equalFolded (Path.extension c.path) extension

/-- The change takes away what may be a directory. -/
def takesAway (c : FileChange) : Bool :=
  (c.kind == .remove || c.kind == .rename) && (Path.extension c.path).isEmpty

/-- A batch is relevant if it has a change to a source file, or one that may take away a directory. -/
theorem relevant_ne_nil_iff (extension : Text) (batch : List FileChange) : relevant extension batch ≠ [] ↔
    (∃ c ∈ batch, isSource extension c = true) ∨ ∃ c ∈ batch, takesAway c = true := by
  rw [← exists_or, relevant, ne_eq, List.filter_eq_nil_iff]
  simp only [← and_or_left, not_forall, not_not, exists_prop]
  refine exists_congr fun c => and_congr_right fun _ => ?_
  exact Bool.or_eq_true_iff

/-- A source file that changed is still seen to have changed. -/
theorem exists_isSource_dedupe_iff (extension : Text) (batch : List FileChange) :
    (∃ c ∈ dedupe batch, isSource extension c = true) ↔ ∃ c ∈ batch, isSource extension c = true := by
  constructor
  · rintro ⟨c, hc, hsource⟩
    exact ⟨c, (mem_dedupe_iff.mp hc).mem, hsource⟩
  · rintro ⟨c, hc, hsource⟩
    obtain ⟨d, hd, hpath⟩ := exists_isLatest hc
    refine ⟨d, mem_dedupe_iff.mpr hd, ?_⟩
    rwa [isSource, hpath]

/-- What matters among the latest changes mattered before. For whether anything does, it makes no difference that
earlier changes are dropped exactly if a source file changed, or the latest change of some path takes it away, or
nothing was taken away at all. -/
theorem relevant_dedupe_iff (extension : Text) (batch : List FileChange) :
    (relevant extension (dedupe batch) ≠ [] → relevant extension batch ≠ []) ∧
      ((relevant extension (dedupe batch) ≠ [] ↔ relevant extension batch ≠ []) ↔
        (∃ c ∈ batch, isSource extension c = true) ∨ (∃ c, IsLatest batch c ∧ takesAway c = true) ∨
          ∀ c ∈ batch, takesAway c = false) := by
  have hlatest : (∃ c, IsLatest batch c ∧ takesAway c = true) → ∃ c ∈ batch, takesAway c = true :=
    fun h => h.imp fun c hc => ⟨hc.1.mem, hc.2⟩
  have hnone : (∀ c ∈ batch, takesAway c = false) ↔ ¬∃ c ∈ batch, takesAway c = true := by simp
  rw [relevant_ne_nil_iff, relevant_ne_nil_iff, exists_isSource_dedupe_iff, hnone]
  simp only [mem_dedupe_iff]
  refine ⟨Or.imp_right hlatest, ?_⟩
  by_cases hsource : ∃ c ∈ batch, isSource extension c = true
  · exact iff_of_true (iff_of_true (.inl hsource) (.inl hsource)) (.inl hsource)
  · by_cases haway : ∃ c, IsLatest batch c ∧ takesAway c = true
    · exact iff_of_true (iff_of_true (.inr haway) (.inr (hlatest haway))) (.inr (.inl haway))
    · simp only [hsource, haway, false_or, false_iff]

/-- A directory is removed and made again, and the removal is forgotten. -/
theorem relevant_dedupe_recreated :
    let batch : List FileChange := [⟨"/p/order", .remove, 1⟩, ⟨"/p/order", .create, 2⟩]
    relevant ".java" batch = [⟨"/p/order", .remove, 1⟩] ∧ relevant ".java" (dedupe batch) = [] := by
  decide +kernel

end ClassAtlas.Watch
