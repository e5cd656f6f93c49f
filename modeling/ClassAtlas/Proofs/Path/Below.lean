import ClassAtlas.Proofs.Path.Relative
import ClassAtlas.Source.ClassName

namespace ClassAtlas

/-- Names are joined with a slash between them. -/
theorem Text.join_slash_cons (first next : Text) (rest : List Text) :
    join [slash] (first :: next :: rest) = first ++ slash :: join [slash] (next :: rest) := by
  simp [join]

namespace Path

variable {root : Text} {names : List Text}

instance : DecidablePred IsName := fun s =>
  inferInstanceAs (Decidable ((s ≠ [] ∧ Text.slash ∉ s) ∧ s ≠ here ∧ s ≠ up))

/-- Joined names are split again. There must be at least one. -/
theorem split_join (hne : names ≠ []) (h : ∀ s ∈ names, IsName s) :
    (Text.join [Text.slash] names).split Text.slash = names := by
  rw [Text.split_eq_splitOn]
  exact List.splitOn_intercalate Text.slash (fun s hs => (h s hs).1.2) hne

/-- The first of some joined names goes up to the first slash. -/
theorem takeWhile_join {first : Text} (hfirst : Text.slash ∉ first) (more : List Text) :
    (Text.join [Text.slash] (first :: more)).takeWhile (· != Text.slash) = first := by
  have hall : ∀ b ∈ first, (b != Text.slash) = true := by
    intro b hb
    have hne : b ≠ Text.slash := fun heq => hfirst (heq ▸ hb)
    simpa using hne
  cases more with
  | nil =>
    have hself : (first ++ []).takeWhile (· != Text.slash) = first ++ [].takeWhile (· != Text.slash) :=
      List.takeWhile_append_of_pos hall
    simpa [Text.join] using hself
  | cons next rest =>
    rw [Text.join_slash_cons, List.takeWhile_append_of_pos hall]
    simp

/-- Names behind a path are its last segments. -/
theorem segments_join_cons (root : Text) (h : ∀ s ∈ names, IsName s) :
    segments (Text.join [Text.slash] (root :: names)) = segments root ++ names := by
  cases names with
  | nil => simp [Text.join]
  | cons next rest =>
    rw [Text.join_slash_cons, segments_append_slash, segments_join fun s hs => (h s hs).1]

/-- An absolute path with names behind it is written with its segments cleaned and the names as they
are. -/
theorem join_names (hroot : isAbsolute root = true) (h : ∀ s ∈ names, IsName s) :
    join (root :: names) = Text.slash :: Text.join [Text.slash] (cleanSegments root ++ names) := by
  obtain ⟨rest, hrest⟩ := isAbsolute_iff.mp hroot
  have hfilter : names.filter (!·.isEmpty) = names := by
    rw [List.filter_eq_self]
    intro s hs
    simpa using (h s hs).1.1
  have hjoin : join (root :: names) = clean (Text.join [Text.slash] (root :: names)) := by
    simp [join, hrest, hfilter]
  have habsolute : isAbsolute (Text.join [Text.slash] (root :: names)) = true := by
    rw [hrest]
    cases names <;> rfl
  rw [hjoin, clean_of_isAbsolute habsolute, cleanSegments, habsolute, segments_join_cons root h,
    List.foldl_append, foldl_push_names h, List.reverse_append, List.reverse_reverse, cleanSegments,
    hroot]

/-- The segments of a clean absolute path and the names behind it are all names. -/
theorem isName_of_mem_append (hroot : isAbsolute root = true) (h : ∀ s ∈ names, IsName s) :
    ∀ s ∈ cleanSegments root ++ names, IsName s := by
  intro s hs
  rcases List.mem_append.mp hs with hmem | hmem
  · exact isName_of_mem_cleanSegments hroot s hmem
  · exact h s hmem

/-- The segments of the path with names behind it are those of the clean path and the names. -/
theorem segments_join_names (hroot : isAbsolute root = true) (h : ∀ s ∈ names, IsName s) :
    segments (join (root :: names)) = cleanSegments root ++ names := by
  rw [join_names hroot h, segments_slash]
  exact segments_join fun s hs => (isName_of_mem_append hroot h s hs).1

/-- The last name is the base of the path. -/
theorem base_join_names (hroot : isAbsolute root = true) {dir : List Text} {name : Text}
    (h : ∀ s ∈ dir ++ [name], IsName s) : base (join (root :: (dir ++ [name]))) = name := by
  have hne : (join (root :: (dir ++ [name]))).isEmpty = false := by
    rw [join_names hroot h]
    rfl
  have hlast : (cleanSegments root ++ (dir ++ [name])).getLast? = some name := by
    rw [← List.append_assoc, List.getLast?_concat]
  simp only [base, hne, segments_join_names hroot h, hlast, Bool.false_eq_true, if_false]

/-- A list has nothing behind what it shares with its continuation. -/
theorem dropCommon_append (as bs : List Text) : dropCommon as (as ++ bs) = ([], bs) := by
  induction as with
  | nil => cases bs <;> rfl
  | cons a as ih => simpa [dropCommon] using ih

/-- From the root, the way to an entry below it is its names. -/
theorem relative?_join_names (hroot : isAbsolute root = true) (hne : names ≠ [])
    (h : ∀ s ∈ names, IsName s) :
    relative? root (join (root :: names)) = some (Text.join [Text.slash] names) := by
  have hclean := isClean_join hroot names
  have hsegments : segments (clean root) = cleanSegments root := segments_clean hroot
  have hdiffer : clean root ≠ join (root :: names) := by
    intro heq
    have hlength := congrArg (List.length ∘ segments) heq
    simp only [Function.comp, hsegments, segments_join_names hroot h, List.length_append] at hlength
    exact hne (List.eq_nil_of_length_eq_zero (by omega))
  have hhere : clean root ≠ here := by
    intro heq
    have habsolute := isAbsolute_clean hroot
    rw [heq] at habsolute
    contradiction
  simp only [relative?, hclean.2, beq_eq_false_iff_ne.mpr hdiffer, beq_eq_false_iff_ne.mpr hhere,
    isAbsolute_clean hroot, hclean.1, hsegments, segments_join_names hroot h, dropCommon_append,
    bne_self_eq_false, Bool.false_eq_true, if_false, if_true]
  rfl

end Path

/-- The module of an entry is the first of the names that lead to it. -/
theorem Module.ofPath_join_names {root first : Text} {more : List Text}
    (hroot : Path.isAbsolute root = true) (h : ∀ s ∈ first :: more, Path.IsName s) :
    ofPath root (Path.join (root :: first :: more)) = first := by
  have hfirst : Path.IsName first := h first List.mem_cons_self
  have htake := Path.takeWhile_join hfirst.1.2 more
  generalize hway : Text.join [Text.slash] (first :: more) = way at htake
  have hhere : way ≠ Path.here := by
    rintro rfl
    exact hfirst.2.1 htake.symm
  have hempty : way ≠ [] := by
    rintro rfl
    exact hfirst.1.1 htake.symm
  have hup : way ≠ Path.up := by
    rintro rfl
    exact hfirst.2.2 htake.symm
  have hleave : Text.startsWith way "../" = false := by
    cases hstart : Text.startsWith way "../" with
    | false => rfl
    | true =>
      obtain ⟨rest, rfl⟩ := List.isPrefixOf_iff_prefix.mp hstart
      exact absurd htake.symm hfirst.2.2
  rw [ofPath, Path.relative?_join_names hroot (List.cons_ne_nil first more) h, hway]
  simp [hhere, hempty, hup, hleave, htake, hfirst.1.1]

end ClassAtlas
