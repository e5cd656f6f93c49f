import ClassAtlas.Path
import Mathlib.Data.List.Basic

namespace ClassAtlas

/-- The pieces are those that the library finds. -/
theorem Text.split_eq_splitOn (t : Text) (sep : UInt8) : t.split sep = t.splitOn sep := by
  induction t with
  | nil => rfl
  | cons b rest ih =>
    have hne : Text.split rest sep ≠ [] := by
      rw [ih]
      exact List.splitOn_ne_nil sep rest
    rw [List.splitOn_cons_eq_if_modifyHead, ← ih]
    unfold Text.split at hne ⊢
    rw [List.foldr_cons]
    split
    · rfl
    · cases hpieces : rest.foldr _ _ with
      | nil => exact absurd hpieces hne
      | cons piece more => rfl

/-- No piece has the byte at which the text was split. -/
theorem Text.not_mem_of_mem_split {t piece : Text} {sep : UInt8} (h : piece ∈ t.split sep) : sep ∉ piece := by
  rw [split_eq_splitOn] at h
  induction t generalizing piece with
  | nil =>
    obtain rfl : piece = [] := by simpa using h
    exact List.not_mem_nil
  | cons b rest ih =>
    rw [List.splitOn_cons_eq_if_modifyHead] at h
    split at h
    · rcases List.mem_cons.mp h with rfl | hmem
      · exact List.not_mem_nil
      · exact ih hmem
    · next hb =>
      cases hpieces : rest.splitOn sep with
      | nil => exact absurd hpieces (List.splitOn_ne_nil sep rest)
      | cons first more =>
        rw [hpieces] at h ih
        rcases List.mem_cons.mp h with rfl | hmem
        · have hfirst := ih List.mem_cons_self
          simp only [List.mem_cons, not_or]
          exact ⟨fun heq => hb (beq_iff_eq.mpr heq.symm), hfirst⟩
        · exact ih (List.mem_cons_of_mem _ hmem)

namespace Path

variable {p root target rel : Text}

/-- A text that can stand between two slashes. -/
def IsSegment (s : Text) : Prop := s ≠ [] ∧ Text.slash ∉ s

/-- A segment that names an entry and neither stays nor goes up. -/
def IsName (s : Text) : Prop := IsSegment s ∧ s ≠ here ∧ s ≠ up

/-- A path is absolute if it starts with a slash. -/
theorem isAbsolute_iff : isAbsolute p = true ↔ ∃ rest, p = Text.slash :: rest := by
  constructor
  · intro h
    unfold isAbsolute at h
    split at h
    · exact ⟨_, rfl⟩
    · contradiction
  · rintro ⟨rest, rfl⟩
    rfl

/-- The step up can stand between slashes. -/
theorem isSegment_up : IsSegment up := ⟨by decide, by decide⟩

/-- The segments of a path are texts that can stand between slashes. -/
theorem isSegment_of_mem_segments {s : Text} (h : s ∈ segments p) : IsSegment s := by
  obtain ⟨hmem, hne⟩ := List.mem_filter.mp h
  exact ⟨by simpa using hne, Text.not_mem_of_mem_split hmem⟩

/-- A slash parts the segments before it from those behind it. -/
theorem segments_append_slash (a b : Text) :
    segments (a ++ Text.slash :: b) = segments a ++ segments b := by
  simp only [segments, Text.split_eq_splitOn, List.splitOn_append_cons_self, List.filter_append]

/-- A slash at the start makes no segment. -/
theorem segments_slash (a : Text) : segments (Text.slash :: a) = segments a :=
  segments_append_slash [] a

/-- Joined segments are found again in the path that they make. -/
theorem segments_join {parts : List Text} (h : ∀ s ∈ parts, IsSegment s) :
    segments (Text.join [Text.slash] parts) = parts := by
  by_cases hempty : parts = []
  · rw [hempty]
    rfl
  · have hsplit := List.splitOn_intercalate Text.slash (fun s hs => (h s hs).2) hempty
    rw [segments, Text.split_eq_splitOn]
    change (List.splitOn Text.slash ([Text.slash].intercalate parts)).filter _ = parts
    rw [hsplit, List.filter_eq_self]
    intro s hs
    simpa using (h s hs).1

/-- On an absolute path a segment leaves only names on the stack. -/
theorem isName_of_mem_push {stack : List Text} {segment s : Text} (hstack : ∀ s ∈ stack, IsName s)
    (hsegment : IsSegment segment) (hs : s ∈ push true stack segment) : IsName s := by
  unfold push at hs
  split at hs
  · exact hstack s hs
  · next hhere =>
    split at hs
    · cases stack with
      | nil => simp at hs
      | cons last lower =>
        have hlast : (last == up) = false := beq_eq_false_iff_ne.mpr (hstack last List.mem_cons_self).2.2
        simp only [hlast, Bool.false_eq_true, if_false] at hs
        exact hstack s (List.mem_cons_of_mem _ hs)
    · next hup =>
      rcases List.mem_cons.mp hs with rfl | hmem
      · exact ⟨hsegment, by simpa using hhere, by simpa using hup⟩
      · exact hstack s hmem

/-- On an absolute path all segments leave only names on the stack. -/
theorem isName_of_mem_foldl_push {segs stack : List Text} (hstack : ∀ s ∈ stack, IsName s)
    (hsegs : ∀ s ∈ segs, IsSegment s) : ∀ s ∈ segs.foldl (push true) stack, IsName s := by
  induction segs generalizing stack with
  | nil => exact hstack
  | cons segment rest ih =>
    rw [List.forall_mem_cons] at hsegs
    exact ih (fun s hs => isName_of_mem_push hstack hsegs.1 hs) hsegs.2

/-- The cleaned segments of an absolute path are names. -/
theorem isName_of_mem_cleanSegments (hp : isAbsolute p = true) : ∀ s ∈ cleanSegments p, IsName s := by
  intro s hs
  rw [cleanSegments, hp, List.mem_reverse] at hs
  apply isName_of_mem_foldl_push _ (fun _ => isSegment_of_mem_segments) s hs
  simp

/-- Names are put on the stack as they are. -/
theorem foldl_push_names {rooted : Bool} {names stack : List Text} (h : ∀ s ∈ names, IsName s) :
    names.foldl (push rooted) stack = names.reverse ++ stack := by
  induction names generalizing stack with
  | nil => rfl
  | cons name rest ih =>
    rw [List.forall_mem_cons] at h
    have hpush : push rooted stack name = name :: stack := by
      simp [push, h.1.2.1, h.1.2.2]
    rw [List.foldl_cons, hpush, ih h.2, List.reverse_cons, List.append_assoc, List.singleton_append]

/-- As many steps up as there are names on the stack take them off again. -/
theorem foldl_push_ups {names stack : List Text} (h : ∀ s ∈ names, IsName s) :
    (names.map fun _ => up).foldl (push true) (names ++ stack) = stack := by
  induction names with
  | nil => rfl
  | cons name rest ih =>
    rw [List.forall_mem_cons] at h
    have hpush : push true (name :: (rest ++ stack)) up = rest ++ stack := by
      have hup : (up == here) = false := by decide
      simp [push, hup, h.1.2.2]
    rw [List.map_cons, List.foldl_cons, List.cons_append, hpush, ih h.2]

/-- A cleaned absolute path is made of its cleaned segments. -/
theorem clean_of_isAbsolute (hp : isAbsolute p = true) :
    clean p = Text.slash :: Text.join [Text.slash] (cleanSegments p) := by
  rw [clean, hp]
  rfl

/-- An absolute path stays absolute when it is cleaned. -/
theorem isAbsolute_clean (hp : isAbsolute p = true) : isAbsolute (clean p) = true := by
  rw [clean_of_isAbsolute hp]
  rfl

/-- The segments of a cleaned absolute path are its cleaned segments. -/
theorem segments_clean (hp : isAbsolute p = true) : segments (clean p) = cleanSegments p := by
  rw [clean_of_isAbsolute hp, segments_slash]
  exact segments_join fun s hs => (isName_of_mem_cleanSegments hp s hs).1

/-- Cleaning an absolute path twice is cleaning it once. -/
theorem clean_clean (hp : isAbsolute p = true) : clean (clean p) = clean p := by
  have hsame : cleanSegments (clean p) = cleanSegments p := by
    rw [cleanSegments, segments_clean hp, isAbsolute_clean hp,
      foldl_push_names (isName_of_mem_cleanSegments hp), List.append_nil, List.reverse_reverse]
  rw [clean_of_isAbsolute (isAbsolute_clean hp), hsame, clean_of_isAbsolute hp]

/-- What stands behind an absolute path is followed from there. -/
theorem join_of_isAbsolute (hroot : isAbsolute root = true) (rel : Text) :
    join [root, rel] = Text.slash :: Text.join [Text.slash]
      ((segments rel).foldl (push true) (cleanSegments root).reverse).reverse := by
  obtain ⟨rest, hrest⟩ := isAbsolute_iff.mp hroot
  have hne : root ≠ [] := by simp [hrest]
  by_cases hrel : rel = []
  · have hjoin : join [root, rel] = clean root := by simp [join, hne, hrel, Text.join]
    rw [hjoin, hrel, clean_of_isAbsolute hroot]
    simp [segments, Text.split]
  · have hjoin : join [root, rel] = clean (root ++ Text.slash :: rel) := by
      simp [join, hne, hrel, Text.join]
    have habsolute : isAbsolute (root ++ Text.slash :: rel) = true :=
      isAbsolute_iff.mpr ⟨rest ++ Text.slash :: rel, by rw [hrest, List.cons_append]⟩
    rw [hjoin, clean_of_isAbsolute habsolute, cleanSegments, habsolute, segments_append_slash,
      List.foldl_append, cleanSegments, hroot, List.reverse_reverse]

/-- An absolute path in its shortest form. -/
def IsClean (p : Text) : Prop := isAbsolute p = true ∧ clean p = p

/-- A cleaned absolute path is clean. -/
theorem isClean_clean (hp : isAbsolute p = true) : IsClean (clean p) :=
  ⟨isAbsolute_clean hp, clean_clean hp⟩

/-- What is joined to an absolute path is clean, whatever the parts are. -/
theorem isClean_join (hroot : isAbsolute root = true) (parts : List Text) :
    IsClean (join (root :: parts)) := by
  obtain ⟨rest, hrest⟩ := isAbsolute_iff.mp hroot
  have hjoin : join (root :: parts) =
      clean (Text.join [Text.slash] (root :: parts.filter (!·.isEmpty))) := by
    simp [join, hrest]
  rw [hjoin]
  apply isClean_clean
  apply isAbsolute_iff.mpr
  cases parts.filter (!·.isEmpty) with
  | nil => exact ⟨rest, by simp [Text.join, hrest]⟩
  | cons next more => exact ⟨_, by rw [hrest]; rfl⟩

/-- Seen from an absolute working directory every path becomes clean. -/
theorem isClean_absolute {workdir : Text} (hwork : isAbsolute workdir = true) (p : Text) :
    IsClean (absolute workdir p) := by
  unfold absolute
  split
  · next hp => exact isClean_clean hp
  · exact isClean_join hwork [p]

/-- What is dropped from two lists is a common beginning of them. -/
theorem exists_of_dropCommon_eq {as bs above below : List Text} (h : dropCommon as bs = (above, below)) :
    ∃ common, as = common ++ above ∧ bs = common ++ below := by
  fun_induction dropCommon as bs with
  | case1 a as b bs heq ih =>
    obtain ⟨common, has, hbs⟩ := ih h
    exact ⟨a :: common, by rw [has, List.cons_append], by rw [hbs, eq_of_beq heq, List.cons_append]⟩
  | case2 a as b bs hne =>
    obtain ⟨rfl, rfl⟩ := Prod.mk.inj h
    exact ⟨[], rfl, rfl⟩
  | case3 as bs hnone =>
    obtain ⟨rfl, rfl⟩ := Prod.mk.inj h
    exact ⟨[], rfl, rfl⟩

/-- Between absolute paths, the way leads up from what the target does not share, and then down. -/
theorem relative?_of_isAbsolute (hroot : isAbsolute root = true) (htarget : isAbsolute target = true) :
    (clean root = clean target ∧ relative? root target = some here) ∨
      ∃ common above below, cleanSegments root = common ++ above ∧
        cleanSegments target = common ++ below ∧
        relative? root target =
          some (Text.join [Text.slash] (above.map (fun _ => up) ++ below)) := by
  by_cases hsame : clean root = clean target
  · exact Or.inl ⟨hsame, by simp [relative?, hsame]⟩
  have hhere : clean root ≠ here := by
    intro heq
    have habsolute := isAbsolute_clean hroot
    rw [heq] at habsolute
    contradiction
  cases hdrop : dropCommon (cleanSegments root) (cleanSegments target) with
  | mk above below =>
    obtain ⟨common, habove, hbelow⟩ := exists_of_dropCommon_eq hdrop
    refine Or.inr ⟨common, above, below, habove, hbelow, ?_⟩
    have hsegments : (if clean root == here then [] else segments (clean root)) = cleanSegments root := by
      rw [if_neg (by simpa using hhere), segments_clean hroot]
    simp only [relative?, beq_eq_false_iff_ne.mpr hsame, isAbsolute_clean hroot,
      isAbsolute_clean htarget, segments_clean htarget, hsegments, hdrop, bne_self_eq_false,
      Bool.false_eq_true, if_false, if_true]
    -- the root is left through its own names, so the way up is known
    cases above with
    | nil => rfl
    | cons first more =>
      have hfirst : IsName first :=
        isName_of_mem_cleanSegments hroot first (habove ▸ List.mem_append_right _ List.mem_cons_self)
      cases below with
      | nil => rfl
      | cons next rest => simp [hfirst.2.2]

/-- The path from an absolute root leads back to where it came from. -/
theorem join_relative (hroot : isAbsolute root = true) (htarget : isAbsolute target = true)
    (h : relative? root target = some rel) : join [root, rel] = clean target := by
  rw [join_of_isAbsolute hroot]
  obtain ⟨hsame, hrel⟩ | ⟨common, above, below, habove, hbelow, hrel⟩ :=
    relative?_of_isAbsolute hroot htarget
  · obtain rfl := Option.some.inj (hrel.symm.trans h)
    have hstay : (segments here).foldl (push true) (cleanSegments root).reverse =
        (cleanSegments root).reverse := rfl
    rw [hstay, List.reverse_reverse, ← clean_of_isAbsolute hroot, hsame]
  · obtain rfl := Option.some.inj (hrel.symm.trans h)
    have habove' : ∀ s ∈ above.reverse, IsName s := fun s hs =>
      isName_of_mem_cleanSegments hroot s (habove ▸ List.mem_append_right _ (List.mem_reverse.mp hs))
    have hbelow' : ∀ s ∈ below, IsName s := fun s hs =>
      isName_of_mem_cleanSegments htarget s (hbelow ▸ List.mem_append_right _ hs)
    have hparts : ∀ s ∈ above.map (fun _ => up) ++ below, IsSegment s := by
      intro s hs
      rcases List.mem_append.mp hs with hmem | hmem
      · obtain ⟨-, -, rfl⟩ := List.mem_map.mp hmem
        exact isSegment_up
      · exact (hbelow' s hmem).1
    have hups : above.map (fun _ => up) = above.reverse.map fun _ => up := by simp
    calc Text.slash :: Text.join [Text.slash] ((segments (Text.join [Text.slash]
          (above.map (fun _ => up) ++ below))).foldl (push true) (cleanSegments root).reverse).reverse
      _ = Text.slash :: Text.join [Text.slash] (below.foldl (push true) common.reverse).reverse := by
        rw [segments_join hparts, List.foldl_append, habove, List.reverse_append, hups,
          foldl_push_ups habove']
      _ = Text.slash :: Text.join [Text.slash] (cleanSegments target) := by
        rw [foldl_push_names hbelow', List.reverse_append, List.reverse_reverse,
          List.reverse_reverse, hbelow]
      _ = clean target := (clean_of_isAbsolute htarget).symm

/-- The way from one absolute path to another one is never empty. -/
theorem relative_ne_nil (hroot : isAbsolute root = true) (htarget : isAbsolute target = true)
    (h : relative? root target = some rel) : rel ≠ [] := by
  rintro rfl
  -- the empty way leads from the root to itself, and that way is written as a dot
  have hsame : clean root = clean target := by
    rw [← join_relative hroot htarget h, join_of_isAbsolute hroot]
    simp [segments, Text.split, clean_of_isAbsolute hroot]
  have hhere : relative? root target = some here := by simp [relative?, hsame]
  have hempty : here = [] := Option.some.inj (hhere.symm.trans h)
  contradiction

end Path

end ClassAtlas
