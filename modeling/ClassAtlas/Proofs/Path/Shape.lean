import ClassAtlas.Proofs.Path.Below
import ClassAtlas.Text.Blank

namespace ClassAtlas

/-- Pieces between slashes are joined to the text that they come from. -/
theorem Text.join_split (t : Text) : join [slash] (t.split slash) = t := by
  rw [split_eq_splitOn]
  exact List.intercalate_splitOn slash

/-- A text without a slash is one piece. -/
theorem Text.split_of_notMem {t : Text} (h : slash ∉ t) : t.split slash = [t] := by
  have hall : ∀ part ∈ [t], slash ∉ part := by simpa using h
  rw [split_eq_splitOn]
  simpa using List.splitOn_intercalate slash hall (List.cons_ne_nil t [])

/-- The pieces before a slash and those behind it are split apart. -/
theorem Text.split_append (front rest : Text) :
    (front ++ slash :: rest).split slash = front.split slash ++ rest.split slash := by
  rw [split_eq_splitOn, split_eq_splitOn, split_eq_splitOn, List.splitOn_append_cons_self]

/-- What comes before the first slash is the first piece. -/
theorem Text.split_append_slash {first : Text} (hfirst : slash ∉ first) (rest : Text) :
    (first ++ slash :: rest).split slash = first :: rest.split slash := by
  rw [split_append, split_of_notMem hfirst]
  rfl

/-- Two lists of pieces are joined with one more slash between them, as long as neither is empty. -/
theorem Text.join_append {as bs : List Text} (has : as ≠ []) (hbs : bs ≠ []) :
    join [slash] (as ++ bs) = join [slash] as ++ slash :: join [slash] bs := by
  obtain ⟨b, bs, rfl⟩ := List.exists_cons_of_ne_nil hbs
  induction as with
  | nil => contradiction
  | cons a as ih =>
    cases as with
    | nil => simp [join]
    | cons next rest =>
      have hrest := ih (List.cons_ne_nil next rest)
      rw [List.cons_append] at hrest
      rw [List.cons_append, List.cons_append, join_slash_cons, join_slash_cons, hrest, List.append_assoc,
        List.cons_append]

namespace Blank

/-- Blanks at the start have no slash, so none is lost with them. -/
theorem slash_mem_trimStart {t : Text} (h : Text.slash ∈ t) : Text.slash ∈ trimStart t := by
  fun_induction trimStart t with
  | case2 a r0 hsingle ih => grind [isSingle, Text.slash]
  | case4 a hsingle b r1 hdouble ih => grind [isDouble, Text.slash]
  | case6 a hsingle b hdouble c r2 htriple ih => grind [isTriple, Text.slash]
  | case1 | case3 | case5 | case7 => exact h

/-- Blanks at the end have no slash, so none is lost with them. -/
theorem slash_mem_trimBack {t : Text} (h : Text.slash ∈ t) : Text.slash ∈ trimBack t := by
  fun_induction trimBack t with
  | case2 a r0 hsingle ih => grind [isSingle, Text.slash]
  | case4 a hsingle b r1 hdouble ih => grind [isDouble, Text.slash]
  | case6 a hsingle b hdouble c r2 htriple ih => grind [isTriple, Text.slash]
  | case1 | case3 | case5 | case7 => exact h

/-- A slash survives the trimming of blanks. -/
theorem slash_mem_trim {t : Text} (h : Text.slash ∈ t) : Text.slash ∈ trim t := by
  rw [trim, trimEnd, List.mem_reverse]
  exact slash_mem_trimBack (List.mem_reverse.mpr (slash_mem_trimStart h))

end Blank

namespace Path

variable {p : Text} {stack names : List Text}

/-- What starts with a segment is no absolute path. -/
theorem isAbsolute_append {s : Text} (hs : IsSegment s) (rest : Text) : isAbsolute (s ++ rest) = false := by
  obtain ⟨b, more, rfl⟩ := List.exists_cons_of_ne_nil hs.1
  have hb : b ≠ Text.slash := fun heq => hs.2 (heq ▸ List.mem_cons_self)
  rw [Bool.eq_false_iff]
  intro habsolute
  obtain ⟨_, heq⟩ := isAbsolute_iff.mp habsolute
  exact hb (List.cons.inj heq).1

/-- What starts with joined segments is no absolute path, whatever follows. -/
theorem isAbsolute_join_append {first : Text} (hfirst : IsSegment first) (more : List Text) (rest : Text) :
    isAbsolute (Text.join [Text.slash] (first :: more) ++ rest) = false := by
  cases more with
  | nil =>
    have hself := isAbsolute_append hfirst rest
    simpa [Text.join] using hself
  | cons next others =>
    rw [Text.join_slash_cons, List.append_assoc]
    exact isAbsolute_append hfirst _

/-- An absolute path is not blank. -/
theorem isEmpty_trim (hp : isAbsolute p = true) : (Blank.trim p).isEmpty = false := by
  obtain ⟨rest, rfl⟩ := isAbsolute_iff.mp hp
  rw [List.isEmpty_eq_false_iff]
  apply List.ne_nil_of_mem
  exact Blank.slash_mem_trim List.mem_cons_self

namespace IsClean

/-- Cleaning the segments of a clean path changes nothing. -/
theorem cleanSegments_eq (h : IsClean p) : cleanSegments p = segments p := by
  rw [← segments_clean h.1, h.2]

/-- All segments of a clean path are names. -/
theorem isName (h : IsClean p) : ∀ s ∈ segments p, IsName s := by
  rw [← h.cleanSegments_eq]
  exact isName_of_mem_cleanSegments h.1

/-- A clean path is made of its segments. -/
theorem eq_slash_join (h : IsClean p) : p = Text.slash :: Text.join [Text.slash] (segments p) := by
  rw [← h.cleanSegments_eq, ← clean_of_isAbsolute h.1, h.2]

/-- The only clean path without segments is that of the whole disk. -/
theorem segments_eq_nil_iff (h : IsClean p) : segments p = [] ↔ p = [Text.slash] := by
  constructor
  · intro hnil
    rw [h.eq_slash_join, hnil]
    rfl
  · rintro rfl
    rfl

/-- A clean path does not start with two slashes. -/
theorem ne_slash_slash (h : IsClean p) (rest : Text) : p ≠ Text.slash :: Text.slash :: rest := by
  intro heq
  have hjoin : Text.slash :: rest = Text.join [Text.slash] (segments p) :=
    (List.cons.inj (heq.symm.trans h.eq_slash_join)).2
  cases hnames : segments p with
  | nil =>
    rw [hnames] at hjoin
    contradiction
  | cons first more =>
    have hfirst : IsName first := h.isName first (hnames ▸ List.mem_cons_self)
    have hrelative := isAbsolute_join_append hfirst.1 more []
    rw [List.append_nil, ← hnames, ← hjoin] at hrelative
    contradiction

end IsClean

/-- Names on top of steps up, as they lie on the stack while a relative path is cleaned. -/
def Climbs (stack : List Text) : Prop :=
  ∃ names n, stack = names ++ List.replicate n up ∧ ∀ s ∈ names, IsName s

/-- One more segment leaves names on top of steps up. -/
theorem Climbs.push (h : Climbs stack) {s : Text} (hs : IsSegment s) : Climbs (push false stack s) := by
  obtain ⟨names, n, rfl, hnames⟩ := h
  unfold Path.push
  split
  · exact ⟨names, n, rfl, hnames⟩
  · next hhere =>
    split
    · cases names with
      | nil =>
        -- no name is left to go back on, so the step up stays
        refine ⟨[], n + 1, ?_, by simp⟩
        cases n with
        | zero => rfl
        | succ n => simp [List.replicate_succ]
      | cons last lower =>
        rw [List.forall_mem_cons] at hnames
        exact ⟨lower, n, by simp [hnames.1.2.2], hnames.2⟩
    · next hup =>
      refine ⟨s :: names, n, rfl, ?_⟩
      rw [List.forall_mem_cons]
      exact ⟨⟨hs, by simpa using hhere, by simpa using hup⟩, hnames⟩

/-- All segments of a relative path lead to names on top of steps up. -/
theorem Climbs.foldl_push {segs : List Text} (h : Climbs stack) (hsegs : ∀ s ∈ segs, IsSegment s) :
    Climbs (segs.foldl (Path.push false) stack) := by
  induction segs generalizing stack with
  | nil => exact h
  | cons s rest ih =>
    rw [List.forall_mem_cons] at hsegs
    exact ih (h.push hsegs.1) hsegs.2

/-- What is left of a relative path after cleaning: steps up, and then names. -/
theorem exists_cleanSegments_eq (hp : isAbsolute p = false) :
    ∃ n names, cleanSegments p = List.replicate n up ++ names ∧ ∀ s ∈ names, IsName s := by
  have hstart : Climbs [] := ⟨[], 0, rfl, by simp⟩
  obtain ⟨names, n, hstack, hnames⟩ := hstart.foldl_push fun s (hs : s ∈ segments p) =>
    isSegment_of_mem_segments hs
  refine ⟨n, names.reverse, ?_, by simpa using hnames⟩
  rw [cleanSegments, hp, hstack, List.reverse_append, List.reverse_replicate]

/-- Cleaning makes no text that cannot stand between slashes. -/
theorem isSegment_of_mem_cleanSegments {s : Text} (hs : s ∈ cleanSegments p) : IsSegment s := by
  cases hp : isAbsolute p with
  | true => exact (isName_of_mem_cleanSegments hp s hs).1
  | false =>
    obtain ⟨n, names, heq, hnames⟩ := exists_cleanSegments_eq hp
    rw [heq] at hs
    rcases List.mem_append.mp hs with hmem | hmem
    · rw [List.eq_of_mem_replicate hmem]
      exact isSegment_up
    · exact (hnames s hmem).1

/-- A relative path becomes a dot or its segments. -/
theorem clean_relative (hp : isAbsolute p = false) :
    clean p = here ∨ cleanSegments p ≠ [] ∧ clean p = Text.join [Text.slash] (cleanSegments p) := by
  rw [clean, hp, ofSegments]
  cases cleanSegments p with
  | nil => exact Or.inl rfl
  | cons first more => exact Or.inr ⟨List.cons_ne_nil first more, rfl⟩

/-- Cleaned segments are found again in the path that they make, absolute or not. -/
theorem split_join_cleanSegments (hne : cleanSegments p ≠ []) :
    (Text.join [Text.slash] (cleanSegments p)).split Text.slash = cleanSegments p := by
  rw [Text.split_eq_splitOn]
  exact List.splitOn_intercalate Text.slash (fun s hs => (isSegment_of_mem_cleanSegments hs).2) hne

/-- A relative path stays relative when it is cleaned, whatever follows it. -/
theorem isAbsolute_clean_append (hp : isAbsolute p = false) (rest : Text) :
    isAbsolute (clean p ++ rest) = false := by
  rcases clean_relative hp with hhere | ⟨hne, hjoin⟩
  · rw [hhere]
    rfl
  · obtain ⟨first, more, heq⟩ := List.exists_cons_of_ne_nil hne
    have hfirst : first ∈ cleanSegments p := heq ▸ List.mem_cons_self
    rw [hjoin, heq]
    exact isAbsolute_join_append (isSegment_of_mem_cleanSegments hfirst) more rest

/-- A path of names is clean, even a relative one. -/
theorem clean_join_of_names (hne : names ≠ []) (h : ∀ s ∈ names, IsName s) :
    clean (Text.join [Text.slash] names) = Text.join [Text.slash] names := by
  obtain ⟨first, more, rfl⟩ := List.exists_cons_of_ne_nil hne
  have hrelative := isAbsolute_join_append (h first List.mem_cons_self).1 more []
  rw [List.append_nil] at hrelative
  have hsegments := segments_join fun s hs => (h s hs).1
  have hsame : cleanSegments (Text.join [Text.slash] (first :: more)) = first :: more := by
    rw [cleanSegments, hsegments, foldl_push_names h, List.append_nil, List.reverse_reverse]
  rw [clean, hrelative, hsame]
  rfl

/-- A clean path without the name that it starts with is clean. -/
theorem clean_of_clean_append {first rest : Text} (hfirst : IsName first)
    (h : clean (first ++ Text.slash :: rest) = first ++ Text.slash :: rest) : clean rest = rest := by
  have hrelative := isAbsolute_append hfirst.1 (Text.slash :: rest)
  have hslash : Text.slash ∈ clean (first ++ Text.slash :: rest) := by
    rw [h]
    exact List.mem_append_right _ List.mem_cons_self
  obtain hhere | ⟨hne, hjoin⟩ := clean_relative hrelative
  · rw [hhere] at hslash
    contradiction
  have hsplit : first :: rest.split Text.slash = cleanSegments (first ++ Text.slash :: rest) := by
    rw [← split_join_cleanSegments hne, ← hjoin, h, Text.split_append_slash hfirst.1.2]
  obtain ⟨n, names, heq, hnames⟩ := exists_cleanSegments_eq hrelative
  rw [heq] at hsplit
  -- the first segment is a name, so there are no steps up before it
  have hdown : ∀ s ∈ rest.split Text.slash, IsName s := by
    cases n with
    | zero =>
      rw [List.replicate_zero, List.nil_append] at hsplit
      intro s hs
      apply hnames
      rw [← hsplit]
      exact List.mem_cons_of_mem first hs
    | succ n =>
      rw [List.replicate_succ, List.cons_append] at hsplit
      exact absurd (List.cons.inj hsplit).1 hfirst.2.2
  have hpieces : rest.split Text.slash ≠ [] := by
    rw [Text.split_eq_splitOn]
    exact List.splitOn_ne_nil _ _
  have hclean := clean_join_of_names hpieces hdown
  rwa [Text.join_split] at hclean

end Path

end ClassAtlas
