import ClassAtlas.Proofs.Path.Shape
import ClassAtlas.Service.RootPolicy

namespace ClassAtlas

namespace RootPolicy

open ClassAtlas.Path

variable {policy : RootPolicy} {workdir root top path : Text}

/-- A path is within another if it is the same or goes on behind a slash. -/
theorem isWithin_iff : isWithin top path = true ↔ path = top ∨ ∃ rest, path = top ++ Text.slash :: rest := by
  have hslash : Text.ofString "/" = [Text.slash] := rfl
  simp only [isWithin, Text.startsWith, Bool.or_eq_true, beq_iff_eq, List.isPrefixOf_iff_prefix, hslash]
  apply or_congr_right
  constructor
  · rintro ⟨rest, rfl⟩
    exact ⟨rest, by simp⟩
  · rintro ⟨rest, rfl⟩
    exact ⟨rest, by simp⟩

/-- An absolute path is within no relative one. -/
theorem isAbsolute_of_isWithin (hpath : isAbsolute path = true) (h : isWithin (clean top) path = true) :
    isAbsolute top = true := by
  by_contra htop
  rw [Bool.not_eq_true] at htop
  rcases isWithin_iff.mp h with heq | ⟨rest, heq⟩
  · have hrelative := isAbsolute_clean_append htop []
    rw [List.append_nil, ← heq, hpath] at hrelative
    contradiction
  · have hrelative := isAbsolute_clean_append htop (Text.slash :: rest)
    rw [← heq, hpath] at hrelative
    contradiction

/-- The test on texts is one on names, except below the directory of the whole disk. -/
theorem isWithin_iff_names (htop : IsClean top) (hpath : IsClean path) :
    isWithin top path = true ↔
      segments top <+: segments path ∧ (top = [Text.slash] → path = [Text.slash]) := by
  rw [isWithin_iff]
  constructor
  · rintro (rfl | ⟨rest, heq⟩)
    · exact ⟨List.prefix_rfl, id⟩
    · refine ⟨⟨segments rest, ?_⟩, ?_⟩
      · rw [heq, segments_append_slash]
      · rintro rfl
        exact absurd heq (hpath.ne_slash_slash rest)
  · rintro ⟨⟨below, hbelow⟩, hdisk⟩
    by_cases hempty : below = []
    · apply Or.inl
      rw [hpath.eq_slash_join, ← hbelow, hempty, List.append_nil, ← htop.eq_slash_join]
    · apply Or.inr
      have hnames : segments top ≠ [] := by
        intro hnil
        have hself := hpath.segments_eq_nil_iff.mpr (hdisk (htop.segments_eq_nil_iff.mp hnil))
        rw [hself] at hbelow
        exact hempty (List.append_eq_nil_iff.mp hbelow).2
      refine ⟨Text.join [Text.slash] below, ?_⟩
      calc path
        _ = Text.slash :: Text.join [Text.slash] (segments top ++ below) := by
          rw [hbelow, ← hpath.eq_slash_join]
        _ = Text.slash :: Text.join [Text.slash] (segments top) ++
            Text.slash :: Text.join [Text.slash] below := by
          rw [Text.join_append hnames hempty, List.cons_append]
        _ = top ++ Text.slash :: Text.join [Text.slash] below := by rw [← htop.eq_slash_join]

/-- A path is admitted exactly by an absolute entry whose segments come first in it. The entry of the
whole disk admits the top only. -/
theorem admits_iff (hfence : policy.allowed ≠ []) (hpath : IsClean path) :
    policy.admits path = true ↔ ∃ top ∈ policy.allowed, isAbsolute top = true ∧
      segments (clean top) <+: segments path ∧ (clean top = [Text.slash] → path = [Text.slash]) := by
  have hsome : policy.allowed.isEmpty = false := List.isEmpty_eq_false_iff.mpr hfence
  rw [admits, hsome, Bool.false_or, List.any_eq_true]
  constructor
  · rintro ⟨top, hmem, hwithin⟩
    have htop := isAbsolute_of_isWithin hpath.1 hwithin
    exact ⟨top, hmem, htop, (isWithin_iff_names (isClean_clean htop) hpath).mp hwithin⟩
  · rintro ⟨top, hmem, htop, hprefixed⟩
    exact ⟨top, hmem, (isWithin_iff_names (isClean_clean htop) hpath).mpr hprefixed⟩

/-- When a root is accepted, and as which path. -/
theorem resolve_eq_ok_iff :
    policy.resolve workdir root = .ok path ↔
      (Blank.trim root).isEmpty = false ∧ up ∉ root.split Text.slash ∧
        (policy.requireAbsolute = true → isAbsolute root = true) ∧
        policy.admits (absolute workdir root) = true ∧ absolute workdir root = path := by
  unfold resolve
  cases hblank : (Blank.trim root).isEmpty with
  | true => simp
  | false =>
    by_cases hup : up ∈ root.split Text.slash
    · simp [hup]
    · cases hasked : policy.requireAbsolute <;> cases habsolute : isAbsolute root <;>
        cases hadmits : policy.admits (absolute workdir root) <;> simp [hup, hadmits]

/-- What the fence guarantees of a path that a root is accepted as. -/
structure Fenced (policy : RootPolicy) (root path : Text) : Prop where
  /-- The path is a slash and names, with slashes in between. -/
  clean : ∃ names, (∀ s ∈ names, IsName s) ∧ path = Text.slash :: Text.join [Text.slash] names
  straight : up ∉ root.split Text.slash
  inside : ∃ top ∈ policy.allowed, isAbsolute top = true ∧
    segments (Path.clean top) <+: segments path
  itself : policy.requireAbsolute = true → path = Path.clean root

/-- A fence holds: whatever the root, the path that it is accepted as lies below an allowed directory. -/
theorem resolve_fenced (hwork : isAbsolute workdir = true) (hfence : policy.allowed ≠ [])
    (h : policy.resolve workdir root = .ok path) : policy.Fenced root path := by
  obtain ⟨-, hup, hasked, hadmits, rfl⟩ := resolve_eq_ok_iff.mp h
  have hclean := isClean_absolute hwork root
  constructor
  case clean => exact ⟨_, hclean.isName, hclean.eq_slash_join⟩
  case straight => exact hup
  case inside =>
    obtain ⟨top, hmem, htop, hnames, -⟩ := (admits_iff hfence hclean).mp hadmits
    exact ⟨top, hmem, htop, hnames⟩
  case itself =>
    intro hrequired
    rw [absolute, if_pos (hasked hrequired)]

/-- Allows a directory that is written with surplus segments. The relative entry allows nothing. -/
def reposPolicy : RootPolicy := { allowed := ["repos", "/srv//repos/."] }

/-- A relative root with surplus segments, seen from within the allowed directory. -/
theorem resolve_fenced_from_workdir :
    isAbsolute "/srv/repos" = true ∧ reposPolicy.allowed ≠ [] ∧
    reposPolicy.resolve "/srv/repos" "x//./y/" = .ok "/srv/repos/x/y" ∧
    reposPolicy.Fenced "x//./y/" "/srv/repos/x/y" := by
  have hfence : reposPolicy.allowed ≠ [] := by simp [reposPolicy]
  have hresolve : reposPolicy.resolve "/srv/repos" "x//./y/" = .ok "/srv/repos/x/y" := by rfl
  exact ⟨rfl, hfence, hresolve, resolve_fenced rfl hfence hresolve⟩

/-- An absolute root without steps up is accepted as its clean form if that is admitted, from any working
directory. -/
theorem resolve_of_isAbsolute (hroot : isAbsolute root = true) (hup : up ∉ root.split Text.slash)
    (workdir : Text) : policy.resolve workdir root =
      if policy.admits (clean root) then .ok (clean root) else .error .notAllowed := by
  simp [resolve, isEmpty_trim hroot, hup, hroot, absolute]

/-- An absolute root that does not climb is accepted exactly if it is within an allowed directory, with
one exception: the directory of the whole disk allows nothing but itself. -/
theorem resolve_eq_ok_clean_iff (hfence : policy.allowed ≠ [])
    (hallowed : ∀ top ∈ policy.allowed, isAbsolute top = true) (hroot : isAbsolute root = true)
    (hup : up ∉ root.split Text.slash) (workdir : Text) :
    (policy.resolve workdir root = .ok (clean root) ↔
      ∃ top ∈ policy.allowed, segments (clean top) <+: segments (clean root) ∧
        (clean top = [Text.slash] → clean root = [Text.slash])) ∧
    (policy.resolve workdir root = .ok (clean root) ∨
      policy.resolve workdir root = .error .notAllowed) := by
  rw [resolve_of_isAbsolute hroot hup]
  have hadmits := admits_iff hfence (isClean_clean hroot)
  constructor
  · constructor
    · intro hok
      by_cases hadmitted : policy.admits (clean root) = true
      · obtain ⟨top, hmem, -, hnames⟩ := hadmits.mp hadmitted
        exact ⟨top, hmem, hnames⟩
      · rw [if_neg hadmitted] at hok
        contradiction
    · rintro ⟨top, hmem, hnames⟩
      rw [if_pos (hadmits.mpr ⟨top, hmem, hallowed top hmem, hnames⟩)]
  · split
    · exact Or.inl rfl
    · exact Or.inr rfl

/-- Allows the whole disk and, beside it, one directory. -/
def besidePolicy : RootPolicy := { allowed := ["/", "/srv/./repos/"] }

/-- Below the one directory a root is accepted. A directory beside it with a longer name is not. -/
theorem resolve_eq_ok_clean_beside :
    besidePolicy.allowed ≠ [] ∧ (∀ top ∈ besidePolicy.allowed, isAbsolute top = true) ∧
    (isAbsolute "//srv/repos/./x/" = true ∧ up ∉ Text.split "//srv/repos/./x/" Text.slash) ∧
    besidePolicy.resolve "/" "//srv/repos/./x/" = .ok "/srv/repos/x" ∧
    (isAbsolute "/srv/repos2" = true ∧ up ∉ Text.split "/srv/repos2" Text.slash) ∧
    besidePolicy.resolve "/" "/srv/repos2" = .error .notAllowed := by
  have hfence : besidePolicy.allowed ≠ [] := by simp [besidePolicy]
  have hallowed : ∀ top ∈ besidePolicy.allowed, isAbsolute top = true := by decide
  have hup : up ∉ Text.split "//srv/repos/./x/" Text.slash := by decide
  have hup' : up ∉ Text.split "/srv/repos2" Text.slash := by decide
  obtain ⟨haccepts, -⟩ := resolve_eq_ok_clean_iff hfence hallowed rfl hup "/"
  obtain ⟨haccepts', hanswer'⟩ := resolve_eq_ok_clean_iff hfence hallowed rfl hup' "/"
  refine ⟨hfence, hallowed, ⟨rfl, hup⟩, ?_, ⟨rfl, hup'⟩, ?_⟩
  · exact haccepts.mpr ⟨"/srv/./repos/", by decide, by decide, by decide⟩
  · refine hanswer'.resolve_left fun hok => ?_
    have hnone : ¬∃ top ∈ besidePolicy.allowed,
        segments (clean top) <+: segments (clean "/srv/repos2") ∧
          (clean top = [Text.slash] → clean "/srv/repos2" = [Text.slash]) := by decide
    exact hnone (haccepts'.mp hok)

/-- Where only the whole disk is allowed, no directory on it is accepted. -/
theorem resolve_of_whole_disk :
    isAbsolute "/" = true ∧ isAbsolute "/srv" = true ∧ up ∉ Text.split "/srv" Text.slash ∧
    segments (clean "/") <+: segments (clean "/srv") ∧
    resolve ⟨["/"], false⟩ "/" "/srv" = .error .notAllowed := by
  decide

end RootPolicy

end ClassAtlas
