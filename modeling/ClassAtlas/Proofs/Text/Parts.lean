import ClassAtlas.Text.Basic
import Mathlib.Data.List.TakeDrop

namespace ClassAtlas.Text

variable {t lead tail mid : Text} {b : UInt8}

/-- A text starts with what is put before it. -/
theorem startsWith_append (lead t : Text) : (lead ++ t).startsWith lead = true :=
  List.isPrefixOf_iff_prefix.mpr (List.prefix_append lead t)

/-- What is put before a text can be dropped. -/
theorem dropLead_append (lead t : Text) : (lead ++ t).dropLead lead = t := by
  rw [dropLead, startsWith_append, if_pos rfl, List.drop_left]

/-- A lead that is not there is not dropped. -/
theorem dropLead_of_not_prefix (h : ¬lead <+: t) : t.dropLead lead = t := by
  rw [dropLead, if_neg]
  rwa [startsWith, List.isPrefixOf_iff_prefix]

/-- A text ends with what stands behind some stem. -/
theorem endsWith_iff : t.endsWith tail = true ↔ ∃ stem, t = stem ++ tail := by
  rw [endsWith, List.isSuffixOf_iff_suffix]
  exact exists_congr fun stem => eq_comm

/-- A text ends with its last byte. -/
theorem endsWith_singleton_iff : t.endsWith [b] = true ↔ t.getLast? = some b := by
  rw [endsWith_iff, List.getLast?_eq_some_iff]

/-- What is put behind a text can be dropped. -/
theorem dropTail_append (stem tail : Text) : (stem ++ tail).dropTail tail = stem := by
  have hends : (stem ++ tail).endsWith tail = true := endsWith_iff.mpr ⟨stem, rfl⟩
  simp [dropTail, hends]

/-- A text goes up to the first of a byte. -/
theorem span_append (hmid : b ∉ mid) (rest : Text) : (mid ++ b :: rest).span (· != b) = (mid, b :: rest) := by
  have hne : ∀ c ∈ mid, (c != b) = true := by
    intro c hc
    simp only [bne_iff_ne, ne_eq]
    rintro rfl
    exact hmid hc
  rw [List.span_eq_takeWhile_dropWhile, List.takeWhile_append_of_pos hne, List.dropWhile_append_of_pos hne]
  simp

/-- A text is cut at the first of a byte, which is on neither side. -/
theorem cutAt?_append (hmid : b ∉ mid) (rest : Text) : (mid ++ b :: rest).cutAt? b = some (mid, rest) := by
  rw [cutAt?, span_append hmid]

/-- A text can be taken apart at the last byte `b`. -/
theorem exists_last_of_mem (h : b ∈ t) : ∃ lead mid, t = lead ++ b :: mid ∧ b ∉ mid := by
  obtain ⟨front, back, hsplit, hfront⟩ := List.eq_append_cons_of_mem (List.mem_reverse.mpr h)
  refine ⟨back.reverse, front.reverse, ?_, by simpa using hfront⟩
  rw [← List.reverse_inj, hsplit]
  simp

/-- The last byte `b` is the one behind which there is none. -/
theorem cutAtLast?_append (lead : Text) (hmid : b ∉ mid) : (lead ++ b :: mid).cutAtLast? b = some (lead, mid) := by
  have hmid' : b ∉ mid.reverse := by simpa using hmid
  have hreverse : (lead ++ b :: mid).reverse = mid.reverse ++ b :: lead.reverse := by simp
  rw [cutAtLast?, hreverse, span_append hmid']
  simp

end ClassAtlas.Text
