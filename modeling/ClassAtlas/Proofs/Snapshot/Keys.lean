import ClassAtlas.Proofs.Snapshot.Content
import Mathlib.Data.List.Basic

namespace ClassAtlas.Snapshot

/-- A text that can be a short digest: it has digits only, and so neither colons nor most
letters. -/
def IsDigest (t : Text) : Prop := ∀ b ∈ t, ∃ n, b = Decimal.hexDigit n

/-- Short digests have digits only, of whatever text they are. -/
theorem isDigest_shortDigest (t : Text) :
    IsDigest (shortDigest t) := fun _ hb => Saved.mem_shortDigest hb

/-- Projects are named by digests. -/
theorem Saved.isDigest_project (x : Saved) : IsDigest x.project := isDigest_shortDigest _

/-- Snapshots are named by digests. -/
theorem Saved.isDigest_id (x : Saved) : IsDigest x.id := isDigest_shortDigest _

/-- No snapshot has an empty name. -/
theorem Saved.id_ne_nil (x : Saved) : x.id ≠ [] := by
  have hdigit : ∀ n, Decimal.hex 8 n ≠ [] := by
    intro n
    simp [Decimal.hex]
  simp [id, idOf, shortDigest, Sha256.hex, Sha256.State.words, hdigit]

/-- A digest has no colon and no letter behind f. -/
theorem IsDigest.not_mem {t : Text} (h : IsDigest t) {b : UInt8}
    (hb : b.toNat = 58 ∨ 102 < b.toNat) : b ∉ t := by
  intro hmem
  obtain ⟨n, rfl⟩ := h b hmem
  have hdigit := Decimal.toNat_hexDigit_le n
  omega

/-- The entries by what they are for. -/
inductive Key where
  | data (project id : Text)
  | record (project id : Text)
  | latest (project : Text)
  | index (id : Text)
  deriving DecidableEq

namespace Key

/-- The key of an entry in the store. -/
def text : Key → Text
  | data project id => dataKey project id
  | record project id => metaKey project id
  | latest project => latestKey project
  | index id => indexKey id

/-- The names in a key are digests, as in all keys that are written. -/
def Named : Key → Prop
  | data project id | record project id => IsDigest project ∧ IsDigest id
  | latest project => IsDigest project
  | index id => IsDigest id

/-- What a key says behind the space that all keys share. -/
def body : Key → Text
  | data project id => project ++ 58 :: id ++ ":data"
  | record project id => project ++ 58 :: id ++ ":meta"
  | latest project => project ++ ":latest"
  | index id => "index" ++ 58 :: id

/-- A key starts with the space that all keys share. -/
theorem text_eq (k : Key) : k.text = space ++ k.body := by
  have hcolon : (":" : Text) = [58] := rfl
  have hindex : ("index:" : Text) = ("index" : Text) ++ [58] := rfl
  cases k with
  | data project id => simp [text, body, dataKey, hcolon]
  | record project id => simp [text, body, metaKey, metaEnding, hcolon]
  | latest project => simp [text, body, latestKey]
  | index id => simp [text, body, indexKey, indexSpace, hindex]

/-- No digest begins as the keys of pointers to projects do. -/
theorem index_append_ne {t rest i : Text} (ht : IsDigest t) :
    ("index" : Text) ++ i ≠ t ++ 58 :: rest := by
  have hindex : ("index" : Text) = [105, 110, 100, 101, 120] := rfl
  rw [hindex]
  intro h
  cases t with
  | nil => simp at h
  | cons b t =>
    obtain ⟨rfl, -⟩ := List.cons.inj h
    exact ht.not_mem (by decide) List.mem_cons_self

/-- A pointer to a project stands under the key of nothing else. -/
theorem append_ne_index {p t i : Text} (ht : ¬ IsDigest t) (hi : IsDigest i) :
    p ++ 58 :: t ≠ ("index" : Text) ++ 58 :: i := by
  intro h
  have hcolon : (58 : UInt8) ∉ ("index" : Text) := by decide
  obtain ⟨-, -, rfl⟩ := (List.append_cons_inj_of_notMem hcolon (hi.not_mem (by decide))).mp h.symm
  exact ht hi

/-- The key of a snapshot is no key of the index. -/
theorem join_ne_index {p i e j : Text} (he : 58 ∈ e) (hj : IsDigest j) :
    p ++ 58 :: i ++ e ≠ ("index" : Text) ++ 58 :: j := by
  rw [List.append_assoc, List.cons_append]
  exact append_ne_index (fun hdigest => hdigest.not_mem (by decide) (List.mem_append_right _ he)) hj

/-- Texts with endings of one length but different letters are different. -/
theorem append_ne_of_ending {s t e e' : Text} (hlength : e.length = e'.length) (hne : e ≠ e') :
    s ++ e ≠ t ++ e' :=
  fun h => hne (List.append_inj' h hlength).2

/-- A key of one of the other kinds does not end like that of the latest snapshot. -/
theorem append_ne_latest {s e q : Text} (hlength : e.length = 5) (hne : e ≠ "atest") :
    s ++ e ≠ q ++ (":latest" : Text) := by
  have hlatest : (":latest" : Text) = (":l" : Text) ++ ("atest" : Text) := rfl
  rw [hlatest, ← List.append_assoc]
  exact append_ne_of_ending hlength hne

/-- Digests can be read off a text that joins them by a colon. -/
theorem join_inj {p i q j : Text} (hq : IsDigest q) (hj : IsDigest j)
    (h : p ++ 58 :: i = q ++ 58 :: j) : p = q ∧ i = j := by
  obtain ⟨hproject, -, hid⟩ :=
    (List.append_cons_inj_of_notMem (hq.not_mem (by decide)) (hj.not_mem (by decide))).mp h.symm
  exact ⟨hproject.symm, hid.symm⟩

/-- Keys that say the same are for the same. Only one of them must have digests for names. -/
theorem body_inj {k k' : Key} (hk : k'.Named) (h : k.body = k'.body) : k = k' := by
  cases k with
  | data p i =>
    cases k' with
    | data q j =>
      obtain ⟨rfl, rfl⟩ := join_inj hk.1 hk.2 (List.append_cancel_right h)
      rfl
    | record q j => exact absurd h (append_ne_of_ending rfl (by decide))
    | latest q => exact absurd h (append_ne_latest rfl (by decide))
    | index j => exact absurd h (join_ne_index (by decide) hk)
  | record p i =>
    cases k' with
    | data q j => exact absurd h (append_ne_of_ending rfl (by decide))
    | record q j =>
      obtain ⟨rfl, rfl⟩ := join_inj hk.1 hk.2 (List.append_cancel_right h)
      rfl
    | latest q => exact absurd h (append_ne_latest rfl (by decide))
    | index j => exact absurd h (join_ne_index (by decide) hk)
  | latest p =>
    cases k' with
    | data q j | record q j => exact absurd h.symm (append_ne_latest rfl (by decide))
    | latest q => rw [List.append_cancel_right h]
    | index j =>
      have hword : (":latest" : Text) = 58 :: ("latest" : Text) := rfl
      rw [body, body, hword] at h
      refine absurd h (append_ne_index (fun hdigest => ?_) hk)
      exact hdigest.not_mem (b := 108) (by decide) (by decide)
  | index i =>
    cases k' with
    | data q j | record q j =>
      rw [body, body, List.append_assoc, List.cons_append] at h
      exact absurd h (index_append_ne hk.1)
    | latest q => exact absurd h (index_append_ne hk)
    | index j => rw [(List.cons.inj (List.append_cancel_left h)).2]

/-- A text is the key of an entry only if it was built as that key. -/
theorem text_inj {k k' : Key} (hk : k'.Named) : k.text = k'.text ↔ k = k' := by
  constructor
  · intro h
    rw [text_eq, text_eq] at h
    exact body_inj hk (List.append_cancel_left h)
  · rintro rfl
    rfl

end Key

end ClassAtlas.Snapshot
