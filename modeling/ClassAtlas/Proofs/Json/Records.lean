import ClassAtlas.Json.Decode
import ClassAtlas.Proofs.Json.Reading

namespace ClassAtlas.Json

/-- A field is found by its own name. -/
theorem named_of_mem {α : Type} {fields : List (Text × Filler α)}
    (hnodup : (fields.map Prod.fst).Nodup)
    {f : Text × Filler α} (h : f ∈ fields) : named fields f.1 = some f.2 := by
  have hfind : fields.find? (·.1 == f.1) = some f := by
    induction fields with
    | nil => simp at h
    | cons g rest ih =>
      rw [List.map_cons, List.nodup_cons] at hnodup
      rcases List.mem_cons.mp h with rfl | h
      · simp
      · have hne : g.1 ≠ f.1 := fun heq => hnodup.1 (heq ▸ List.mem_map_of_mem h)
        rw [List.find?_cons_of_neg (by simpa using hne)]
        exact ih hnodup.2 h
  simp [named, hfind]

/-- An object with a value for each of some fields. -/
def record {α : Type} (fields : List (Text × Filler α)) (values : List Json) : Json :=
  .obj ((fields.zip values).map fun p => (p.1.1, p.2))

/-- A record is filled field by field from an object that has values for some of its fields. -/
theorem fillRecord_record {α : Type} {fields : List (Text × Filler α)}
    (hnodup : (fields.map Prod.fst).Nodup) {chosen : List (Text × Filler α)}
    (hchosen : ∀ f ∈ chosen, f ∈ fields) (values : List Json) (old : α) :
    fillRecord (named fields) old (record chosen values) =
      (chosen.zip values).foldlM (fun a p => p.1.2 a p.2) old := by
  simp only [fillRecord, record]
  induction chosen generalizing values old with
  | nil => rfl
  | cons f rest ih =>
    cases values with
    | nil => rfl
    | cons v values =>
      have hnamed := named_of_mem hnodup (hchosen f (List.mem_cons_self ..))
      simp only [List.zip_cons_cons, List.map_cons, List.foldlM_cons, hnamed]
      cases hv : f.2 old v with
      | none => rfl
      | some a => exact ih (fun g hg => hchosen g (List.mem_cons_of_mem _ hg)) values a

/-- Names in ASCII are read as they were written. -/
theorem reread_record {α : Type} {fields : List (Text × Filler α)}
    (hascii : (fields.map Prod.fst).all (·.all (· < 0x80)) = true) (values : List Json) :
    (record fields values).reread = record fields (values.map reread) := by
  simp only [record, reread, Json.obj.injEq]
  induction fields generalizing values with
  | nil => rfl
  | cons f rest ih =>
    cases values with
    | nil => rfl
    | cons v values =>
      rw [List.map_cons, List.all_cons, Bool.and_eq_true] at hascii
      simp only [List.zip_cons_cons, List.map_cons, rereadMembers, Utf8.scrub_of_ascii hascii.1,
        ih hascii.2]

/-- If all numbers of the values are whole, so are those of a record of them. -/
theorem whole_record {α : Type} (fields : List (Text × Filler α)) {values : List Json}
    (h : ∀ v ∈ values, v.Whole) :
    (record fields values).Whole := by
  refine wholeMembers_iff.mpr ?_
  intro m hm
  obtain ⟨p, hp, rfl⟩ := List.mem_map.mp hm
  exact h p.2 (List.of_mem_zip hp).2

/-- The numbers of 64 bits with a sign. -/
def IsInt64 (n : Int) : Prop := -(1 <<< 63 : Nat) ≤ n ∧ n < (1 <<< 63 : Nat)

/-- A number of 64 bits is read back, whatever stood there before. -/
theorem fillInt_int {n : Int} (h : IsInt64 n) (old : Int) : fillInt old (.int n) = some n := by
  have hread : Decimal.signed 64 (Decimal.ofInt n) = .ok n := Decimal.signed_ofInt h.1 h.2
  simp [fillInt, Json.int, fillSigned, hread, Except.toOption]

/-- A byte is read back, whatever stood there before. -/
theorem fillByte_nat (b old : UInt8) : fillByte old (.nat b.toNat) = some b := by
  have hlt : b.toNat < 256 := b.toNat_lt
  simp [fillByte, Json.nat, Decimal.nat?_ofNat, hlt]

/-- A list is read back if its members are. -/
theorem mapM_map_eq_some {α : Type} {read : Json → Option α} {write : α → Json} {xs : List α}
    (h : ∀ x ∈ xs, read (write x) = some x) : (xs.map write).mapM read = some xs := by
  induction xs with
  | nil => rfl
  | cons x rest ih =>
    rw [List.forall_mem_cons] at h
    simp [h.1, ih h.2]

/-- What is written for a value is read back as another one. -/
structure Rereads (j j' : Json) : Prop where
  whole : j.Whole
  reread_eq : j.reread = j'

/-- A text is read back without its stray bytes. -/
theorem rereads_str (t : Text) : (Json.str t).Rereads (.str (Utf8.scrub t)) := ⟨trivial, rfl⟩

/-- A number is read back as it was. -/
theorem rereads_int (n : Int) : (Json.int n).Rereads (.int n) := ⟨⟨n, rfl⟩, rfl⟩

/-- A number that is not negative is read back as it was. -/
theorem rereads_nat (n : Nat) : (Json.nat n).Rereads (.nat n) := ⟨⟨n, rfl⟩, rfl⟩

/-- A list is read back with each member as that one is read back. -/
theorem rereads_arr {α : Type} {write : α → Json} {respell : α → α}
    (h : ∀ x, (write x).Rereads (write (respell x))) (xs : List α) :
    (Json.arr (xs.map write)).Rereads (.arr ((xs.map respell).map write)) := by
  constructor
  · refine wholeItems_iff.mpr ?_
    intro item hitem
    obtain ⟨x, -, rfl⟩ := List.mem_map.mp hitem
    exact (h x).whole
  · rw [reread, rereadItems_eq_map, List.map_map, List.map_map]
    congr 1
    exact List.map_congr_left fun x _ => (h x).reread_eq

/-- A record whose names are in ASCII is read back value by value. -/
theorem rereads_record {α : Type} (fields : List (Text × Filler α))
    (hascii : (fields.map Prod.fst).all (·.all (· < 0x80)) = true) {values values' : List Json}
    (h : List.Forall₂ Rereads values values') : (record fields values).Rereads (record fields values') := by
  have hvalues : (∀ v ∈ values, v.Whole) ∧ values.map reread = values' := by
    induction h with
    | nil => simp
    | cons hv _ ih =>
      rw [List.forall_mem_cons, List.map_cons, hv.reread_eq, ih.2]
      exact ⟨⟨hv.whole, ih.1⟩, rfl⟩
  refine ⟨whole_record fields hvalues.1, ?_⟩
  rw [reread_record hascii, hvalues.2]

end ClassAtlas.Json
