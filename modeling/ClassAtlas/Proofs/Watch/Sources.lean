import ClassAtlas.Proofs.Catalog.Names
import ClassAtlas.Proofs.Catalog.Places
import ClassAtlas.Proofs.Path.Shape
import ClassAtlas.Proofs.Text.Utf8
import ClassAtlas.Settings.Basic
import ClassAtlas.Watch.Change

namespace ClassAtlas

namespace Path

variable {p : Text}

/-- The path ends in the name of an entry: it is not empty, and no slash says that it is a directory. -/
def EndsInName (p : Text) : Prop := p ≠ [] ∧ p.getLast? ≠ some Text.slash

instance : DecidablePred EndsInName := fun p => inferInstanceAs (Decidable (p ≠ [] ∧ p.getLast? ≠ some Text.slash))

/-- The last piece of a path is empty if the path does not end in a name. -/
theorem exists_split_eq (p : Text) :
    ∃ pieces last, p.split Text.slash = pieces ++ [last] ∧ (last ≠ [] ↔ EndsInName p) := by
  by_cases hslash : Text.slash ∈ p
  · obtain ⟨front, last, rfl, hlast⟩ := Text.exists_last_of_mem hslash
    refine ⟨front.split Text.slash, last, ?_, ?_⟩
    · rw [Text.split_append, Text.split_of_notMem hlast]
    · rcases List.eq_nil_or_concat last with rfl | ⟨lead, b, rfl⟩
      · simp [EndsInName]
      · have hb : b ≠ Text.slash := by
          rintro rfl
          simp at hlast
        simp [EndsInName, List.getLast?_cons, hb]
  · refine ⟨[], p, Text.split_of_notMem hslash, ⟨fun hne => ⟨hne, fun hlast => ?_⟩, And.left⟩⟩
    exact hslash (List.mem_of_getLast? hlast)

/-- A path that ends in a name has the extension of that name. -/
theorem extension_of_base {stem last : Text} (hp : EndsInName p) (hlast : Text.dot ∉ last)
    (hbase : base p = stem ++ Text.dot :: last) : extension p = Text.dot :: last := by
  obtain ⟨pieces, name, hsplit, hname⟩ := exists_split_eq p
  have hsegments : segments p = pieces.filter (!·.isEmpty) ++ [name] := by
    rw [segments, hsplit, List.filter_append]
    simp [hname.mpr hp]
  have hbase' : base p = name := by
    simp [base, hp.1, hsegments]
  rw [extension, hsplit]
  simp only [List.getLast?_append, List.getLast?_singleton, Option.some_or, Option.getD_some, ← hbase', hbase,
    Text.cutAtLast?_append stem hlast]

/-- A path that does not end in a name has no extension. -/
theorem extension_of_not_endsInName (hp : ¬EndsInName p) : extension p = [] := by
  obtain ⟨pieces, name, hsplit, hname⟩ := exists_split_eq p
  obtain rfl : name = [] := Classical.byContradiction fun hne => hp (hname.mp hne)
  rw [extension, hsplit]
  simp [Text.cutAtLast?]

/-- A clean path ends in a name, unless it is the root of the disk. -/
theorem IsClean.endsInName (h : IsClean p) (hroot : p ≠ [Text.slash]) : EndsInName p := by
  have hne : segments p ≠ [] := mt h.segments_eq_nil_iff.mp hroot
  have hsplit : p.split Text.slash = [] :: segments p := by
    have hslash := Text.split_append [] (Text.join [Text.slash] (segments p))
    rwa [List.nil_append, ← h.eq_slash_join, split_join hne h.isName] at hslash
  obtain ⟨pieces, last, hpieces, hlast⟩ := exists_split_eq p
  rcases List.eq_nil_or_concat (segments p) with hnil | ⟨names, name, hnames⟩
  · contradiction
  · rw [hpieces, hnames, List.concat_eq_append, ← List.cons_append] at hsplit
    obtain ⟨-, heq⟩ := List.append_inj' hsplit rfl
    obtain rfl := List.singleton_inj.mp heq
    exact hlast.mp (h.isName last (by simp [hnames])).1.1

end Path

namespace Case

/-- Folding keeps the number of runes, so a text differs in more than case from what follows on a beginning of it. -/
theorem equalFolded_append_iff {a : UInt8} (ha : a < 0x80) (lead t : Text) :
    equalFolded (a :: t) (lead ++ a :: t) = true ↔ lead = [] := by
  constructor
  · intro h
    have hlength := congrArg List.length (beq_iff_eq.mp h)
    simp only [folded, Utf8.runes_append ha, List.length_map, List.length_append] at hlength
    by_contra hne
    obtain ⟨r, rest, hnext⟩ := Utf8.exists_next? hne
    rw [Utf8.runes_of_next? hnext, List.length_cons] at hlength
    omega
  · rintro rfl
    exact beq_self_eq_true _

/-- Only the empty text equals the empty text. -/
theorem equalFolded_nil {t : Text} (ht : t ≠ []) : equalFolded [] t = false := by
  obtain ⟨r, rest, hnext⟩ := Utf8.exists_next? ht
  simp [equalFolded, folded, Utf8.runes_of_next? hnext]

end Case

namespace Catalog

variable {c : Catalog} {name : Text} {u : SourceUnit}

/-- The file of a class has a name that ends in the extension, and its path ends in that name. -/
theorem Grounded.endsInName (h : c.Grounded) (hdot : c.extension.startsWith "." = true) (hu : c.unit? name = some u) :
    (Path.base u.path).endsWith c.extension = true ∧ Path.EndsInName u.path := by
  obtain ⟨-, d, hlocated⟩ := h.located
  obtain ⟨_, _, _, _, _, -, hscan⟩ := h
  obtain ⟨_, -, -, hextension, -⟩ := scan_eq_ok hscan
  obtain ⟨stem, hbase, -⟩ := exists_base hscan hu
  rw [← hextension] at hbase
  refine ⟨Text.endsWith_iff.mpr ⟨stem, hbase⟩, (hlocated name u hu).clean.endsInName fun hroot => ?_⟩
  have hmem : Text.dot ∈ Path.base u.path := by
    obtain ⟨rest, hrest⟩ := List.isPrefixOf_iff_prefix.mp hdot
    rw [hbase, ← hrest]
    exact List.mem_append_right stem List.mem_cons_self
  rw [hroot] at hmem
  contradiction

end Catalog

namespace Watch

variable {extension : Text} {c : FileChange}

/-- A change to a file whose name ends in the extension matters if the extension has no second dot; if its path does not
end in a name, it matters if it takes away what is there. -/
theorem isRelevant_of_base_iff (hdot : extension.startsWith "." = true)
    (hbase : (Path.base c.path).endsWith extension = true) : isRelevant extension c = true ↔
      if Path.EndsInName c.path then Text.dot ∉ extension.tail else c.kind = .remove ∨ c.kind = .rename := by
  obtain ⟨rest, hrest⟩ : ∃ rest, extension = Text.dot :: rest := by
    obtain ⟨rest, hrest⟩ := List.isPrefixOf_iff_prefix.mp hdot
    exact ⟨rest, hrest.symm⟩
  by_cases hname : Path.EndsInName c.path
  · obtain ⟨lead, last, hext, hlast⟩ := Text.exists_last_of_mem (show Text.dot ∈ extension by simp [hrest])
    obtain ⟨stem, hstem⟩ := Text.endsWith_iff.mp hbase
    rw [hext, ← List.append_assoc] at hstem
    have hfound := Path.extension_of_base hname hlast hstem
    have htail : Text.dot ∉ extension.tail ↔ lead = [] := by
      cases lead with
      | nil => simp [hext, hlast]
      | cons b lead => simp [hext]
    have hascii : Text.dot < 0x80 := by decide
    rw [if_pos hname, htail, isRelevant, hfound, hext, ← Case.equalFolded_append_iff hascii lead last]
    simp
  · rw [if_neg hname, isRelevant, Path.extension_of_not_endsInName hname, Case.equalFolded_nil (by simp [hrest])]
    simp

/-- A change whose name ends in the extension is relevant, unless the extension has a second dot or the
path does not end in a name. Such a change may still take away a directory. -/
theorem mem_relevant_of_base_iff {batch : List FileChange} (hdot : extension.startsWith "." = true)
    (hbase : (Path.base c.path).endsWith extension = true) (hc : c ∈ batch) : c ∈ relevant extension batch ↔
      if Path.EndsInName c.path then Text.dot ∉ extension.tail else c.kind = .remove ∨ c.kind = .rename := by
  rw [relevant, List.mem_filter, and_iff_right hc, isRelevant_of_base_iff hdot hbase]

/-- Let an extension start with a dot. A change to a path whose base name ends in it matters, whatever its kind, if the
extension has no other dot; with another dot it never matters. The only exception are paths that end in a slash,
and the empty path: there a change matters if it takes away what is there. The files of a catalog have no
such paths, so for them the number of dots alone decides. -/
theorem relevant_source_iff (hdot : extension.startsWith "." = true) :
    (∀ c batch, (Path.base c.path).endsWith extension = true → c ∈ batch →
      (c ∈ relevant extension batch ↔
        if Path.EndsInName c.path then Text.dot ∉ extension.tail else c.kind = .remove ∨ c.kind = .rename)) ∧
    ∀ (catalog : Catalog) (name : Text) (u : SourceUnit) (kind : ChangeKind) (time : Int) (batch : List FileChange),
      catalog.Grounded → catalog.extension = extension → catalog.unit? name = some u → ⟨u.path, kind, time⟩ ∈ batch →
      (⟨u.path, kind, time⟩ ∈ relevant extension batch ↔ Text.dot ∉ extension.tail) := by
  refine ⟨fun c batch => mem_relevant_of_base_iff hdot, ?_⟩
  rintro catalog name u kind time batch hgrounded rfl hu hc
  obtain ⟨hbase, hname⟩ := hgrounded.endsInName hdot hu
  rw [mem_relevant_of_base_iff hdot hbase hc, if_pos hname]

/-- A change to a source file with a dot in its name is relevant, and a class can stand there. -/
theorem relevant_source_plain :
    Text.startsWith ".java" "." = true ∧
      (Text.endsWith (Path.base "/p/Order.gen.java") ".java" = true ∧
        ∀ kind time, (⟨"/p/Order.gen.java", kind, time⟩ : FileChange) ∈
          relevant ".java" [⟨"/p/Order.gen.java", kind, time⟩]) ∧
      ∃ catalog : Catalog, catalog.Grounded ∧ catalog.extension = ".java" ∧
        catalog.unit? "p.B" = some ⟨"p.B", "p", "/r/m/B.java", "m"⟩ ∧
        ∀ kind time, (⟨"/r/m/B.java", kind, time⟩ : FileChange) ∈
          relevant ".java" [⟨"/r/m/B.java", kind, time⟩] := by
  have hdot : Text.startsWith ".java" "." = true := by decide
  have hsingle : Text.dot ∉ (Text.ofString ".java").tail := by decide
  obtain ⟨hpaths, hcatalogs⟩ := relevant_source_iff hdot
  have hbase : Text.endsWith (Path.base "/p/Order.gen.java") ".java" = true := by decide
  refine ⟨hdot, ⟨hbase, fun kind time => ?_⟩, ?_⟩
  · have hname : Path.EndsInName "/p/Order.gen.java" := by decide
    rw [hpaths ⟨"/p/Order.gen.java", kind, time⟩ _ hbase List.mem_cons_self, if_pos hname]
    exact hsingle
  · have hseen : ((Catalog.scan Catalog.generatedDisk {} Budget.unlimited "/r").toOption.map
        fun r => (r.1.unit? "p.B", r.1.extension)) =
        some (some ⟨"p.B", "p", "/r/m/B.java", "m"⟩, Text.ofString ".java") := by decide
    obtain ⟨catalog, cache, hscan, hfound⟩ :=
      Catalog.exists_scan_of_map (f := fun c => (c.unit? "p.B", c.extension)) hseen
    obtain ⟨hunit, hextension⟩ := Prod.mk.inj hfound
    have hgrounded : catalog.Grounded := ⟨_, _, _, _, cache, rfl, hscan⟩
    refine ⟨catalog, hgrounded, hextension, hunit, fun kind time => ?_⟩
    exact (hcatalogs catalog "p.B" _ kind time _ hgrounded hextension hunit List.mem_cons_self).mpr hsingle

/-- An extension with two dots is accepted and the scan takes the file into the catalog, but no change to it matters. -/
theorem relevant_misses_dotted_extension :
    ({ extension := ".gen.java" } : Settings).invalid? = none ∧
      (∃ c cache,
        Catalog.scan Catalog.generatedDisk { extension := ".gen.java" } Budget.unlimited "/r" = .ok (c, cache) ∧
        c.unit? "p.Order" = some ⟨"p.Order", "p", "/r/m/Order.gen.java", "m"⟩) ∧
      ∀ kind time, relevant ".gen.java" [⟨"/r/m/Order.gen.java", kind, time⟩] = [] := by
  have hseen : ((Catalog.scan Catalog.generatedDisk { extension := ".gen.java" } Budget.unlimited "/r").toOption.map
      fun r => r.1.unit? "p.Order") = some (some ⟨"p.Order", "p", "/r/m/Order.gen.java", "m"⟩) := by decide
  refine ⟨by decide, Catalog.exists_scan_of_map (f := (·.unit? "p.Order")) hseen, fun kind time => ?_⟩
  have hlost : ∀ kind, isRelevant ".gen.java" ⟨"/r/m/Order.gen.java", kind, 0⟩ = false := by
    intro kind
    cases kind <;> decide +kernel
  have hlost' : isRelevant ".gen.java" ⟨"/r/m/Order.gen.java", kind, time⟩ = false := hlost kind
  simp [relevant, hlost']

end Watch

end ClassAtlas
