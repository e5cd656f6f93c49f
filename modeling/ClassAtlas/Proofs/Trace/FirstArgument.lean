import ClassAtlas.Proofs.Text.Blank
import ClassAtlas.Proofs.Text.Parts
import ClassAtlas.Proofs.Trace.Occurrence

namespace ClassAtlas

/-- The first occurrence comes behind a lead in which there is none. -/
theorem Scan.first?_append {α : Type} {recognise : Text → Option α} {found : α} {lead t : Text}
    (hlead : ∀ k < lead.length, recognise ((lead ++ t).drop k) = none) (ht : recognise t = some found) :
    Scan.first? recognise (lead ++ t) = some found := by
  induction lead with
  | nil => cases t <;> simp [Scan.first?, ht]
  | cons b lead ih =>
    have hhere : recognise (b :: (lead ++ t)) = none := hlead 0 (by simp)
    rw [List.cons_append, Scan.first?, hhere]
    exact ih fun k hk => hlead (k + 1) (by simpa using hk)

namespace Argument

/-- A byte that is no quote, no bracket and no comma. -/
def isPlain (b : UInt8) : Bool := !isQuote b && !isOpening b && !isClosing b && b != 44

/-- The contents of a literal: bytes other than its quote, and escapes. -/
inductive LiteralBody (quote : UInt8) : Text → Prop
  | nil : LiteralBody quote []
  | byte {b : UInt8} {body : Text} (hb : b ≠ 92) (hquote : b ≠ quote) (hbody : LiteralBody quote body) :
      LiteralBody quote (b :: body)
  | escape {b : UInt8} {body : Text} (hbody : LiteralBody quote body) : LiteralBody quote (92 :: b :: body)

/-- The two brackets of a group. -/
inductive Brackets : UInt8 → UInt8 → Prop
  | round : Brackets 40 41
  | square : Brackets 91 93
  | curly : Brackets 123 125

/-- Plain bytes, literals and groups. Commas may stand in groups, and outside of them if they are
allowed. -/
inductive Sequence : Bool → Text → Prop
  | nil {commas : Bool} : Sequence commas []
  | plain {commas : Bool} {b : UInt8} {rest : Text} (hb : isPlain b = true) (hrest : Sequence commas rest) :
      Sequence commas (b :: rest)
  | comma {rest : Text} (hrest : Sequence true rest) : Sequence true (44 :: rest)
  | literal {commas : Bool} {quote : UInt8} {body rest : Text} (hquote : isQuote quote = true)
      (hbody : LiteralBody quote body) (hrest : Sequence commas rest) :
      Sequence commas (quote :: (body ++ quote :: rest))
  | group {commas : Bool} {opening closing : UInt8} {content rest : Text}
      (hbrackets : Brackets opening closing) (hcontent : Sequence true content)
      (hrest : Sequence commas rest) : Sequence commas (opening :: (content ++ closing :: rest))

variable {commas : Bool} {quote b : UInt8} {t body pattern lead part opening args : Text}

/-- Plain bytes are a sequence. -/
theorem Sequence.of_plain (h : ∀ b ∈ t, isPlain b = true) : Sequence commas t := by
  induction t with
  | nil => exact .nil
  | cons b t ih =>
    obtain ⟨hb, ht⟩ := List.forall_mem_cons.mp h
    exact .plain hb (ih ht)

/-- White space is plain, in all bytes of its code points. -/
theorem Sequence.of_allBlank (h : Blank.AllBlank t) : Sequence commas t :=
  .of_plain (h.forall_mem rfl)

/-- The plain bytes are those without a meaning for arguments. -/
theorem isPlain_iff : isPlain b = true ↔
    isQuote b = false ∧ isOpening b = false ∧ isClosing b = false ∧ b ≠ 44 := by
  simp [isPlain, and_assoc]

/-- The quote that a literal begins with ends it. -/
theorem LiteralBody.upToEnd_append (h : LiteralBody quote body) (hquote : isQuote quote = true) (depth : Nat)
    (t : Text) : upToEnd (some quote) depth (body ++ quote :: t) = body ++ quote :: upToEnd none depth t := by
  have hback : quote ≠ 92 := by
    rintro rfl
    exact absurd hquote (by decide)
  induction h with
  | nil =>
    rw [List.nil_append, upToEnd.eq_def]
    simp [hback]
  | byte hb hne _ ih =>
    rw [List.cons_append, upToEnd.eq_def]
    simp [hb, hne, ih]
  | escape _ ih =>
    rw [List.cons_append, List.cons_append, upToEnd.eq_def]
    simp [ih]

/-- A scan leaves a sequence in the state in which it entered it. A comma does not end the scan
where commas are allowed, since it is inside of a group there. -/
theorem Sequence.upToEnd_append (h : Sequence commas t) {depth : Nat} (hdepth : commas = true → 0 < depth)
    (tail : Text) : upToEnd none depth (t ++ tail) = t ++ upToEnd none depth tail := by
  induction h generalizing depth tail with
  | nil => rfl
  | plain hb _ ih =>
    have hkinds := isPlain_iff.mp hb
    rw [List.cons_append, upToEnd.eq_def]
    simp [hkinds, ih hdepth]
  | comma _ ih =>
    have hpos : depth ≠ 0 := Nat.ne_of_gt (hdepth rfl)
    rw [List.cons_append, upToEnd.eq_def]
    simp [isQuote, isOpening, isClosing, hpos, ih hdepth]
  | literal hquote hbody _ ih =>
    rw [List.cons_append, List.append_assoc, List.cons_append, upToEnd.eq_def]
    simp [hquote, hbody.upToEnd_append hquote, ih hdepth]
  | @group _ opening closing content rest hbrackets _ _ ihcontent ihrest =>
    have hopen : isQuote opening = false ∧ isOpening opening = true := by cases hbrackets <;> decide
    have hclose : isQuote closing = false ∧ isOpening closing = false ∧ isClosing closing = true := by
      cases hbrackets <;> decide
    -- the content is one bracket deeper, so that its commas are passed over
    have hinner : upToEnd none (depth + 1) (content ++ closing :: (rest ++ tail)) =
        content ++ closing :: upToEnd none depth (rest ++ tail) := by
      rw [ihcontent (fun _ => depth.succ_pos), upToEnd.eq_def]
      simp [hclose]
    rw [List.cons_append, List.append_assoc, List.cons_append, upToEnd.eq_def]
    simp [hopen, hinner, ihrest hdepth]

/-- An argument ends at a comma or at a closing bracket outside of groups. -/
theorem upToEnd_stop (hb : b = 44 ∨ isClosing b = true) (t : Text) : upToEnd none 0 (b :: t) = [] := by
  rw [upToEnd.eq_def]
  rcases hb with rfl | hb
  · simp [isQuote, isOpening, isClosing]
  · have hother : isQuote b = false ∧ isOpening b = false := by
      simp only [isClosing, Bool.or_eq_true, beq_iff_eq] at hb
      obtain (rfl | rfl) | rfl := hb <;> decide
    simp [hother, hb]

/-- The line consists of `lead`, `part` and `back`, where `part` is the first that equals the
pattern up to the case of ASCII letters. -/
structure OccursFirst (pattern line lead part back : Text) : Prop where
  split : line = lead ++ part ++ back
  same : part.lowerAscii = pattern.lowerAscii
  first : ∀ lead' part' back', line = lead' ++ part' ++ back' → part'.lowerAscii = pattern.lowerAscii →
    lead.length ≤ lead'.length

/-- What may stand between a pattern and the arguments of its call. -/
inductive Opens (pattern : Text) : Text → Prop
  | itself (hlast : pattern.getLast? = some 40) : Opens pattern []
  | behind {mid : Text} (hlast : pattern.getLast? ≠ some 40) (hmid : 40 ∉ mid) : Opens pattern (mid ++ [40])

/-- An occurrence is the first one if the pattern is found at no position before it. -/
theorem occursFirst_iff {line back : Text} : OccursFirst pattern line lead part back ↔
    line = lead ++ part ++ back ∧ part.lowerAscii = pattern.lowerAscii ∧
      ∀ k < lead.length, afterFolded? (line.drop k) pattern = none := by
  constructor
  · rintro ⟨hsplit, hsame, hfirst⟩
    refine ⟨hsplit, hsame, fun k hk => Option.eq_none_iff_forall_ne_some.mpr fun back' hback' => ?_⟩
    obtain ⟨part', hdrop, hsame'⟩ := afterFolded?_eq_some_iff.mp hback'
    have hsplit' : line = line.take k ++ part' ++ back' := by
      rw [List.append_assoc, ← hdrop, List.take_append_drop]
    have hle := hfirst _ _ _ hsplit' hsame'
    rw [List.length_take] at hle
    omega
  · rintro ⟨hsplit, hsame, hnone⟩
    refine ⟨hsplit, hsame, fun lead' part' back' hsplit' hsame' => Nat.le_of_not_lt fun hlt => ?_⟩
    have hdrop : line.drop lead'.length = part' ++ back' := by
      rw [hsplit', List.append_assoc, List.drop_left]
    have hsome := afterFolded?_eq_some_iff.mpr ⟨part', hdrop, hsame'⟩
    rw [hnone _ hlt] at hsome
    contradiction

/-- What comes after the first occurrence is found. -/
theorem OccursFirst.afterFirst?_eq {line back : Text} (h : OccursFirst pattern line lead part back) :
    afterFirst? pattern line = some back := by
  obtain ⟨hsplit, hsame, hnone⟩ := occursFirst_iff.mp h
  rw [List.append_assoc] at hsplit
  rw [hsplit] at hnone ⊢
  exact Scan.first?_append hnone (afterFolded?_eq_some_iff.mpr ⟨part, rfl, hsame⟩)

/-- The arguments of a call come behind the pattern and the opening bracket. -/
theorem callTail?_eq {line : Text} (h : OccursFirst pattern line lead part (opening ++ args))
    (hopening : Opens pattern opening) : callTail? line pattern = some args := by
  have hends : pattern.endsWith "(" = true ↔ pattern.getLast? = some 40 := Text.endsWith_singleton_iff
  simp only [callTail?, h.afterFirst?_eq, Option.bind_eq_bind, Option.bind_some, hends]
  cases hopening with
  | itself hlast => simp [hlast]
  | behind hlast hmid => simp [hlast, Text.cutAt?_append hmid]

/-- The first argument of a call is recovered from its line: whatever stands before the pattern, around
the argument and behind the byte that ends it. -/
theorem first?_recovers {line before e after rest : Text} {stop : UInt8}
    (hcall : OccursFirst pattern line lead part (opening ++ (before ++ e ++ after ++ stop :: rest)))
    (hopening : Opens pattern opening) (hbefore : Blank.AllBlank before) (hafter : Blank.AllBlank after)
    (he : Sequence false e) (hne : e ≠ []) (hbare : Blank.Bare e) (hlast : e.getLast? ≠ some 59)
    (hstop : stop = 44 ∨ isClosing stop = true) : first? line pattern = some e := by
  have hend : upToEnd none 0 (before ++ e ++ after ++ stop :: rest) = before ++ e ++ after := by
    have hseqBefore : Sequence false before := .of_allBlank hbefore
    have hseqAfter : Sequence false after := .of_allBlank hafter
    simp only [List.append_assoc]
    rw [hseqBefore.upToEnd_append (by simp), he.upToEnd_append (by simp), hseqAfter.upToEnd_append (by simp),
      upToEnd_stop hstop, List.append_nil]
  have htail : Text.dropTail e ";" = e := by
    have hends : ¬e.endsWith ";" = true := fun h => hlast (Text.endsWith_singleton_iff.mp h)
    rw [Text.dropTail, if_neg hends]
  have htrim : Blank.trim (before ++ e ++ after) = e := Blank.trim_between hbare hne hbefore hafter
  have hargs := callTail?_eq hcall hopening
  simp only [first?, hargs, Option.bind_eq_bind, Option.bind_some, hend, htrim, htail]
  simp [hne]

/-- An argument with an escaped quote, and with commas and brackets in literals and in groups. -/
def nestedArgument : Text := "\"a\\\",\" + f(b, [')'])"

/-- It is recovered from a call in another spelling than the pattern's, where the parenthesis is not and
where it is part of the pattern. -/
theorem first?_recovers_nested :
    first? ("db.QUERY (\t" ++ nestedArgument ++ " , c);") "query" = some nestedArgument ∧
    first? ("db.QUERY(" ++ nestedArgument ++ ")") "query(" = some nestedArgument := by
  have hquoted : LiteralBody 34 [97, 92, 34, 44] :=
    .byte (by decide) (by decide) (.escape (.byte (by decide) (by decide) .nil))
  have hbracket : Sequence true [39, 41, 39] := .literal rfl (.byte (by decide) (by decide) .nil) .nil
  have hcontent : Sequence true [98, 44, 32, 91, 39, 41, 39, 93] :=
    .plain rfl (.comma (.plain rfl (.group .square hbracket .nil)))
  have he : Sequence false nestedArgument :=
    .literal rfl hquoted (.plain rfl (.plain rfl (.plain rfl (.plain rfl (.group .round hcontent .nil)))))
  have hbare : Blank.Bare nestedArgument := by decide
  constructor
  · have hcall : OccursFirst "query" ("db.QUERY (\t" ++ nestedArgument ++ " , c);") "db." "QUERY"
        ([32] ++ [40] ++ ([9] ++ nestedArgument ++ [32] ++ 44 :: " c);")) :=
      occursFirst_iff.mpr ⟨rfl, rfl, by decide⟩
    have hopening : Opens "query" ([32] ++ [40]) := .behind (by decide) (by decide)
    exact first?_recovers hcall hopening ⟨[[9]], by decide, rfl⟩ ⟨[[32]], by decide, rfl⟩ he (by decide)
      hbare (by decide) (by decide)
  · have hnone : Blank.AllBlank [] := ⟨[], by decide, rfl⟩
    have hcall : OccursFirst "query(" ("db.QUERY(" ++ nestedArgument ++ ")") "db." "QUERY("
        ([] ++ ([] ++ nestedArgument ++ [] ++ 41 :: [])) :=
      occursFirst_iff.mpr ⟨rfl, rfl, by decide⟩
    exact first?_recovers hcall (.itself (by decide)) hnone hnone he (by decide) hbare (by decide) (by decide)

end Argument

end ClassAtlas
