import ClassAtlas.Proofs.Trace.FirstArgument
import Mathlib.Data.List.Basic

namespace ClassAtlas.Argument

variable {declared : Declarations} {quote : Option UInt8} {depth : Nat} {sums : Bool} {b : UInt8}
  {t body value before after : Text}

/-- Where the scan for plus signs stands at the end of a text: the quote of the literal that is still
open, and the depth of parentheses. -/
def scanEnd : Option UInt8 → Nat → Text → Option UInt8 × Nat
  | quote, depth, [] => (quote, depth)
  | some close, depth, c :: rest =>
    if c == 92 then
      match rest with
      | [] => (some close, depth)
      | _ :: rest' => scanEnd (some close) depth rest'
    else scanEnd (if c == close then none else some close) depth rest
  | none, depth, c :: rest =>
    if isQuote c then scanEnd (some c) depth rest
    else if c == 40 then scanEnd none (depth + 1) rest
    else if c == 41 then scanEnd none (depth - 1) rest
    else scanEnd none depth rest

/-- Inside of a literal only its own quote matters, and a backslash. -/
theorem operandsGo_literal (hb : b ≠ 92) (close : UInt8) (depth : Nat) (operand t : Text) :
    operandsGo (some close) depth operand (b :: t) =
      operandsGo (if b == close then none else some close) depth (b :: operand) t := by
  rw [operandsGo.eq_def]
  simp [hb]

/-- Behind a text that leaves no literal and no parenthesis open, a plus sign begins the next operand. -/
theorem operandsGo_append_plus (h : scanEnd quote depth t = (none, 0)) (operand rest : Text) :
    operandsGo quote depth operand (t ++ 43 :: rest) = operandsGo quote depth operand t ++ operands rest := by
  fun_induction operandsGo quote depth operand t with
  | case1 =>
    obtain ⟨rfl, rfl⟩ := Prod.mk.inj h
    simp [operandsGo, operands, isQuote]
  | case2 =>
    rw [scanEnd.eq_def] at h
    simp_all
  | case3 _ _ _ c hc _ _ ih =>
    obtain rfl : c = 92 := by simpa using hc
    exact ih h
  | case4 _ _ _ _ _ hc ih =>
    rw [scanEnd.eq_def] at h
    simp only [beq_iff_eq] at hc
    rw [List.cons_append, operandsGo_literal hc, ih (by simpa [hc] using h)]
  | _ =>
    rw [scanEnd.eq_def] at h
    rw [List.cons_append, operandsGo]
    simp_all

/-- A byte that is no quote, no parenthesis and no plus sign. -/
def isSimple (b : UInt8) : Bool := !isQuote b && b != 40 && b != 41 && b != 43

/-- Simple bytes, literals and groups in parentheses. Plus signs may stand in groups, and outside of them
if they are allowed. -/
inductive Balanced : Bool → Text → Prop
  | nil {sums : Bool} : Balanced sums []
  | byte {sums : Bool} {b : UInt8} {rest : Text} (hb : isSimple b = true) (hrest : Balanced sums rest) :
      Balanced sums (b :: rest)
  | plus {rest : Text} (hrest : Balanced true rest) : Balanced true (43 :: rest)
  | literal {sums : Bool} {quote : UInt8} {body rest : Text} (hquote : isQuote quote = true)
      (hbody : LiteralBody quote body) (hrest : Balanced sums rest) :
      Balanced sums (quote :: (body ++ quote :: rest))
  | group {sums : Bool} {content rest : Text} (hcontent : Balanced true content)
      (hrest : Balanced sums rest) : Balanced sums (40 :: (content ++ 41 :: rest))

/-- Bytes without a quote, a parenthesis or a plus sign are balanced. -/
theorem Balanced.of_simple (h : ∀ b ∈ t, isSimple b = true) : Balanced sums t := by
  induction t with
  | nil => exact .nil
  | cons b t ih =>
    obtain ⟨hb, ht⟩ := List.forall_mem_cons.mp h
    exact .byte hb (ih ht)

/-- The scan takes the body of a literal as it is and goes on behind the closing quote. -/
theorem LiteralBody.operandsGo_append {close : UInt8} (h : LiteralBody close body) (hclose : isQuote close = true)
    (depth : Nat) (operand rest : Text) : operandsGo (some close) depth operand (body ++ close :: rest) =
      operandsGo none depth (close :: (body.reverse ++ operand)) rest := by
  have hback : close ≠ 92 := by
    rintro rfl
    exact absurd hclose (by decide)
  induction h generalizing operand with
  | nil =>
    rw [List.nil_append, operandsGo_literal hback]
    simp
  | byte hb hne _ ih =>
    rw [List.cons_append, operandsGo_literal hb]
    simp [hne, ih]
  | escape _ ih =>
    rw [List.cons_append, List.cons_append, operandsGo]
    simp [ih]

/-- The scan passes over what is balanced and adds it to the operand. A plus sign does not end the operand
where plus signs are allowed, since it is inside of a group there. -/
theorem Balanced.operandsGo_append (h : Balanced sums t) {depth : Nat} (hdepth : sums = true → 0 < depth)
    (operand rest : Text) :
    operandsGo none depth operand (t ++ rest) = operandsGo none depth (t.reverse ++ operand) rest := by
  induction h generalizing depth operand rest with
  | nil => rfl
  | byte hb _ ih =>
    simp only [isSimple, Bool.and_eq_true, Bool.not_eq_true', bne_iff_ne, ne_eq] at hb
    rw [List.cons_append, operandsGo]
    simp [hb, ih hdepth]
  | plus _ ih =>
    have hpos : depth ≠ 0 := Nat.ne_of_gt (hdepth rfl)
    rw [List.cons_append, operandsGo]
    simp [isQuote, hpos, ih hdepth]
  | literal hquote hbody _ ih =>
    rw [List.cons_append, List.append_assoc, List.cons_append, operandsGo]
    simp [hquote, hbody.operandsGo_append hquote, ih hdepth]
  | group _ _ ihcontent ihrest =>
    rw [List.cons_append, List.append_assoc, List.cons_append, operandsGo]
    simp only [isQuote, ihcontent fun _ => depth.succ_pos]
    rw [if_neg (by decide), if_pos (by decide), operandsGo]
    simp [isQuote, ihrest hdepth]

/-- Blanks around an operand do not change what it stands for. -/
theorem operandValue_between (declared : Declarations) (hbefore : Blank.AllBlank before) (t : Text)
    (hafter : Blank.AllBlank after) : operandValue declared (before ++ t ++ after) = operandValue declared t := by
  simp only [operandValue, Blank.trim_append_append hbefore t hafter]

/-- A byte that the scan passes over wherever it stands. -/
def isInert (b : UInt8) : Bool := isSimple b && b != 92

/-- The scan passes over blanks. -/
theorem isInert_of_allBlank (h : Blank.AllBlank t) : ∀ b ∈ t, isInert b = true := h.forall_mem rfl

/-- Blanks are balanced. -/
theorem Balanced.of_allBlank (h : Blank.AllBlank t) : Balanced sums t :=
  .of_simple fun _ hb => (Bool.and_eq_true_iff.mp (isInert_of_allBlank h _ hb)).1

/-- Bytes that the scan passes over become one operand, with what was read before, in a literal or not. -/
theorem operandsGo_of_inert (h : ∀ b ∈ t, isInert b = true) (quote : Option UInt8) (depth : Nat)
    (operand : Text) : operandsGo quote depth operand t = [operand.reverse ++ t] := by
  induction t generalizing quote operand with
  | nil => simp [operandsGo]
  | cons b t ih =>
    obtain ⟨hb, ht⟩ := List.forall_mem_cons.mp h
    simp only [isInert, isSimple, Bool.and_eq_true, Bool.not_eq_true', bne_iff_ne, ne_eq] at hb
    cases quote with
    | some close =>
      rw [operandsGo_literal hb.2, ih ht]
      simp
    | none =>
      rw [operandsGo]
      simp [hb, ih ht]

/-- Blanks behind an expression do not change its value, whatever is still open at its end. -/
theorem flatMap_operandsGo_append (hafter : Blank.AllBlank after) (quote : Option UInt8) (depth : Nat)
    (operand t : Text) : (operandsGo quote depth operand (t ++ after)).flatMap (operandValue declared) =
      (operandsGo quote depth operand t).flatMap (operandValue declared) := by
  have hinert := isInert_of_allBlank hafter
  have hvalue : ∀ operand, operandValue declared (operand ++ after) = operandValue declared operand :=
    fun operand => operandValue_between declared Blank.AllBlank.nil operand hafter
  fun_induction operandsGo quote depth operand t with
  | case1 => simp [operandsGo_of_inert hinert, hvalue]
  | case2 close depth operand c hc =>
    -- the backslash takes the first byte behind the expression with it
    cases after with
    | nil => simp [operandsGo, hc]
    | cons a after =>
      obtain ⟨-, hrest⟩ := List.forall_mem_cons.mp hinert
      have hshown := hvalue (operand.reverse ++ [c])
      simp only [List.append_assoc, List.singleton_append] at hshown
      simp [operandsGo, hc, operandsGo_of_inert hrest, hshown]
  | case3 _ _ _ c hc _ _ ih =>
    obtain rfl : c = 92 := by simpa using hc
    exact ih
  | case4 _ _ _ _ _ hc ih =>
    simp only [beq_iff_eq] at hc
    rw [List.cons_append, operandsGo_literal hc, ih]
  | _ =>
    rw [List.cons_append, operandsGo]
    simp only [*, if_true, if_false, Bool.false_eq_true, List.flatMap_cons]

/-- Blanks before the first operand do not change the value of an expression. -/
theorem flatMap_operandsGo_blank (hbefore : Blank.AllBlank before) (quote : Option UInt8) (depth : Nat)
    (operand t : Text) :
    (operandsGo quote depth (operand ++ before.reverse) t).flatMap (operandValue declared) =
      (operandsGo quote depth operand t).flatMap (operandValue declared) := by
  have hvalue : ∀ operand, operandValue declared (before ++ operand) = operandValue declared operand := by
    intro operand
    simpa using operandValue_between declared hbefore operand Blank.AllBlank.nil
  fun_induction operandsGo quote depth operand t with
  | case1 => simp [operandsGo, hvalue]
  | case2 _ _ _ _ hc => simp [operandsGo, hc, hvalue]
  | case3 _ _ _ c hc _ _ ih =>
    obtain rfl : c = 92 := by simpa using hc
    exact ih
  | case4 _ _ _ _ _ hc ih =>
    simp only [beq_iff_eq] at hc
    rw [operandsGo_literal hc, ← ih, List.cons_append]
  | _ =>
    rw [operandsGo]
    simp_all only [if_true, if_false, Bool.false_eq_true, List.cons_append, List.reverse_append,
      List.reverse_reverse, List.flatMap_cons]

/-- A text is unquoted if it stands between two quotes and has no quote of its own without a backslash. -/
theorem unquote?_eq_some_iff :
    unquote? t = some body ↔ t = 34 :: (body ++ [34]) ∧ hasBareQuote body = false := by
  cases t with
  | nil => simp [unquote?]
  | cons b inner =>
    have hstart : Text.startsWith (b :: inner) "\"" = true ↔ b = 34 := by
      change (34 == b && true) = true ↔ b = 34
      rw [Bool.and_true, beq_iff_eq, eq_comm]
    have hend : Text.endsWith (b :: inner) "\"" = true ↔ (b :: inner).getLast? = some 34 :=
      Text.endsWith_singleton_iff
    simp only [unquote?, Option.ite_none_right_eq_some, Option.some.injEq, Bool.and_eq_true, Bool.not_eq_true',
      List.isEmpty_eq_false_iff, hstart, hend, List.cons.injEq]
    constructor
    · rintro ⟨⟨⟨⟨rfl, hne⟩, hlast⟩, hbare⟩, rfl⟩
      rw [List.getLast?_cons_of_ne_nil hne] at hlast
      exact ⟨⟨rfl, (List.dropLast_append_getLast? _ hlast).symm⟩, hbare⟩
    · rintro ⟨⟨rfl, rfl⟩, hbare⟩
      simp [hbare, List.getLast?_cons]

/-- Without a bare quote inside, a quoted text is one operand. Its last quote may be escaped. -/
theorem operandsGo_of_not_hasBareQuote (h : hasBareQuote body = false) (depth : Nat) (operand : Text) :
    operandsGo (some 34) depth operand (body ++ [34]) = [operand.reverse ++ body ++ [34]] := by
  fun_induction hasBareQuote body generalizing operand with
  | case1 => simp [operandsGo]
  | case2 c hc => simp [operandsGo, hc]
  | case3 c hc d rest ih =>
    obtain rfl : c = 92 := by simpa using hc
    rw [List.cons_append, List.cons_append, operandsGo]
    simp [ih h]
  | case4 c rest hc ih =>
    simp only [beq_iff_eq] at hc
    simp only [Bool.or_eq_false_iff, beq_eq_false_iff_ne] at h
    rw [List.cons_append, operandsGo_literal hc]
    simp [h.1, ih h.2]

/-- The value of an expression is put together from its operands, also if it is one literal. -/
theorem resolve_eq_flatMap (declared : Declarations) (t : Text) :
    resolve declared t = (operands t).flatMap (operandValue declared) := by
  obtain ⟨before, after, hbefore, hafter, ht⟩ := Blank.exists_trim t
  have htrimmed : resolve declared t = (operands (Blank.trim t)).flatMap (operandValue declared) := by
    cases hbody : unquote? (Blank.trim t) with
    | none => simp only [resolve, hbody]
    | some body =>
      obtain ⟨hquoted, hbare⟩ := unquote?_eq_some_iff.mp hbody
      have hone : operands (Blank.trim t) = [Blank.trim t] := by
        rw [hquoted, operands, operandsGo]
        simp [isQuote, operandsGo_of_not_hasBareQuote hbare]
      have hne : (Blank.trim t).isEmpty = false := by simp [hquoted]
      simp [resolve, hone, operandValue, (Blank.bare_trim t).trim_eq_self, hne, hbody]
  have hblank : Balanced false before := .of_allBlank hbefore
  calc resolve declared t
    _ = (operands (Blank.trim t)).flatMap (operandValue declared) := htrimmed
    _ = (operandsGo none 0 before.reverse (Blank.trim t)).flatMap (operandValue declared) := by
      exact (flatMap_operandsGo_blank hbefore none 0 [] (Blank.trim t)).symm
    _ = (operands (before ++ Blank.trim t)).flatMap (operandValue declared) := by
      rw [operands, hblank.operandsGo_append (by simp), List.append_nil]
    _ = (operands t).flatMap (operandValue declared) := by
      rw [operands, ← flatMap_operandsGo_append hafter, ← ht, operands]

/-- The body of a literal has no quote without a backslash, and does not end inside of an escape. -/
theorem LiteralBody.hasBareQuote_append (h : LiteralBody 34 body) (t : Text) :
    hasBareQuote (body ++ t) = hasBareQuote t := by
  induction h with
  | nil => rfl
  | byte hb hne _ ih =>
    rw [List.cons_append, hasBareQuote.eq_def]
    simp [hb, hne, ih]
  | escape _ ih =>
    rw [List.cons_append, List.cons_append, hasBareQuote.eq_def]
    simp [ih]

/-- A string literal. -/
def IsLiteral (t : Text) : Prop := ∃ body, LiteralBody 34 body ∧ t = 34 :: (body ++ [34])

/-- An operand other than a string literal. It has no plus sign outside of groups and literals, and begins
and ends with no blank. -/
structure IsTerm (t : Text) : Prop where
  balanced : Balanced false t
  nonempty : t ≠ []
  bare : Blank.Bare t
  noLiteral : ¬IsLiteral t

/-- Names are terms: all their bytes are simple. -/
theorem IsTerm.of_simple (h : ∀ b ∈ t, isSimple b = true) (hne : t ≠ []) (hbare : Blank.Bare t) : IsTerm t := by
  refine ⟨.of_simple h, hne, hbare, ?_⟩
  rintro ⟨body, -, rfl⟩
  exact absurd (h 34 (by simp)) (by decide)

/-- `t` is a declared name, possibly with `this.` before it. -/
inductive Names (declared : Declarations) : Text → Text → Prop
  | plain {name value : Text} (hthis : ¬Text.ofString "this." <+: name)
      (hvalue : declared.find? name = some value) : Names declared name value
  | qualified {name value : Text} (hvalue : declared.find? name = some value) :
      Names declared ("this." ++ name) value

/-- What an operand stands for. -/
inductive Denotes (declared : Declarations) : Text → Text → Prop
  | literal {body : Text} (hbody : LiteralBody 34 body) : Denotes declared (34 :: (body ++ [34])) body
  | name {t value : Text} (ht : IsTerm t) (hname : Names declared t value) : Denotes declared t value
  | other {t : Text} (ht : IsTerm t) (hname : ∀ value, ¬Names declared t value) :
      Denotes declared t ("[" ++ t ++ "]")

/-- A text is a name for a value if the value is declared under it, without the `this.` that may stand
before it. -/
theorem names_iff : Names declared t value ↔ declared.find? (t.dropLead "this.") = some value := by
  constructor
  · intro h
    cases h with
    | plain hthis hvalue => rwa [Text.dropLead_of_not_prefix hthis]
    | qualified hvalue => rwa [Text.dropLead_append]
  · intro h
    by_cases hthis : Text.ofString "this." <+: t
    · obtain ⟨name, rfl⟩ := hthis
      rw [Text.dropLead_append] at h
      exact .qualified h
    · rw [Text.dropLead_of_not_prefix hthis] at h
      exact .plain hthis h

/-- A term in quotes would begin with a literal that ends before the last quote, at a bare quote. -/
theorem IsTerm.unquote?_eq_none (h : IsTerm t) : unquote? t = none := by
  refine Option.eq_none_iff_forall_ne_some.mpr fun body hbody => ?_
  obtain ⟨hquoted, hbare⟩ := unquote?_eq_some_iff.mp hbody
  cases h.balanced with
  | nil => contradiction
  | byte hb =>
    obtain ⟨rfl, -⟩ := List.cons.inj hquoted
    exact absurd hb (by decide)
  | group => exact absurd (List.cons.inj hquoted).1 (by decide)
  | @literal _ quote first rest hquote hfirst =>
    obtain ⟨rfl, hinner⟩ := List.cons.inj hquoted
    rcases List.eq_nil_or_concat rest with rfl | ⟨rest, last, rfl⟩
    · exact h.noLiteral ⟨first, hfirst, rfl⟩
    · have hcut : (first ++ 34 :: rest) ++ [last] = body ++ [34] := by simpa using hinner
      obtain ⟨rfl, -⟩ := List.append_inj' hcut rfl
      rw [hfirst.hasBareQuote_append, hasBareQuote.eq_def] at hbare
      simp at hbare

/-- A literal begins and ends with its quotes, so with no blank. -/
theorem bare_literal (body : Text) : Blank.Bare (34 :: (body ++ [34])) := by
  intro w hw
  have hquote : 34 ∉ w := fun hmem => absurd (isInert_of_allBlank hw.allBlank 34 hmem) (by decide)
  obtain ⟨b, rest, hbytes, -⟩ := hw.eq_cons
  constructor
  · rintro ⟨more, hmore⟩
    rw [hbytes] at hmore hquote
    exact hquote (by simp [(List.cons.inj hmore).1])
  · rintro ⟨front, hfront⟩
    have hlast : w.getLast? = some 34 := by
      have hends := congrArg List.getLast? hfront
      rwa [List.getLast?_append_of_ne_nil _ (by simp [hbytes]), ← List.cons_append, List.getLast?_concat] at hends
    exact hquote (List.mem_of_getLast? hlast)

/-- The value of an operand is what it stands for. -/
theorem Denotes.operandValue_eq (h : Denotes declared t value) : operandValue declared t = value := by
  cases h with
  | literal hbody =>
    have hbare : hasBareQuote value = false := by simpa [hasBareQuote] using hbody.hasBareQuote_append []
    have hunquote := unquote?_eq_some_iff.mpr ⟨rfl, hbare⟩
    simp [operandValue, (bare_literal value).trim_eq_self, hunquote]
  | name ht hname =>
    simp [operandValue, ht.bare.trim_eq_self, ht.nonempty, ht.unquote?_eq_none, names_iff.mp hname]
  | other ht hname =>
    have hfind : declared.find? (t.dropLead "this.") = none :=
      Option.eq_none_iff_forall_ne_some.mpr fun value hvalue => hname value (names_iff.mpr hvalue)
    simp [operandValue, ht.bare.trim_eq_self, ht.nonempty, ht.unquote?_eq_none, hfind]

/-- What stands for something has no plus sign outside of groups and literals. -/
theorem Denotes.balanced (h : Denotes declared t value) : Balanced false t := by
  cases h with
  | literal hbody => exact .literal rfl hbody .nil
  | name ht => exact ht.balanced
  | other ht => exact ht.balanced

/-- An operand with the blanks around it, and what it stands for. -/
structure Operand (declared : Declarations) where
  before : Text
  term : Text
  after : Text
  value : Text
  blankBefore : Blank.AllBlank before
  blankAfter : Blank.AllBlank after
  denotes : Denotes declared term value

namespace Operand

/-- The operand as it is written. -/
def text (o : Operand declared) : Text := o.before ++ o.term ++ o.after

/-- The value of an operand as it is written is what it stands for, with any blanks around it. -/
theorem operandValue_text (o : Operand declared) : operandValue declared o.text = o.value := by
  rw [text, operandValue_between declared o.blankBefore o.term o.blankAfter, o.denotes.operandValue_eq]

/-- The scan takes the whole operand before it looks at what follows. -/
theorem operandsGo_text (o : Operand declared) (rest : Text) :
    operandsGo none 0 [] (o.text ++ rest) = operandsGo none 0 o.text.reverse rest := by
  have hbefore : Balanced false o.before := .of_allBlank o.blankBefore
  have hafter : Balanced false o.after := .of_allBlank o.blankAfter
  simp only [text, List.append_assoc]
  rw [hbefore.operandsGo_append (by simp), o.denotes.balanced.operandsGo_append (by simp),
    hafter.operandsGo_append (by simp)]
  simp

/-- A single operand is resolved to what it stands for. -/
theorem resolve_text (o : Operand declared) : resolve declared o.text = o.value := by
  have hone : operands o.text = [o.text] := by
    have hgo := o.operandsGo_text []
    simpa [operandsGo, operands] using hgo
  rw [resolve_eq_flatMap, hone, List.flatMap_singleton, operandValue_text]

/-- An operand before a plus sign is resolved on its own, and the rest on its own. -/
theorem resolve_text_plus (o : Operand declared) (rest : Text) :
    resolve declared (o.text ++ 43 :: rest) = o.value ++ resolve declared rest := by
  have hcut : operands (o.text ++ 43 :: rest) = o.text :: operands rest := by
    rw [operands, operandsGo_text, operandsGo]
    simp [isQuote, operands]
  rw [resolve_eq_flatMap, hcut, List.flatMap_cons, operandValue_text, ← resolve_eq_flatMap]

end Operand

/-- The value of a concatenation is the concatenation of the values: at every plus sign behind an expression
that leaves no literal and no parenthesis open, and for operands of all kinds joined by plus signs. -/
theorem resolve_concatenates (declared : Declarations) :
    (∀ left right : Text, scanEnd none 0 left = (none, 0) →
      resolve declared (left ++ "+" ++ right) = resolve declared left ++ resolve declared right) ∧
    ∀ os : List (Operand declared),
      resolve declared (Text.join "+" (os.map (·.text))) = os.flatMap (·.value) := by
  constructor
  · intro left right hleft
    have hcut : operands (left ++ 43 :: right) = operands left ++ operands right :=
      operandsGo_append_plus hleft [] right
    have hplus : left ++ Text.ofString "+" ++ right = left ++ 43 :: right := List.append_assoc ..
    rw [hplus, resolve_eq_flatMap, hcut, List.flatMap_append, ← resolve_eq_flatMap, ← resolve_eq_flatMap]
  · intro os
    induction os with
    | nil => rfl
    | cons o os ih =>
      cases os with
      | nil => simp [Text.join, o.resolve_text]
      | cons o' os =>
        have hjoin : Text.join "+" ((o :: o' :: os).map (·.text)) =
            o.text ++ 43 :: Text.join "+" ((o' :: os).map (·.text)) := rfl
        rw [hjoin, o.resolve_text_plus, ih]
        exact List.flatMap_cons.symm

/-- Two constants. -/
def twoConstants : Declarations :=
  Declarations.declare (Declarations.declare SortedMap.empty "BASE" "/a") "PATH" "/p"

/-- A literal with an escaped quote, a plus sign and a parenthesis in it. -/
def quotedOperand : Text := "\"x\\\"+(\""

/-- A call with a plus sign and a literal parenthesis among its arguments. -/
def callOperand : Text := "f(a + ')')"

/-- The literal stands for its body as it is written, with the backslash. -/
theorem denotes_quotedOperand : Denotes twoConstants quotedOperand "x\\\"+(" :=
  .literal (.byte (by decide) (by decide) (.escape (.byte (by decide) (by decide)
    (.byte (by decide) (by decide) .nil))))

/-- A name may have `this.` before it. -/
theorem denotes_base : Denotes twoConstants "this.BASE" "/a" :=
  .name (.of_simple (List.all_eq_true.mp rfl) (by decide) (by decide)) (names_iff.mpr rfl)

/-- A name stands for its declared value. -/
theorem denotes_path : Denotes twoConstants "PATH" "/p" :=
  .name (.of_simple (List.all_eq_true.mp rfl) (by decide) (by decide)) (names_iff.mpr rfl)

/-- A call stands for itself in brackets. -/
theorem denotes_callOperand : Denotes twoConstants callOperand "[f(a + ')')]" := by
  have hcontent : Balanced true "a + ')'" :=
    .byte rfl (.byte rfl (.plus (.byte rfl (.literal rfl (.byte (by decide) (by decide) .nil) .nil))))
  refine .other ⟨.byte rfl (.group hcontent .nil), by decide, by decide, ?_⟩ fun value hvalue => ?_
  · rintro ⟨body, -, hbody⟩
    exact absurd (List.cons.inj hbody).1 (by decide)
  · have hfind : twoConstants.find? (callOperand.dropLead "this.") = none := rfl
    simp [names_iff.mp hvalue] at hfind

/-- A concatenation of constants, a literal and a call, with blanks of one and of two bytes around the operands,
cut at a plus sign and as a whole. -/
theorem resolve_concatenates_mixed :
    scanEnd none 0 ("this.BASE + " ++ quotedOperand) = (none, 0) ∧
    resolve twoConstants ("this.BASE + " ++ quotedOperand ++ "+" ++ callOperand) =
      resolve twoConstants ("this.BASE + " ++ quotedOperand) ++ resolve twoConstants callOperand ∧
    resolve twoConstants ("this.BASE +\t" ++ quotedOperand ++ "\u00a0+" ++ callOperand ++ "+PATH") =
      "/ax\\\"+([f(a + ')')]/p" := by
  have hnone : Blank.AllBlank [] := .nil
  have hspace : Blank.AllBlank [32] := ⟨[[32]], by decide, rfl⟩
  have htab : Blank.AllBlank [9] := ⟨[[9]], by decide, rfl⟩
  have hfixed : Blank.AllBlank [0xC2, 0xA0] := ⟨[[0xC2, 0xA0]], by decide, rfl⟩
  have hclosed : scanEnd none 0 ("this.BASE + " ++ quotedOperand) = (none, 0) := by decide
  refine ⟨hclosed, (resolve_concatenates twoConstants).1 _ _ hclosed, ?_⟩
  exact (resolve_concatenates twoConstants).2
    [⟨_, _, _, _, hnone, hspace, denotes_base⟩, ⟨_, _, _, _, htab, hfixed, denotes_quotedOperand⟩,
      ⟨_, _, _, _, hnone, hnone, denotes_callOperand⟩, ⟨_, _, _, _, hnone, hnone, denotes_path⟩]

end ClassAtlas.Argument
