import ClassAtlas.Trace.Argument
import ClassAtlas.Trace.Declaration
import Mathlib.Data.List.Count
import Mathlib.Data.List.Induction

namespace ClassAtlas.Comment

open Argument (isQuote)

/-- A comment starts with the byte `b`. -/
def opensComment (b : UInt8) (rest : Text) : Bool := b == 47 && (rest.head? == some 47 || rest.head? == some 42)

/-- A text without comments, read from a place in code or inside of a literal. A literal ends with its quote or with
the line; a byte behind a backslash does not end it. -/
inductive CommentFree : Place → Text → Prop
  | codeEnd : CommentFree .code []
  | codeByte {b : UInt8} {rest : Text} (hopens : opensComment b rest = false) (hquote : isQuote b = false)
      (h : CommentFree .code rest) : CommentFree .code (b :: rest)
  | opening {b : UInt8} {rest : Text} (hquote : isQuote b = true) (h : CommentFree (.literal b) rest) :
      CommentFree .code (b :: rest)
  | literalEnd {close : UInt8} : CommentFree (.literal close) []
  | backslash {close : UInt8} : CommentFree (.literal close) [92]
  | escaped {close b : UInt8} {rest : Text} (h : CommentFree (.literal close) rest) :
      CommentFree (.literal close) (92 :: b :: rest)
  | closing {close b : UInt8} {rest : Text} (hb : b ≠ 92) (hclose : b = close ∨ b = 10)
      (h : CommentFree .code rest) : CommentFree (.literal close) (b :: rest)
  | literalByte {close b : UInt8} {rest : Text} (hb : b ≠ 92) (hclose : ¬(b = close ∨ b = 10))
      (h : CommentFree (.literal close) rest) : CommentFree (.literal close) (b :: rest)

variable {place : Place} {t rest : Text} {b close : UInt8}

/-- Only a slash opens a comment. -/
theorem opensComment_of_ne (hb : b ≠ 47) (rest : Text) : opensComment b rest = false := by simp [opensComment, hb]

namespace CommentFree

/-- A byte other than a slash may stand before code, if the rest is free of comments either way. -/
theorem code_cons (hb : b ≠ 47) (hcode : CommentFree .code rest) (hliteral : CommentFree (.literal b) rest) :
    CommentFree .code (b :: rest) := by
  cases hquote : isQuote b with
  | true => exact .opening hquote hliteral
  | false => exact .codeByte (opensComment_of_ne hb rest) hquote hcode

/-- A byte other than a backslash may stand inside of a literal, if the rest is free of comments either
way. -/
theorem literal_cons (hb : b ≠ 92) (hcode : CommentFree .code rest) (hliteral : CommentFree (.literal close) rest) :
    CommentFree (.literal close) (b :: rest) := by
  by_cases hclose : b = close ∨ b = 10
  · exact .closing hb hclose hcode
  · exact .literalByte hb hclose hliteral

/-- Without a slash there is no comment, inside of a literal or not. -/
theorem of_notMem (h : Text.slash ∉ t) : CommentFree .code t ∧ ∀ close, CommentFree (.literal close) t := by
  -- a backslash inside of a literal takes the byte behind it along, so the induction goes by two bytes
  induction t using List.twoStepInduction with
  | nil => exact ⟨.codeEnd, fun _ => .literalEnd⟩
  | singleton b =>
    refine ⟨code_cons (Ne.symm (List.ne_of_not_mem_cons h)) .codeEnd .literalEnd, fun close => ?_⟩
    by_cases hb : b = 92
    · exact hb ▸ .backslash
    · exact literal_cons hb .codeEnd .literalEnd
  | cons_cons b c rest ih ihcons =>
    obtain ⟨hcode, hliteral⟩ := ihcons c fun hmem => h (List.mem_cons_of_mem b hmem)
    refine ⟨code_cons (Ne.symm (List.ne_of_not_mem_cons h)) hcode (hliteral b), fun close => ?_⟩
    by_cases hb : b = 92
    · obtain ⟨-, hlater⟩ := ih fun hmem => h (List.mem_cons_of_mem b (List.mem_cons_of_mem c hmem))
      exact hb ▸ .escaped (hlater close)
    · exact literal_cons hb hcode (hliteral close)

end CommentFree

/-- Where the text goes on behind a comment. -/
def Place.behind : Place → Place
  | .literal close => .literal close
  | _ => .code

/-- What the removal leaves of a text that is read from a place on. A first byte of code stays the first byte, unless
it is a slash. -/
structure Leaves (place : Place) (t out : Text) : Prop where
  free : CommentFree place.behind out
  newlines : out.count 10 = t.count 10
  head : place = .code → t.head? ≠ some 47 → out.head? = t.head?

/-- The result adds to what is kept what is left of a text. -/
def Adds (place : Place) (kept t result : Text) : Prop :=
  ∃ out, result = kept.reverse ++ out ∧ Leaves place t out

/-- One step reads `front` and writes `new`. -/
theorem Adds.step {next : Place} {kept result : Text} (front new : Text)
    (h : Adds next (new.reverse ++ kept) rest result) (hnewlines : new.count 10 = front.count 10)
    (hfree : ∀ out, CommentFree next.behind out → CommentFree place.behind (new ++ out))
    (hhead : place = .code → front.head? = some 47 ∨ ∃ b, front.head? = some b ∧ new.head? = some b) :
    Adds place kept (front ++ rest) result := by
  obtain ⟨out, rfl, hleaves⟩ := h
  refine ⟨new ++ out, by simp, hfree out hleaves.free, by simp [hnewlines, hleaves.newlines], ?_⟩
  intro hplace hslash
  rcases hhead hplace with hfront | ⟨b, hfront, hnew⟩
  · simp [List.head?_append, hfront] at hslash
  · simp [List.head?_append, hfront, hnew]

/-- A step that keeps the byte that it reads. -/
theorem Adds.keep {next : Place} {kept result : Text} (h : Adds next (b :: kept) rest result)
    (hfree : ∀ out, CommentFree next.behind out → CommentFree place.behind (b :: out)) :
    Adds place kept (b :: rest) result :=
  h.step [b] [b] rfl hfree fun _ => .inr ⟨b, rfl, rfl⟩

/-- A step inside of a comment or to the inside of one, which keeps nothing. -/
theorem Adds.skip {next : Place} {kept result : Text} (front : Text) (h : Adds next kept rest result)
    (hnewlines : front.count 10 = 0) (hbehind : place.behind = next.behind)
    (hhead : place = .code → front.head? = some 47) : Adds place kept (front ++ rest) result :=
  h.step front [] (by simp [hnewlines]) (fun out hout => hbehind ▸ hout) fun hplace => .inl (hhead hplace)

/-- Removing comments from any place on only adds to what is kept. -/
theorem adds_stripGo (place : Place) (kept t : Text) : Adds place kept t (stripGo place kept t) := by
  fun_induction stripGo place kept t with
  | case1 kept => exact ⟨[32], by simp, .codeByte rfl rfl .codeEnd, rfl, nofun⟩
  | case2 place kept hplace =>
    refine ⟨[], by simp, ?_, rfl, fun _ _ => rfl⟩
    cases place with
    | literal close => exact .literalEnd
    | _ => exact .codeEnd
  | case3 kept c hc =>
    obtain rfl : c = 47 := by simpa using hc
    exact ⟨[47], by simp, .codeByte rfl rfl .codeEnd, rfl, fun _ _ => rfl⟩
  | case4 kept c hc d rest hd ih =>
    obtain rfl : c = 47 := by simpa using hc
    obtain rfl : d = 47 := by simpa using hd
    exact ih.skip [47, 47] rfl rfl fun _ => rfl
  | case5 kept c hc d rest hslash hd ih =>
    obtain rfl : c = 47 := by simpa using hc
    obtain rfl : d = 42 := by simpa using hd
    exact ih.skip [47, 42] rfl rfl fun _ => rfl
  | case6 kept c hc d rest hslash hstar ih =>
    -- the byte behind the slash is kept too, and no comment can come in between
    obtain rfl : c = 47 := by simpa using hc
    obtain ⟨out, heq, hfree, hnewlines, hhead⟩ := ih
    have hfirst : out.head? = some d := hhead rfl (by simpa using hslash)
    refine ⟨47 :: out, by simp [heq], ?_, by simpa using hnewlines, by simp⟩
    refine .codeByte ?_ rfl hfree
    simp_all [opensComment]
  | case7 kept c rest hc hquote ih => exact ih.keep fun _ => .opening hquote
  | case8 kept c rest hc hquote ih =>
    have hother : c ≠ 47 := by simpa using hc
    exact ih.keep fun out => .codeByte (opensComment_of_ne hother out) (Bool.eq_false_iff.mpr hquote)
  | case9 close kept c hc d rest ih =>
    obtain rfl : c = 92 := by simpa using hc
    exact ih.step [92, d] [92, d] rfl (fun _ => .escaped) nofun
  | case10 close kept c hc =>
    obtain rfl : c = 92 := by simpa using hc
    exact ⟨[92], by simp, .backslash, rfl, nofun⟩
  | case11 close kept c rest hc hclose ih =>
    exact ih.keep fun _ => .closing (by simpa using hc) (by simpa using hclose)
  | case12 close kept c rest hc hclose ih =>
    exact ih.keep fun _ => .literalByte (by simpa using hc) (by simpa using hclose)
  | case13 kept c rest hc ih =>
    obtain rfl : c = 10 := by simpa using hc
    exact ih.keep fun _ => .codeByte rfl rfl
  | case14 kept c rest hc ih =>
    have hother : c ≠ 10 := by simpa using hc
    exact ih.skip [c] (by simp [hother]) rfl nofun
  | case15 kept c hc =>
    obtain rfl : c = 42 := by simpa using hc
    exact ⟨[32], by simp, .codeByte rfl rfl .codeEnd, rfl, nofun⟩
  | case16 kept c hc d rest hd ih =>
    obtain rfl : c = 42 := by simpa using hc
    obtain rfl : d = 47 := by simpa using hd
    exact ih.step [42, 47] [32] rfl (fun _ => .codeByte rfl rfl) nofun
  | case17 kept c hc d rest hd ih =>
    obtain rfl : c = 42 := by simpa using hc
    exact ih.skip [42] rfl rfl nofun
  | case18 kept c rest hstar hc ih =>
    obtain rfl : c = 10 := by simpa using hc
    exact ih.keep fun _ => .codeByte rfl rfl
  | case19 kept c rest hstar hc ih =>
    have hother : c ≠ 10 := by simpa using hc
    exact ih.skip [c] (by simp [hother]) rfl nofun

/-- What is left of any text has no comments, even if a comment or a literal does not end. -/
theorem leaves_strip (t : Text) : Leaves .code t (strip t) := by
  obtain ⟨out, hout, hleaves⟩ := adds_stripGo .code [] t
  rwa [strip, hout]

/-- A byte of code that opens nothing is kept. -/
theorem stripGo_of_not_opensComment (hopens : opensComment b rest = false) (hquote : isQuote b = false)
    (kept : Text) : stripGo .code kept (b :: rest) = stripGo .code (b :: kept) rest := by
  have hplain : (b == 34 || b == 39) = false := hquote
  rw [stripGo.eq_def]
  by_cases hb : b = 47
  · subst hb
    cases rest with
    | nil => simp [stripGo]
    | cons d rest =>
      obtain ⟨hslash, hstar⟩ : d ≠ 47 ∧ d ≠ 42 := by simpa [opensComment] using hopens
      simp [hslash, hstar]
  · simp [hb, hplain]

/-- A text without comments is left alone. -/
theorem stripGo_of_commentFree (h : CommentFree place t) (kept : Text) : stripGo place kept t = kept.reverse ++ t := by
  induction h generalizing kept with
  | codeEnd | literalEnd => simp [stripGo_nil]
  | backslash => simp [stripGo]
  | codeByte hopens hquote _ ih =>
    rw [stripGo_of_not_opensComment hopens hquote, ih]
    simp
  | @opening b rest hquote _ ih =>
    have hopen : b = 34 ∨ b = 39 := by simpa [isQuote] using hquote
    rw [stripGo.eq_def]
    rcases hopen with rfl | rfl <;> simp [ih]
  | escaped _ ih => simp [stripGo, ih]
  | closing hb hclose _ ih =>
    rw [stripGo.eq_def]
    simp [hb, hclose, ih]
  | literalByte hb hclose _ ih =>
    rw [stripGo.eq_def]
    simp [hb, hclose, ih]

/-- Exactly the texts without comments are left as they are. -/
theorem strip_eq_self_iff : strip t = t ↔ CommentFree .code t := by
  constructor
  · intro h
    rw [← h]
    exact (leaves_strip t).free
  · exact fun h => stripGo_of_commentFree h []

/-- The newlines of a block comment, and what is left behind its end. -/
def passBlock : Text → Text × Text
  | [] => ([], [])
  | b :: rest =>
    if b == 42 && rest.head? == some 47 then ([], rest.tail)
    else if b == 10 then (b :: (passBlock rest).1, (passBlock rest).2)
    else passBlock rest

/-- One turn of the loop, from the byte `c` on: what it writes, the quote of the literal in which it ends, and what is
left. A comment is passed over in one turn. -/
def turn (c : UInt8) (rest : Text) : Option UInt8 → Text × Option UInt8 × Text
  | some close =>
    if c == 92 then (c :: rest.take 1, some close, rest.tail)
    else ([c], if c == close || c == 10 then none else some close, rest)
  | none =>
    if isQuote c then ([c], some c, rest)
    else if c == 47 && rest.head? == some 47 then
      let line := rest.dropWhile (· != 10)
      (line.take 1, none, line.tail)
    else if c == 47 && rest.head? == some 42 then
      ((passBlock rest.tail).1 ++ [32], none, (passBlock rest.tail).2)
    else ([c], none, rest)

/-- What the loop has written when the text is used up, if that is within a number of turns. What is already written
is held in reverse. -/
def loop : Nat → Option UInt8 → Text → Text → Option Text
  | _, _, kept, [] => some kept.reverse
  | 0, _, _, _ :: _ => none
  | turns + 1, inside, kept, c :: rest =>
    let (new, next, left) := turn c rest inside
    loop turns next (new.reverse ++ kept) left

/-- The place in which the loop is between two turns. -/
def Place.ofQuote : Option UInt8 → Place
  | none => .code
  | some close => .literal close

/-- A line comment is read up to its newline, which is kept. -/
theorem stripGo_line (kept t : Text) : stripGo .line kept t =
    stripGo .code (((t.dropWhile (· != 10)).take 1).reverse ++ kept) (t.dropWhile (· != 10)).tail := by
  induction t with
  | nil => simp [stripGo_nil]
  | cons b rest ih =>
    by_cases hb : b = 10
    · simp [stripGo, hb]
    · simp [stripGo, hb, ih]

/-- A block comment is read up to its end or that of the text, and leaves its newlines and a space. -/
theorem stripGo_block (kept t : Text) : stripGo .block kept t =
    stripGo .code (((passBlock t).1 ++ [32]).reverse ++ kept) (passBlock t).2 := by
  fun_induction passBlock t generalizing kept with
  | case1 => simp [stripGo_nil]
  | case2 b rest hend =>
    obtain ⟨rfl, hslash⟩ : b = 42 ∧ rest.head? = some 47 := by simpa using hend
    obtain ⟨rest, rfl⟩ := List.head?_eq_some_iff.mp hslash
    simp [stripGo]
  | case3 b rest hend hb ih =>
    obtain rfl : b = 10 := by simpa using hb
    rw [stripGo.eq_def]
    simp [ih]
  | case4 b rest hend hb ih =>
    rw [← ih, stripGo.eq_def]
    cases rest with
    | nil => simp_all [stripGo]
    | cons d rest => simp_all

/-- No more is left behind a comment than there was. -/
theorem length_passBlock (t : Text) : (passBlock t).2.length ≤ t.length := by
  fun_induction passBlock t with
  | case1 => exact Nat.le_refl _
  | case2 b rest hend =>
    rw [List.length_tail, List.length_cons]
    omega
  | case3 b rest hend hb ih | case4 b rest hend hb ih => exact Nat.le_succ_of_le ih

/-- A turn does what reading the same bytes one by one does, and uses up at least one of them. -/
theorem stripGo_turn (c : UInt8) (rest kept : Text) (inside : Option UInt8) :
    stripGo (.ofQuote inside) kept (c :: rest) = stripGo (.ofQuote (turn c rest inside).2.1)
      ((turn c rest inside).1.reverse ++ kept) (turn c rest inside).2.2 ∧
      (turn c rest inside).2.2.length ≤ rest.length := by
  fun_cases turn c rest inside with
  | case1 close hc =>
    obtain rfl : c = 92 := by simpa using hc
    cases rest <;> simp [stripGo, Place.ofQuote]
  | case2 close hc =>
    refine ⟨?_, Nat.le_refl _⟩
    rw [Place.ofQuote, stripGo.eq_def]
    by_cases hclose : c = close ∨ c = 10 <;> simp_all [Place.ofQuote]
  | case3 hquote =>
    have hopen : c = 34 ∨ c = 39 := by simpa [isQuote] using hquote
    refine ⟨?_, Nat.le_refl _⟩
    rw [stripGo.eq_def]
    rcases hopen with rfl | rfl <;> rfl
  | case4 hquote hline line =>
    obtain ⟨rfl, hslash⟩ : c = 47 ∧ rest.head? = some 47 := by simpa using hline
    obtain ⟨rest, rfl⟩ := List.head?_eq_some_iff.mp hslash
    refine ⟨stripGo_line kept rest, ?_⟩
    have hle := (List.dropWhile_suffix (· != 10) (l := 47 :: rest)).length_le
    exact Nat.le_trans (by simp [line]) hle
  | case5 hquote hline hblock =>
    obtain ⟨rfl, hstar⟩ : c = 47 ∧ rest.head? = some 42 := by simpa using hblock
    obtain ⟨rest, rfl⟩ := List.head?_eq_some_iff.mp hstar
    exact ⟨stripGo_block kept rest, Nat.le_succ_of_le (length_passBlock rest)⟩
  | case6 hquote hline hblock =>
    have hopens : opensComment c rest = false := by
      rw [opensComment, Bool.and_or_distrib_left, Bool.or_eq_false_iff]
      exact ⟨Bool.eq_false_iff.mpr hline, Bool.eq_false_iff.mpr hblock⟩
    exact ⟨stripGo_of_not_opensComment hopens (Bool.eq_false_iff.mpr hquote) kept, Nat.le_refl _⟩

/-- The loop ends, and has written what is left of the text. -/
theorem loop_eq {turns : Nat} (hturns : t.length ≤ turns) (inside : Option UInt8) (kept : Text) :
    loop turns inside kept t = some (stripGo (.ofQuote inside) kept t) := by
  induction turns generalizing t inside kept with
  | zero =>
    obtain rfl : t = [] := by simpa using hturns
    cases inside <;> simp [loop, Place.ofQuote, stripGo_nil]
  | succ turns ih =>
    cases t with
    | nil => cases inside <;> simp [loop, Place.ofQuote, stripGo_nil]
    | cons c rest =>
      obtain ⟨hturn, hshorter⟩ := stripGo_turn c rest kept inside
      rw [hturn, loop]
      exact ih (Nat.le_trans hshorter (Nat.le_of_succ_le_succ hturns)) _ _

/-- The loop that removes comments ends after at most one turn for each byte. It keeps all newlines and leaves no
comment, so that doing it again changes nothing. It changes nothing in the first place exactly if there is no
comment, and in particular if there is no slash. -/
theorem strip_keeps_lines (t : Text) :
    (∀ turns, t.length ≤ turns → loop turns none [] t = some (strip t)) ∧
      (strip t).count Text.newline = t.count Text.newline ∧ CommentFree .code (strip t) ∧
      strip (strip t) = strip t ∧ (strip t = t ↔ CommentFree .code t) ∧ (Text.slash ∉ t → strip t = t) := by
  have hleaves := leaves_strip t
  exact ⟨fun turns hturns => loop_eq hturns none [], hleaves.newlines, hleaves.free, strip_eq_self_iff.mpr hleaves.free,
    strip_eq_self_iff, fun h => strip_eq_self_iff.mpr (CommentFree.of_notMem h).1⟩

end ClassAtlas.Comment
