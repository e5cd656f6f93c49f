import ClassAtlas.Text.Basic

namespace ClassAtlas

/-- A rune is a code point, or a byte that is part of no well-formed sequence. -/
inductive Rune where
  | scalar (code : Nat)
  | stray (byte : UInt8)
  deriving DecidableEq, Repr

namespace Utf8

/-- A continuation byte. -/
def isTail (b : UInt8) : Bool := 0x80 ≤ b && b ≤ 0xBF

/-- The two bytes encode a code point from U+0080 to U+07FF. -/
def isPair (a b : UInt8) : Bool := 0xC2 ≤ a && a ≤ 0xDF && isTail b

/-- The three bytes encode a code point from U+0800 to U+FFFF that is no surrogate. -/
def isTriple (a b c : UInt8) : Bool :=
  0xE0 ≤ a && a ≤ 0xEF && isTail b && isTail c && (a != 0xE0 || 0xA0 ≤ b) && (a != 0xED || b ≤ 0x9F)

/-- The four bytes encode a code point from U+10000 to U+10FFFF. -/
def isQuad (a b c d : UInt8) : Bool :=
  0xF0 ≤ a && a ≤ 0xF4 && isTail b && isTail c && isTail d && (a != 0xF0 || 0x90 ≤ b) &&
    (a != 0xF4 || b ≤ 0x8F)

/-- The payload of a continuation byte. -/
def tailBits (b : UInt8) : Nat := b.toNat % 64

/-- Splits off the first rune of a text. -/
def next? : Text → Option (Rune × Text)
  | [] => none
  | a :: r0 =>
    if a < 0x80 then some (.scalar a.toNat, r0)
    else match r0 with
      | [] => some (.stray a, r0)
      | b :: r1 =>
        if isPair a b then some (.scalar (a.toNat % 32 * 64 + tailBits b), r1)
        else match r1 with
          | [] => some (.stray a, r0)
          | c :: r2 =>
            if isTriple a b c then
              some (.scalar ((a.toNat % 16 * 64 + tailBits b) * 64 + tailBits c), r2)
            else match r2 with
              | [] => some (.stray a, r0)
              | d :: r3 =>
                if isQuad a b c d then
                  some (.scalar (((a.toNat % 8 * 64 + tailBits b) * 64 + tailBits c) * 64 +
                    tailBits d), r3)
                else some (.stray a, r0)

/-- The first rune takes up at least one byte. -/
theorem next?_shorter {t rest : Text} {r : Rune} (h : next? t = some (r, rest)) :
    rest.length < t.length := by
  unfold next? at h
  repeat' split at h
  all_goals first
    | contradiction
    | (obtain ⟨_, rfl⟩ := Prod.mk.inj (Option.some.inj h); simp only [List.length_cons]; omega)

/-- Collects the runes of a text behind those already read. -/
def runesGo (acc : List Rune) (t : Text) : List Rune :=
  match _ : next? t with
  | none => acc.reverse
  | some (r, rest) => runesGo (r :: acc) rest
termination_by t.length
decreasing_by exact next?_shorter ‹_›

/-- The runes of a text, in order. -/
def runes (t : Text) : List Rune := runesGo [] t

/-- The bytes of a code point. -/
def encode (code : Nat) : Text :=
  if code < 0x80 then [code.toUInt8]
  else if code < 0x800 then [(0xC0 + code / 64).toUInt8, (0x80 + code % 64).toUInt8]
  else if code < 0x10000 then
    [(0xE0 + code / 4096).toUInt8, (0x80 + code / 64 % 64).toUInt8, (0x80 + code % 64).toUInt8]
  else
    [(0xF0 + code / 262144).toUInt8, (0x80 + code / 4096 % 64).toUInt8,
      (0x80 + code / 64 % 64).toUInt8, (0x80 + code % 64).toUInt8]

/-- The code point that stands for a byte outside every well-formed sequence. -/
def replacement : Nat := 0xFFFD

/-- The code point of a rune, with the replacement character for a stray byte. -/
def code : Rune → Nat
  | .scalar c => c
  | .stray _ => replacement

/-- The bytes of a rune as they stand in the text. -/
def bytes : Rune → Text
  | .scalar c => encode c
  | .stray b => [b]

/-- A text with the replacement character for every stray byte. -/
def scrub (t : Text) : Text := (runes t).flatMap fun r => encode (code r)

/-- The text is well-formed UTF-8. -/
def isValid (t : Text) : Bool := (runes t).all fun | .scalar _ => true | .stray _ => false

/-- The number of runes of a text. -/
def count (t : Text) : Nat := (runes t).length

end Utf8

end ClassAtlas
