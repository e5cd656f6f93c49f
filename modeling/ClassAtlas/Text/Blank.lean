import ClassAtlas.Text.Basic

namespace ClassAtlas.Blank

/-- The blanks of one byte: tab, newline, vertical tab, form feed, carriage return, space. -/
def isSingle (b : UInt8) : Bool := b == 32 || (9 ≤ b && b ≤ 13)

/-- The blanks of two bytes: U+0085 and U+00A0. -/
def isDouble (a b : UInt8) : Bool := a == 0xC2 && (b == 0x85 || b == 0xA0)

/-- The blanks of three bytes: U+1680, U+2000 to U+200A, U+2028, U+2029, U+202F, U+205F, U+3000. -/
def isTriple (a b c : UInt8) : Bool :=
  (a == 0xE1 && b == 0x9A && c == 0x80) ||
  (a == 0xE2 && b == 0x80 && ((0x80 ≤ c && c ≤ 0x8A) || c == 0xA8 || c == 0xA9 || c == 0xAF)) ||
  (a == 0xE2 && b == 0x81 && c == 0x9F) ||
  (a == 0xE3 && b == 0x80 && c == 0x80)

/-- The text without its leading blanks. -/
def trimStart : Text → Text
  | [] => []
  | a :: r0 =>
    if isSingle a then trimStart r0
    else match r0 with
      | [] => [a]
      | b :: r1 =>
        if isDouble a b then trimStart r1
        else match r1 with
          | [] => [a, b]
          | c :: r2 => if isTriple a b c then trimStart r2 else a :: b :: c :: r2

/-- Removes the leading blanks of a reversed text. -/
def trimBack : Text → Text
  | [] => []
  | a :: r0 =>
    if isSingle a then trimBack r0
    else match r0 with
      | [] => [a]
      | b :: r1 =>
        if isDouble b a then trimBack r1
        else match r1 with
          | [] => [a, b]
          | c :: r2 => if isTriple c b a then trimBack r2 else a :: b :: c :: r2

/-- The text without its trailing blanks. -/
def trimEnd (t : Text) : Text := (trimBack t.reverse).reverse

/-- The text without the blanks around it. -/
def trim (t : Text) : Text := trimEnd (trimStart t)

end ClassAtlas.Blank
