import ClassAtlas.Text.Blank
import ClassAtlas.Trace.Declaration

namespace ClassAtlas.Argument

/-- What follows `pattern` at the start of a text, up to the case of ASCII letters. -/
def afterFolded? (t : Text) : Text → Option Text
  | [] => some t
  | p :: pattern =>
    match t with
    | [] => none
    | c :: rest => if Text.lowerByte c == Text.lowerByte p then afterFolded? rest pattern else none

/-- What follows the first occurrence of `pattern`, up to the case of ASCII letters. -/
def afterFirst? (pattern : Text) (t : Text) : Option Text :=
  Scan.first? (afterFolded? · pattern) t

/-- `pattern` occurs in the line, up to the case of ASCII letters. -/
def mentions (line pattern : Text) : Bool := (afterFirst? pattern line).isSome

/-- A quote that opens a string or character literal. -/
def isQuote (b : UInt8) : Bool := b == 34 || b == 39

/-- A bracket that opens a group. -/
def isOpening (b : UInt8) : Bool := b == 40 || b == 91 || b == 123

/-- A bracket that closes a group. -/
def isClosing (b : UInt8) : Bool := b == 41 || b == 93 || b == 125

/-- The text up to the comma or closing bracket that ends an argument. Literals and bracketed
groups are passed over as a whole. -/
def upToEnd : Option UInt8 → Nat → Text → Text
  | _, _, [] => []
  | some close, depth, c :: rest =>
    if c == 92 then
      match rest with
      | [] => [c]
      | d :: rest' => c :: d :: upToEnd (some close) depth rest'
    else c :: upToEnd (if c == close then none else some close) depth rest
  | none, depth, c :: rest =>
    if isQuote c then c :: upToEnd (some c) depth rest
    else if isOpening c then c :: upToEnd none (depth + 1) rest
    else if isClosing c then
      match depth with
      | 0 => []
      | depth + 1 => c :: upToEnd none depth rest
    else if c == 44 && depth == 0 then []
    else c :: upToEnd none depth rest

/-- The text behind the opening parenthesis of the call that `pattern` names. A pattern that ends
in the parenthesis opens the call itself. -/
def callTail? (line pattern : Text) : Option Text := do
  let rest ← afterFirst? pattern line
  if pattern.endsWith "(" then return rest
  else return (← rest.cutAt? 40).2

/-- The first argument of the call that `pattern` names in a line. -/
def first? (line pattern : Text) : Option Text := do
  let args ← callTail? line pattern
  let argument := Text.dropTail (Blank.trim (upToEnd none 0 args)) ";"
  if argument.isEmpty then none else some argument

/-- The text has a quote that no backslash protects. -/
def hasBareQuote : Text → Bool
  | [] => false
  | c :: rest =>
    if c == 92 then
      match rest with
      | [] => false
      | _ :: rest' => hasBareQuote rest'
    else c == 34 || hasBareQuote rest

/-- The contents of a string literal that spans the whole text, with escapes as written. -/
def unquote? (t : Text) : Option Text :=
  match t with
  | [] => none
  | _ :: inner =>
    if t.startsWith "\"" && !inner.isEmpty && t.endsWith "\"" && !hasBareQuote inner.dropLast then
      some inner.dropLast
    else none

/-- Cuts an expression at its plus signs outside literals and parentheses. The operand in front
is held in reverse. -/
def operandsGo : Option UInt8 → Nat → Text → Text → List Text
  | _, _, operand, [] => [operand.reverse]
  | some close, depth, operand, c :: rest =>
    if c == 92 then
      match rest with
      | [] => [(c :: operand).reverse]
      | d :: rest' => operandsGo (some close) depth (d :: c :: operand) rest'
    else operandsGo (if c == close then none else some close) depth (c :: operand) rest
  | none, depth, operand, c :: rest =>
    if isQuote c then operandsGo (some c) depth (c :: operand) rest
    else if c == 40 then operandsGo none (depth + 1) (c :: operand) rest
    else if c == 41 then operandsGo none (depth - 1) (c :: operand) rest
    else if c == 43 && depth == 0 then operand.reverse :: operandsGo none 0 [] rest
    else operandsGo none depth (c :: operand) rest

/-- The operands of a concatenation. -/
def operands (expression : Text) : List Text := operandsGo none 0 [] expression

/-- The value of one operand: the body of a literal, a declared constant, or the operand itself in
square brackets. -/
def operandValue (declared : Declarations) (operand : Text) : Text :=
  let t := Blank.trim operand
  if t.isEmpty then []
  else match unquote? t with
    | some body => body
    | none =>
      match declared.find? (t.dropLead "this.") with
      | some value => value
      | none => "[" ++ t ++ "]"

/-- The value of an argument expression. What cannot be resolved stays visible in brackets. -/
def resolve (declared : Declarations) (expression : Text) : Text :=
  let t := Blank.trim expression
  match unquote? t with
  | some body => body
  | none => (operands t).flatMap (operandValue declared)

end ClassAtlas.Argument
