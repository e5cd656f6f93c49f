import ClassAtlas.Path
import ClassAtlas.Text.Blank
import ClassAtlas.Text.Quoted

namespace ClassAtlas

/-- A file of a patch: its name before and after, and the bodies of its hunks. -/
structure FilePatch where
  before : Text
  after : Text
  hunks : List Text
  deriving DecidableEq, Repr

namespace Patch

/-- A line without the carriage return before its newline. -/
def dropReturn (line : Text) : Text := line.dropTail [Text.carriageReturn]

/-- The lines of a patch. A carriage return before a newline does not count; a last line without
a newline stays as it is. -/
def linesOf (t : Text) : List Text :=
  let pieces := t.lines
  match pieces.getLast? with
  | none => []
  | some last =>
    let ended := pieces.dropLast.map dropReturn
    if last.isEmpty then ended else ended ++ [last]

/-- The name of no file. -/
def nowhere : Text := "/dev/null"

/-- The directory and name of a line which says that a file is on one side only. -/
def onlyIn? (line : Text) : Option (Text × Text) :=
  (line.after? "Only in ").bind fun rest => rest.cut? ": "

/-- How the headers of a file end. -/
inductive HeaderEnd where
  | names (line : Text) (rest : List Text)
  | nextFile (rest : List Text)
  | endOfInput

/-- Collects the headers of a file up to its names, the first line of the next file, or the end.
The second line that starts a file belongs to the next one. -/
def headers : Bool → List Text → List Text → List Text × HeaderEnd
  | _, acc, [] => (acc.reverse, .endOfInput)
  | started, acc, line :: rest =>
    if line.startsWith "diff --git " && started then (acc.reverse, .nextFile (line :: rest))
    else if line.startsWith "--- " || (onlyIn? line).isSome then (acc.reverse, .names line rest)
    else headers (started || line.startsWith "diff --git ") (line :: acc) rest

/-- A name without its quotes, if it is quoted. -/
def plainName (name : Text) : Text := (Quoted.decode? name).getD name

/-- The two names in the first header, as they are written. -/
def gitNames (first : Text) : Text × Text :=
  let rest := first.dropLead "diff --git "
  (rest.cutAt? Text.space).getD (rest, [])

/-- The header with the given index starts with a text. -/
def headerStarts (hs : List Text) (index : Nat) (lead : Text) : Bool := (hs.getD index []).startsWith lead

/-- The headers are complete without names: nothing, or only binary contents, follows the mode. -/
def isWhole (hs : List Text) : Bool :=
  hs.length == 3 || (hs.length == 4 && headerStarts hs 3 "Binary files ") ||
    (4 < hs.length && headerStarts hs 3 "GIT binary patch")

/-- The headers say that a file was renamed. -/
def isRename (hs : List Text) : Bool := headerStarts hs 2 "rename from " && headerStarts hs 3 "rename to "

/-- The names of a file that is known by its headers alone. -/
def namesOfHeaders? (hs : List Text) : Option (Text × Text) :=
  match hs with
  | [] => none
  | first :: _ =>
    if !first.startsWith "diff --git " then none
    else
      let (old, new) := gitNames first
      if isWhole hs && headerStarts hs 1 "new file mode " then some (nowhere, plainName new)
      else if isWhole hs && headerStarts hs 1 "deleted file mode " then some (plainName old, nowhere)
      else if hs.length == 4 && isRename hs then some (plainName old, plainName new)
      else if hs.length == 6 && isRename hs && headerStarts hs 5 "Binary files " then some (old, new)
      else if (hs.length == 3 && headerStarts hs 2 "Binary files ") ||
          (3 < hs.length && headerStarts hs 2 "GIT binary patch") then
        some (plainName old, plainName new)
      else none

/-- Reads exactly two digits, or one if `loose`. -/
def twoDigits? (loose : Bool) : Text → Option (Nat × Text)
  | a :: rest =>
    if !Text.isDigit a then none
    else match rest with
      | b :: rest' =>
        if Text.isDigit b then some ((a.toNat - 48) * 10 + (b.toNat - 48), rest')
        else if loose then some (a.toNat - 48, rest) else none
      | [] => if loose then some (a.toNat - 48, []) else none
  | [] => none

/-- Reads exactly four digits. -/
def fourDigits? (t : Text) : Option (Nat × Text) :=
  let ds := t.take 4
  if ds.length == 4 && ds.all Text.isDigit then some (Decimal.valueOf ds, t.drop 4) else none

/-- Steps over a run of spaces; at the end of the text there may be none. -/
def spaces? : Text → Option Text
  | [] => some []
  | b :: rest => if b == 32 then some (rest.dropWhile (· == 32)) else none

/-- Steps over a fraction of a second, if there is one. -/
def fraction : Text → Text
  | c :: d :: rest =>
    if (c == 46 || c == 44) && Text.isDigit d then rest.dropWhile Text.isDigit else c :: d :: rest
  | t => t

/-- The number of days of a month. -/
def daysIn (year month : Nat) : Nat :=
  if month == 2 then (if year % 4 == 0 && (year % 100 != 0 || year % 400 == 0) then 29 else 28)
  else if month == 4 || month == 6 || month == 9 || month == 11 then 30 else 31

/-- The text is a date, a time and an offset, such as `2006-01-02 15:04:05 -0700`. -/
def isTimestamp (t : Text) : Bool :=
  (do
    let (year, t) ← fourDigits? t
    let t ← t.after? "-"
    let (month, t) ← twoDigits? false t
    let t ← t.after? "-"
    let (day, t) ← twoDigits? false t
    let t ← spaces? t
    let (hour, t) ← twoDigits? true t
    let t ← t.after? ":"
    let (minute, t) ← twoDigits? false t
    let t ← t.after? ":"
    let (second, t) ← twoDigits? false t
    let t ← spaces? (fraction t)
    let (sign, t) ← match t with | [] => none | s :: r => some (s, r)
    let (zoneHour, t) ← twoDigits? false t
    let (zoneMinute, t) ← twoDigits? false t
    if t.isEmpty && (sign == 43 || sign == 45) && 1 ≤ month && month ≤ 12 && 1 ≤ day &&
        day ≤ daysIn year month && hour < 24 && minute < 60 && second < 60 &&
        zoneHour ≤ 24 && zoneMinute ≤ 60 then some () else none).isSome

/-- The name in a name line behind its mark; a timestamp may follow it behind a tab. -/
def nameOf? (line : Text) : Option Text :=
  let t := Blank.trim (line.drop 4)
  match t.cutAt? Text.tab with
  | none => some (plainName t)
  | some (name, stamp) => if isTimestamp stamp then some (plainName name) else none

/-- Reads a signed number of 32 bits; blanks before it do not count. -/
def number? (t : Text) : Option Text :=
  let t := Blank.trimStart t
  let (sign, digits) := match t with
    | 45 :: r => (([45] : Text), r)
    | 43 :: r => ([], r)
    | _ => ([], t)
  let (ds, rest) := digits.span Text.isDigit
  match Decimal.signed 32 (sign ++ ds) with
  | .ok _ => some rest
  | .error _ => none

/-- Splits a text at spaces into at most `n` pieces. -/
def splitSpaces : Nat → Text → List Text
  | 0, _ => []
  | 1, t => [t]
  | n + 2, t =>
    match t.cutAt? Text.space with
    | none => [t]
    | some (piece, rest) => piece :: splitSpaces (n + 1) rest

/-- A range with its length, which is one if none is written. -/
def fullRange (t : Text) : Text := if t.contains 44 then t else t ++ ",1"

/-- A line is the header of a hunk: two ranges between two marks. -/
def isHunkHeader (line : Text) : Bool :=
  match splitSpaces 5 line with
  | mark :: old :: new :: close :: _ =>
    mark == "@@" && close == "@@" &&
    (do
      let t ← (fullRange old ++ " " ++ fullRange new ++ " @@").after? "-"
      let t ← (← number? t).after? ","
      let t ← number? t
      let t' := Blank.trimStart t
      if t'.length == t.length then none
      let t ← t'.after? "+"
      let t ← (← number? t).after? ","
      let t ← number? t
      let t' := Blank.trimStart t
      if t'.length == t.length then none
      t'.after? "@@").isSome
  | _ => false

/-- The note that a file does not end with a newline. -/
def noNewline : Text := "\\ No newline at end of file"

/-- The line may stand in the body of a hunk. -/
def isBodyLine : Text → Bool
  | [] => true
  | b :: _ => b == 32 || b == 45 || b == 43 || b == 92

/-- Reads the body of a hunk, which is held in reverse, up to the next hunk or the next file. The
note about a missing newline takes away the newline before it, unless the line before was one
of the old file. -/
def hunkBody : Bool → Text → List Text → Text × List Text
  | _, body, [] => (body.reverse, [])
  | old, body, line :: rest =>
    if (line.startsWith "---" && (rest.head?.getD []).startsWith "+++") ||
        line.startsWith "@@ " || !isBodyLine line then (body.reverse, line :: rest)
    else if line == noNewline then hunkBody old (if old then body else body.tail) rest
    else
      hunkBody (match line with | [] => old | b :: _ => b == 45)
        (Text.newline :: line.reverse ++ body) rest

/-- What follows the body of a hunk is no longer than what was there. -/
theorem hunkBody_rest_le (old : Bool) (body : Text) (lines : List Text) :
    (hunkBody old body lines).2.length ≤ lines.length := by
  induction lines generalizing old body with
  | nil => simp [hunkBody]
  | cons line rest ih =>
    unfold hunkBody
    split
    · exact Nat.le_refl _
    · split
      · exact Nat.le_trans (ih ..) (Nat.le_succ _)
      · exact Nat.le_trans (ih ..) (Nat.le_succ _)

/-- Reads the hunks of a file. A line that looks like a hunk must have a proper header. -/
def hunks (lines : List Text) : Option (List Text × List Text) :=
  match lines with
  | [] => some ([], [])
  | line :: rest =>
    if line.startsWith "@@ " then
      if isHunkHeader line then
        match hunks (hunkBody true [] rest).2 with
        | none => none
        | some (more, following) => some ((hunkBody true [] rest).1 :: more, following)
      else none
    else some ([], line :: rest)
termination_by lines.length
decreasing_by
  have := hunkBody_rest_le true [] rest
  simp only [List.length_cons]
  omega

/-- What reading one file gives: the end of the patch, a file and what follows, or a fault. -/
inductive Reading where
  | finished
  | file (found : FilePatch) (rest : List Text)
  | fault

/-- Reads the hunks behind the names of a file. A file without a new name has none. -/
def withHunks (before after : Text) (rest : List Text) : Reading :=
  if after.isEmpty then .file ⟨before, after, []⟩ rest
  else match hunks rest with
    | none => .fault
    | some (bodies, rest') => .file ⟨before, after, bodies⟩ rest'

/-- Reads the names of a file from the line that starts them, and its hunks. -/
def withNames (line : Text) (rest : List Text) : Reading :=
  match onlyIn? line with
  | some (dir, name) => .file ⟨Path.join [dir, name], [], []⟩ rest
  | none =>
    match nameOf? line, rest with
    | none, _ => .fault
    | some _, [] => .finished
    | some before, second :: rest' =>
      if second.startsWith "+++ " then
        match nameOf? second with
        | none => .fault
        | some after => withHunks before after rest'
      else .fault

/-- Reads one file. -/
def readFile (lines : List Text) : Reading :=
  match headers false [] lines with
  | (_, .names line rest) => withNames line rest
  | (hs, .nextFile rest) =>
    let (before, after) := (namesOfHeaders? hs).getD ([], [])
    .file ⟨before, after, []⟩ rest
  | (hs, .endOfInput) =>
    match namesOfHeaders? hs with
    | none => .finished
    | some (before, after) => .file ⟨before, after, []⟩ []

/-- Reads file after file; every file takes up at least one line. -/
def filesFrom (lines : List Text) : Option (List FilePatch) :=
  match readFile lines with
  | .finished => some []
  | .fault => none
  | .file found rest =>
    if _h : rest.length < lines.length then (filesFrom rest).map (found :: ·)
    else some [found]
termination_by lines.length

/-- The files of a patch, or nothing if the patch is not well-formed. -/
def files? (t : Text) : Option (List FilePatch) := filesFrom (linesOf t)

end Patch

end ClassAtlas
