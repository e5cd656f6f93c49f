import ClassAtlas.Yaml.Scan

namespace ClassAtlas

/-- A node of a document. A scalar has a tag, which may be empty, and is plain or not. -/
inductive YamlNode where
  | scalar (tag : Text) (content : Text) (plain : Bool)
  | sequence (items : List YamlNode)
  | mapping (entries : List (YamlNode × YamlNode))
  deriving Inhabited

namespace Yaml

/-- The tokens that are still to be read. -/
structure Parse where
  rest : List YamlToken
  broken : Bool
  anchors : List (Text × YamlNode)
  handles : List (Text × Text)

namespace Parse

/-- The scalar that stands where nothing is written. -/
def nothing : YamlNode := .scalar [] [] true

/-- The next token. Two more tokens are looked at, so that what is broken is noticed there. -/
def peek (p : Parse) : Option YamlToken :=
  if p.broken && (p.rest.drop 2).isEmpty then none else p.rest.head?

/-- Goes over a token. -/
def skip (p : Parse) : Parse := { p with rest := p.rest.drop 1 }

/-- The tag of the core types. -/
def coreLead : Text := "tag:yaml.org,2002:"

/-- A tag in short form. -/
def shortTag (t : Text) : Text :=
  match t.after? coreLead with
  | some name => "!!" ++ name
  | none => t

/-- The tag that a handle and the rest stand for. -/
def fullTag? (p : Parse) (handle rest : Text) : Option Text :=
  if handle.isEmpty then some (if rest == "!" then [] else shortTag rest)
  else (p.handles.lookup handle).map fun lead => shortTag (lead ++ rest)

/-- Reads an anchor. -/
def anchor (p : Parse) : Option (Option Text × Parse) :=
  match p.peek with
  | none => none
  | some (.anchor name) => some (some name, p.skip)
  | some _ => some (none, p)

/-- Reads a tag. -/
def tag (p : Parse) : Option (Option Text × Parse) :=
  match p.peek with
  | none => none
  | some (.tag handle rest) => (p.fullTag? handle rest).map fun t => (some t, p.skip)
  | some _ => some (none, p)

/-- Reads an anchor and a tag in either order. -/
def properties (p : Parse) : Option (Option Text × Option Text × Parse) := do
  match ← p.anchor with
  | (some a, p) =>
    let (t, p) ← p.tag
    return (some a, t, p)
  | (none, p) =>
    match ← p.tag with
    | (some t, p) =>
      let (a, p) ← p.anchor
      return (a, some t, p)
    | (none, p) => return (none, none, p)

/-- Remembers a node under the name of its anchor. -/
def remember (p : Parse) (name : Option Text) (n : YamlNode) : Parse :=
  match name with
  | none => p
  | some a => { p with anchors := (a, n) :: p.anchors }

mutual

/-- Reads a node. -/
def node : Nat → Bool → Bool → Parse → Option (YamlNode × Parse)
  | 0, _, _, _ => none
  | fuel + 1, block, indentless, p =>
    match p.peek with
    | some (.alias name) => (p.anchors.lookup name).map fun n => (n, p.skip)
    | _ =>
      match p.properties with
      | none => none
      | some (a, t, p) =>
        let keep (r : Option (YamlNode × Parse)) : Option (YamlNode × Parse) :=
          r.map fun (n, p) => (n, p.remember a n)
        match p.peek with
        | none => none
        | some (.scalar content plain) => keep (some (.scalar (t.getD []) content plain, p.skip))
        | some .flowSequenceStart => keep (flowSequence fuel true [] p.skip)
        | some .flowMappingStart => keep (flowMapping fuel true [] p.skip)
        | some .blockEntry => if indentless then keep (indentlessSequence fuel [] p) else
            if a.isSome || t.isSome then keep (some (.scalar (t.getD []) [] true, p)) else none
        | some .blockSequenceStart =>
          if block then keep (blockSequence fuel [] p.skip)
          else if a.isSome || t.isSome then keep (some (.scalar (t.getD []) [] true, p)) else none
        | some .blockMappingStart =>
          if block then keep (blockMapping fuel [] p.skip)
          else if a.isSome || t.isSome then keep (some (.scalar (t.getD []) [] true, p)) else none
        | some _ =>
          if a.isSome || t.isSome then keep (some (.scalar (t.getD []) [] true, p)) else none

/-- Reads the entries of a block sequence. -/
def blockSequence : Nat → List YamlNode → Parse → Option (YamlNode × Parse)
  | 0, _, _ => none
  | fuel + 1, items, p =>
    match p.peek with
    | some .blockEnd => some (.sequence items.reverse, p.skip)
    | some .blockEntry =>
      match p.skip.peek with
      | none => none
      | some .blockEntry | some .blockEnd => blockSequence fuel (nothing :: items) p.skip
      | some _ =>
        match node fuel true false p.skip with
        | none => none
        | some (n, p) => blockSequence fuel (n :: items) p
    | _ => none

/-- Reads the entries of a sequence that is as deep as the key it belongs to. -/
def indentlessSequence : Nat → List YamlNode → Parse → Option (YamlNode × Parse)
  | 0, _, _ => none
  | fuel + 1, items, p =>
    match p.peek with
    | none => none
    | some .blockEntry =>
      match p.skip.peek with
      | none => none
      | some .blockEntry | some .key | some .value | some .blockEnd =>
        indentlessSequence fuel (nothing :: items) p.skip
      | some _ =>
        match node fuel true false p.skip with
        | none => none
        | some (n, p) => indentlessSequence fuel (n :: items) p
    | some _ => some (.sequence items.reverse, p)

/-- Reads a node of a block mapping, which may be missing. -/
def blockPart : Nat → Parse → Option (YamlNode × Parse)
  | 0, _ => none
  | fuel + 1, p =>
    match p.peek with
    | none => none
    | some .key | some .value | some .blockEnd => some (nothing, p)
    | some _ => node fuel true true p

/-- Reads the entries of a block mapping. -/
def blockMapping : Nat → List (YamlNode × YamlNode) → Parse → Option (YamlNode × Parse)
  | 0, _, _ => none
  | fuel + 1, entries, p =>
    match p.peek with
    | some .blockEnd => some (.mapping entries.reverse, p.skip)
    | some .key =>
      match blockPart fuel p.skip with
      | none => none
      | some (k, p) =>
        match p.peek with
        | none => none
        | some .value =>
          match blockPart fuel p.skip with
          | none => none
          | some (v, p) => blockMapping fuel ((k, v) :: entries) p
        | some _ => blockMapping fuel ((k, nothing) :: entries) p
    | some .value =>
      match blockPart fuel p.skip with
      | none => none
      | some (v, p) => blockMapping fuel ((nothing, v) :: entries) p
    | _ => none

/-- Reads the entries of a sequence in brackets. A key makes an entry a mapping of its own. -/
def flowSequence : Nat → Bool → List YamlNode → Parse → Option (YamlNode × Parse)
  | 0, _, _, _ => none
  | fuel + 1, first, items, p =>
    match p.peek with
    | none => none
    | some .flowSequenceEnd => some (.sequence items.reverse, p.skip)
    | some t =>
      if !first && t != .flowEntry then none
      else
        let p := if first then p else p.skip
        match p.peek with
        | none => none
        | some .flowSequenceEnd => some (.sequence items.reverse, p.skip)
        | some .key =>
          match flowPair fuel p.skip with
          | none => none
          | some (n, p) => flowSequence fuel false (n :: items) p
        | some _ =>
          match node fuel false false p with
          | none => none
          | some (n, p) => flowSequence fuel false (n :: items) p

/-- Reads a mapping of one entry within brackets. -/
def flowPair : Nat → Parse → Option (YamlNode × Parse)
  | 0, _ => none
  | fuel + 1, p =>
    match p.peek with
    | none => none
    | some .value | some .flowEntry | some .flowSequenceEnd => flowPairValue fuel nothing p.skip
    | some _ =>
      match node fuel false false p with
      | none => none
      | some (k, p) => flowPairValue fuel k p

/-- Reads the value of a mapping of one entry within brackets. -/
def flowPairValue : Nat → YamlNode → Parse → Option (YamlNode × Parse)
  | 0, _, _ => none
  | fuel + 1, k, p =>
    match p.peek with
    | none => none
    | some .value =>
      match p.skip.peek with
      | none => none
      | some .flowEntry | some .flowSequenceEnd => some (.mapping [(k, nothing)], p.skip)
      | some _ =>
        match node fuel false false p.skip with
        | none => none
        | some (v, p) => some (.mapping [(k, v)], p)
    | some _ => some (.mapping [(k, nothing)], p)

/-- Reads a node of a mapping in braces, which may be missing. -/
def flowPart : Nat → Parse → Option (YamlNode × Parse)
  | 0, _ => none
  | fuel + 1, p =>
    match p.peek with
    | none => none
    | some .value | some .flowEntry | some .flowMappingEnd => some (nothing, p)
    | some _ => node fuel false false p

/-- Reads the entries of a mapping in braces. -/
def flowMapping : Nat → Bool → List (YamlNode × YamlNode) → Parse → Option (YamlNode × Parse)
  | 0, _, _, _ => none
  | fuel + 1, first, entries, p =>
    match p.peek with
    | none => none
    | some .flowMappingEnd => some (.mapping entries.reverse, p.skip)
    | some t =>
      if !first && t != .flowEntry then none
      else
        let p := if first then p else p.skip
        match p.peek with
        | none => none
        | some .flowMappingEnd => some (.mapping entries.reverse, p.skip)
        | some .key =>
          match flowPart fuel p.skip with
          | none => none
          | some (k, p) =>
            match p.peek with
            | none => none
            | some .value =>
              match p.skip.peek with
              | none => none
              | some .flowEntry | some .flowMappingEnd =>
                flowMapping fuel false ((k, nothing) :: entries) p.skip
              | some _ =>
                match node fuel false false p.skip with
                | none => none
                | some (v, p) => flowMapping fuel false ((k, v) :: entries) p
            | some _ => flowMapping fuel false ((k, nothing) :: entries) p
        | some _ =>
          match node fuel false false p with
          | none => none
          | some (k, p) => flowMapping fuel false ((k, nothing) :: entries) p

end

/-- Reads the directives in front of a document. -/
def directives : Nat → Parse → Option Parse
  | 0, _ => none
  | fuel + 1, p =>
    match p.peek with
    | some (.version 1 1) => directives fuel p.skip
    | some (.version _ _) => none
    | some (.tagHandle handle lead) =>
      directives fuel { p.skip with handles := (handle, lead) :: p.handles }
    | some .documentStart => some p.skip
    | _ => none

/-- Reads the content of a document that begins with three dashes. -/
def content (fuel : Nat) (p : Parse) : Option YamlNode :=
  match p.peek with
  | none => none
  | some (.version _ _) | some (.tagHandle _ _) | some .documentStart | some .documentEnd
  | some .streamEnd => some nothing
  | some _ => (node fuel true false p).map Prod.fst

/-- Reads the first document, if there is one. -/
def document (fuel : Nat) (p : Parse) : Option (Option YamlNode) :=
  match p.peek with
  | none => none
  | some .streamEnd => some none
  | some (.version _ _) | some (.tagHandle _ _) | some .documentStart =>
    match directives fuel p with
    | none => none
    | some p => (content fuel p).map some
  | some _ => (node fuel true false p).map fun r => some r.1

end Parse

/-- The handles of tags that are always known. -/
def standardHandles : List (Text × Text) := [("!", "!"), ("!!", Parse.coreLead)]

/-- The first document of a text, and nothing within if there is none; nothing at all if the text
is no YAML. -/
def document? (t : Text) : Option (Option YamlNode) := do
  let cs ← characters? t
  let (found, broken) := tokens cs
  Parse.document (4 * found.length + 8) ⟨found, broken, [], standardHandles⟩

end Yaml

end ClassAtlas
