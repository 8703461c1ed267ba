import StyleTemplate.Toml.Node
import StyleTemplate.Toml.Scalar

/-! Values written in TOML: a document is a mapping. A key may be given once, and a table may be
opened once. -/

namespace StyleTemplate.Toml

/-- How deep arrays and inline tables may nest. -/
def maxDepth : Nat := 80

private def skipSpace (cs : List Char) : List Char := cs.dropWhile fun c => c == ' ' || c == '\t'

private def isBareKeyChar (c : Char) : Bool := c.isAlphanum || c == '_' || c == '-'

/-- What follows a comment, or the text itself if it begins with none. -/
private def afterComment? : List Char → Option (List Char)
  | '#' :: cs =>
    let line := cs.takeWhile (· ≠ '\n')
    let line := if line.getLast? = some '\r' ∧ line.length < cs.length then line.dropLast else line
    if line.all fun c => c == '\t' || (0x20 ≤ c.toNat && c.toNat ≠ 0x7F) then
      some (cs.drop line.length)
    else none
  | cs => some cs

/-- Blanks, comments and line breaks taken off. -/
private def skipLayout? : Nat → List Char → Option (List Char)
  | 0, _ => none
  | fuel + 1, cs =>
    match afterComment? (skipSpace cs) with
    | none => none
    | some cs =>
      match afterNewline? cs with
      | some cs => skipLayout? fuel cs
      | none => some cs

/-- One part of a key: bare, or a string on one line. -/
private def readKeyPart? (cs : List Char) : Option (String × List Char) :=
  let bare := cs.takeWhile isBareKeyChar
  if bare ≠ [] then some (String.ofList bare, cs.dropWhile isBareKeyChar)
  else (readLineString? cs).map fun (s, rest) => (String.ofList s, rest)

/-- A key of parts joined by dots: the parts before the last one, and the last one. -/
private def readKey? : Nat → List Char → Option ((List String × String) × List Char)
  | 0, _ => none
  | fuel + 1, cs =>
    match readKeyPart? (skipSpace cs) with
    | none => none
    | some (part, rest) =>
      match skipSpace rest with
      | '.' :: rest =>
        (readKey? fuel rest).map fun ((path, key), rest) => ((part :: path, key), rest)
      | rest => some (([], part), rest)

mutual
/-- A value at the start of a text. `depth` is how many levels may still open; `fuel` bounds the
steps. -/
private def readNode? (depth : Nat) : Nat → List Char → Option (Node × List Char)
  | 0, _ => none
  | fuel + 1, cs =>
    match cs with
    | '[' :: rest =>
      if depth = 0 then none
      else (readItems? (depth - 1) fuel rest).map fun (vs, rest) => (.leaf (.sequence vs), rest)
    | '\x7b' :: rest =>
      if depth = 0 then none
      else
        (readFields? (depth - 1) fuel .nil rest).map fun (fields, rest) =>
          (.table .inline fields, rest)
    | c :: _ =>
      if c = '"' ∨ c = '\'' then
        (readString? cs).map fun (s, rest) => (.leaf (.string (String.ofList s)), rest)
      else
        let (token, rest) := readToken cs
        (tokenValue? token).map fun v => (.leaf v, rest)
    | [] => none

/-- The items of an array through its closing bracket. A comma may stand after the last one. -/
private def readItems? (depth : Nat) : Nat → List Char → Option (List Value × List Char)
  | 0, _ => none
  | fuel + 1, cs =>
    match skipLayout? (cs.length + 1) cs with
    | none => none
    | some (']' :: rest) => some ([], rest)
    | some cs =>
      match readNode? depth fuel cs with
      | none => none
      | some (node, rest) =>
        match skipLayout? (rest.length + 1) rest with
        | some (',' :: rest) =>
          (readItems? depth fuel rest).map fun (vs, rest) => (node.toValue :: vs, rest)
        | some (']' :: rest) => some ([node.toValue], rest)
        | _ => none

/-- The entries of an inline table through its closing brace, added to those already read. -/
private def readFields? (depth : Nat) : Nat → Fields → List Char → Option (Fields × List Char)
  | 0, _, _ => none
  | fuel + 1, fields, cs =>
    match skipLayout? (cs.length + 1) cs with
    | none => none
    | some ('\x7d' :: rest) => some (fields, rest)
    | some cs =>
      match readKey? (cs.length + 1) cs with
      | some ((path, key), '=' :: rest) =>
        match readNode? depth fuel (skipSpace rest) with
        | none => none
        | some (node, rest) =>
          match fields.addDotted? path key node with
          | none => none
          | some fields =>
            match skipLayout? (rest.length + 1) rest with
            | some (',' :: rest) => readFields? depth fuel fields rest
            | some ('\x7d' :: rest) => some (fields, rest)
            | _ => none
      | _ => none
end

/-- The rest of a line: blanks and a comment, up to its end. -/
private def endLine? (cs : List Char) : Option (List Char) :=
  match afterComment? (skipSpace cs) with
  | some [] => some []
  | some cs => afterNewline? cs
  | none => none

/-- A document under construction: its tables, and the path to the one that is open. -/
private structure Draft where
  fields : Fields
  current : List String

private def Draft.add? (d : Draft) (path : List String) (key : String) (node : Node) :
    Option Draft :=
  (d.fields.changeAt false (fun _ inner => inner.addDotted? path key node) .header d.current).map
    fun fields => { d with fields }

private def readHeader? (cs : List Char) : Option ((List String × String) × List Char) :=
  match readKey? (cs.length + 1) cs with
  | some (key, ']' :: rest) => some (key, rest)
  | _ => none

/-- One line of a document, with an effect on the draft. -/
private def readLine? (d : Draft) (cs : List Char) : Option (Draft × List Char) :=
  match skipSpace cs with
  | '[' :: '[' :: rest =>
    match readHeader? rest with
    | some ((path, key), ']' :: rest) =>
      (d.fields.openNext? path key).map fun fields => (⟨fields, path ++ [key]⟩, rest)
    | _ => none
  | '[' :: rest =>
    match readHeader? rest with
    | some ((path, key), rest) =>
      (d.fields.openTable? path key).map fun fields => (⟨fields, path ++ [key]⟩, rest)
    | _ => none
  | cs =>
    match readKey? (cs.length + 1) cs with
    | some ((path, key), '=' :: rest) =>
      match readNode? maxDepth (2 * rest.length + 2) (skipSpace rest) with
      | some (node, rest) => (d.add? path key node).map (·, rest)
      | none => none
    | _ => none

private def readLines? : Nat → Draft → List Char → Option Draft
  | 0, _, _ => none
  | fuel + 1, d, cs =>
    match skipLayout? (cs.length + 1) cs with
    | none => none
    | some [] => some d
    | some cs =>
      match readLine? d cs with
      | none => none
      | some (d, rest) =>
        match endLine? rest with
        | none => none
        | some rest => readLines? fuel d rest

/-- The mapping that a document spells. A byte order mark in front of it is passed over. -/
def read? (text : String) : Option Value :=
  let cs := match text.toList with
    | '\uFEFF' :: cs => cs
    | cs => cs
  (readLines? (cs.length + 1) ⟨.nil, []⟩ cs).map fun d => .ofPairs d.fields.toPairs

end StyleTemplate.Toml
