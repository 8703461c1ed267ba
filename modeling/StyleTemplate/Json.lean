import StyleTemplate.Json.Number

/-! Values written in JSON. Null is the undefined value; of entries with the same key the last one
counts; arrays and objects nest at most 127 deep. -/

namespace StyleTemplate.Json

private def isSpace (c : Char) : Bool := c == ' ' || c == '\n' || c == '\t' || c == '\r'

private def skipSpace (cs : List Char) : List Char := cs.dropWhile isSpace

private def hexDigit? (c : Char) : Option Nat :=
  if c.isDigit then some (c.toNat - '0'.toNat)
  else if 'a' ≤ c ∧ c ≤ 'f' then some (c.toNat - 'a'.toNat + 10)
  else if 'A' ≤ c ∧ c ≤ 'F' then some (c.toNat - 'A'.toNat + 10)
  else none

private def unit? (a b c d : Char) : Option Nat :=
  match hexDigit? a, hexDigit? b, hexDigit? c, hexDigit? d with
  | some a, some b, some c, some d => some (((a * 16 + b) * 16 + c) * 16 + d)
  | _, _, _, _ => none

/-- What a backslash and one letter stand for. -/
private def simpleEscape? : Char → Option Char
  | '"' => some '"'
  | '\\' => some '\\'
  | '/' => some '/'
  | 'b' => some '\x08'
  | 'f' => some '\x0c'
  | 'n' => some '\n'
  | 'r' => some '\r'
  | 't' => some '\t'
  | _ => none

private def isHighSurrogate (n : Nat) : Bool := 0xD800 ≤ n && n ≤ 0xDBFF

private def isLowSurrogate (n : Nat) : Bool := 0xDC00 ≤ n && n ≤ 0xDFFF

/-- A string after its opening quote, with what follows the closing one. Surrogates must come in
pairs, and control characters must be escaped. -/
def readString? : List Char → Option (List Char × List Char)
  | '"' :: cs => some ([], cs)
  | '\\' :: 'u' :: a :: b :: c :: d :: cs =>
    match unit? a b c d with
    | none => none
    | some n =>
      if isHighSurrogate n then
        match cs with
        | '\\' :: 'u' :: a :: b :: c :: d :: cs =>
          match unit? a b c d with
          | some low =>
            if isLowSurrogate low then
              (readString? cs).map fun (s, rest) =>
                (Char.ofNat (0x10000 + (n - 0xD800) * 0x400 + (low - 0xDC00)) :: s, rest)
            else none
          | none => none
        | _ => none
      else if isLowSurrogate n then none
      else (readString? cs).map fun (s, rest) => (Char.ofNat n :: s, rest)
  | '\\' :: c :: cs =>
    match simpleEscape? c with
    | some c => (readString? cs).map fun (s, rest) => (c :: s, rest)
    | none => none
  | c :: cs =>
    if c = '\\' ∨ c.toNat < 0x20 then none
    else (readString? cs).map fun (s, rest) => (c :: s, rest)
  | [] => none

mutual
/-- A value at the start of a text, after blanks. `depth` is how many levels may still open;
`fuel` bounds the steps. -/
def readValue? (depth : Nat) : Nat → List Char → Option (Value × List Char)
  | 0, _ => none
  | fuel + 1, cs =>
    match skipSpace cs with
    | 'n' :: 'u' :: 'l' :: 'l' :: rest => some (.undefined, rest)
    | 't' :: 'r' :: 'u' :: 'e' :: rest => some (.boolean true, rest)
    | 'f' :: 'a' :: 'l' :: 's' :: 'e' :: rest => some (.boolean false, rest)
    | '"' :: rest => (readString? rest).map fun (s, rest) => (.string (String.ofList s), rest)
    | '[' :: rest =>
      if depth = 0 then none
      else
        match skipSpace rest with
        | ']' :: rest => some (.sequence [], rest)
        | rest => (readItems? (depth - 1) fuel rest).map fun (vs, rest) => (.sequence vs, rest)
    | '\x7b' :: rest =>
      if depth = 0 then none
      else
        match skipSpace rest with
        | '\x7d' :: rest => some (.ofPairs [], rest)
        | rest => (readEntries? (depth - 1) fuel rest).map fun (es, rest) => (.ofPairs es, rest)
    | rest =>
      match NumberText.read? rest with
      | some (number, rest) => number.value?.map (·, rest)
      | none => none

/-- The items of an array, through its closing bracket. -/
def readItems? (depth : Nat) : Nat → List Char → Option (List Value × List Char)
  | 0, _ => none
  | fuel + 1, cs =>
    match readValue? depth fuel cs with
    | none => none
    | some (v, rest) =>
      match skipSpace rest with
      | ',' :: rest => (readItems? depth fuel rest).map fun (vs, rest) => (v :: vs, rest)
      | ']' :: rest => some ([v], rest)
      | _ => none

/-- The entries of an object, through its closing brace. -/
def readEntries? (depth : Nat) : Nat → List Char → Option (List (String × Value) × List Char)
  | 0, _ => none
  | fuel + 1, cs =>
    match skipSpace cs with
    | '"' :: rest =>
      match readString? rest with
      | none => none
      | some (key, rest) =>
        match skipSpace rest with
        | ':' :: rest =>
          match readValue? depth fuel rest with
          | none => none
          | some (v, rest) =>
            let entry := (String.ofList key, v)
            match skipSpace rest with
            | ',' :: rest =>
              (readEntries? depth fuel rest).map fun (es, rest) => (entry :: es, rest)
            | '\x7d' :: rest => some ([entry], rest)
            | _ => none
        | _ => none
    | _ => none
end

/-- The value that a text spells in JSON. -/
def read? (text : String) : Option Value :=
  let cs := text.toList
  match readValue? 127 (2 * cs.length + 2) cs with
  | some (v, rest) => if skipSpace rest = [] then some v else none
  | none => none

end StyleTemplate.Json
