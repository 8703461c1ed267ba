import StyleTemplate.Value
import StyleTemplate.Decimal.Nearest
import StyleTemplate.Decimal.Numeral

/-! Scalars written in TOML: strings of four kinds, numbers, truth values, and dates. A date becomes
the text of its normal form. -/

namespace StyleTemplate.Toml

private def digitOf? (base : Nat) (c : Char) : Option Nat :=
  let n? :=
    if c.isDigit then some (c.toNat - '0'.toNat)
    else if 'a' ≤ c ∧ c ≤ 'z' then some (c.toNat - 'a'.toNat + 10)
    else if 'A' ≤ c ∧ c ≤ 'Z' then some (c.toNat - 'A'.toNat + 10)
    else none
  n?.filter (· < base)

/-- Digits of a base, with single underscores between them. -/
def digits? (base : Nat) (cs : List Char) : Option (List Nat) :=
  let groups := (String.ofList cs).splitOn "_"
  groups.foldr (fun group rest? =>
    match rest?, group.toList.mapM (digitOf? base) with
    | some rest, some (d :: ds) => some (d :: ds ++ rest)
    | _, _ => none) (some [])

private def numberOf (base : Nat) (digits : List Nat) : Nat :=
  digits.foldl (fun n d => base * n + d) 0

/-- Decimal digits without needless zeros in front. -/
private def wholeDigits? (cs : List Char) : Option (List Nat) :=
  match digits? 10 cs with
  | some (0 :: _ :: _) => none
  | ds => ds

private def takeSign : List Char → Option Bool × List Char
  | '-' :: cs => (some true, cs)
  | '+' :: cs => (some false, cs)
  | cs => (none, cs)

private def integer? (cs : List Char) : Option Value :=
  let inRange (n : Int) : Option Value := (Decimal.toInt64? n).map Value.integer
  match cs with
  | '0' :: 'x' :: cs => (digits? 16 cs).bind fun ds => inRange (numberOf 16 ds)
  | '0' :: 'o' :: cs => (digits? 8 cs).bind fun ds => inRange (numberOf 8 ds)
  | '0' :: 'b' :: cs => (digits? 2 cs).bind fun ds => inRange (numberOf 2 ds)
  | cs =>
    let (sign, cs) := takeSign cs
    (wholeDigits? cs).bind fun ds =>
      let n : Int := numberOf 10 ds
      inRange (if sign = some true then -n else n)

private def isExponentMark (c : Char) : Bool := c == 'e' || c == 'E'

private def exponent? (cs : List Char) : Option Int :=
  let (sign, cs) := takeSign cs
  (digits? 10 cs).map fun ds =>
    let n : Int := numberOf 10 ds
    if sign = some true then -n else n

/-- A float, which has a point or an exponent or is a special name; one too large for the format is
refused. -/
private def float? (cs : List Char) : Option Value :=
  let (sign, cs) := takeSign cs
  let negative := sign = some true
  if cs = ['i', 'n', 'f'] then
    some (.float (Float.ofBits (if negative then 0xFFF0000000000000 else 0x7FF0000000000000)))
  else if cs = ['n', 'a', 'n'] then some (.float (Float.ofBits 0x7FF8000000000000))
  else if !cs.any fun c => c == '.' || isExponentMark c then none
  else
    let mantissa := cs.takeWhile (!isExponentMark ·)
    let whole := mantissa.takeWhile (· ≠ '.')
    let fraction? : Option (List Nat) :=
      match mantissa.dropWhile (· ≠ '.') with
      | [] => some []
      | _ :: cs => digits? 10 cs
    let exponent? : Option Int :=
      match cs.dropWhile (!isExponentMark ·) with
      | [] => some 0
      | _ :: cs => exponent? cs
    match wholeDigits? whole, fraction?, exponent? with
    | some ws, some fs, some e =>
      let x := Decimal.toFloat negative (numberOf 10 (ws ++ fs)) (e - fs.length)
      if x.isInf then none else some (.float x)
    | _, _, _ => none

/-- A number of exactly `count` decimal digits. -/
private def fixed? (count : Nat) (cs : List Char) : Option (Nat × List Char) :=
  let ds := cs.take count
  if ds.length = count ∧ ds.all Char.isDigit then some (Decimal.valueOf ds, cs.drop count) else none

private def after? (c : Char) : List Char → Option (List Char)
  | d :: cs => if d = c then some cs else none
  | [] => none

private def daysIn (year month : Nat) : Nat :=
  if month = 2 then
    if year % 4 = 0 ∧ (year % 100 ≠ 0 ∨ year % 400 = 0) then 29 else 28
  else if month = 4 ∨ month = 6 ∨ month = 9 ∨ month = 11 then 30
  else 31

private def padded (width n : Nat) : List Char :=
  let ds := Nat.toDigits 10 n
  List.replicate (width - ds.length) '0' ++ ds

/-- A calendar date, with its text. -/
private def date? (cs : List Char) : Option (List Char × List Char) := do
  let (year, cs) ← fixed? 4 cs
  let (month, cs) ← after? '-' cs >>= fixed? 2
  let (day, cs) ← after? '-' cs >>= fixed? 2
  if 1 ≤ month ∧ month ≤ 12 ∧ 1 ≤ day ∧ day ≤ daysIn year month then
    some (padded 4 year ++ '-' :: padded 2 month ++ '-' :: padded 2 day, cs)
  else none

/-- A fraction of a second to nine places, zeros at its end left out. -/
private def fractionText (cs : List Char) : List Char :=
  match ((cs.take 9).reverse.dropWhile (· = '0')).reverse with
  | [] => ['0']
  | cs => cs

/-- A time of day, with its text. The seconds may be left out. -/
private def time? (cs : List Char) : Option (List Char × List Char) := do
  let (hour, cs) ← fixed? 2 cs
  let (minute, cs) ← after? ':' cs >>= fixed? 2
  if 23 < hour ∨ 59 < minute then none
  else
    let text := padded 2 hour ++ ':' :: padded 2 minute
    match cs with
    | ':' :: cs =>
      let (second, cs) ← fixed? 2 cs
      if 60 < second then none
      else
        let text := text ++ ':' :: padded 2 second
        match cs with
        | '.' :: cs =>
          let fraction := cs.takeWhile Char.isDigit
          if fraction = [] then none
          else some (text ++ '.' :: fractionText fraction, cs.dropWhile Char.isDigit)
        | cs => some (text, cs)
    | cs => some (text, cs)

/-- The distance to universal time, with its text; at most a day. -/
private def offset? (cs : List Char) : Option (List Char × List Char) :=
  match cs with
  | 'Z' :: cs | 'z' :: cs => some (['Z'], cs)
  | sign :: cs => do
    if sign ≠ '+' ∧ sign ≠ '-' then none
    let (hours, cs) ← fixed? 2 cs
    let (minutes, cs) ← after? ':' cs >>= fixed? 2
    let total := hours * 60 + minutes
    if 24 * 60 < total then none
    let sign := if total = 0 then '+' else sign
    some (sign :: padded 2 (total / 60) ++ ':' :: padded 2 (total % 60), cs)
  | [] => none

/-- A date, a time, or both with or without a distance to universal time. -/
private def datetime? (cs : List Char) : Option Value :=
  let text? : Option (List Char) :=
    match date? cs with
    | some (date, []) => some date
    | some (date, separator :: cs) =>
      if separator = 'T' ∨ separator = 't' ∨ separator = ' ' then
        match time? cs with
        | some (time, []) => some (date ++ 'T' :: time)
        | some (time, cs) =>
          match offset? cs with
          | some (offset, []) => some (date ++ 'T' :: time ++ offset)
          | _ => none
        | none => none
      else none
    | none =>
      match time? cs with
      | some (time, []) => some time
      | _ => none
  text?.map fun text => .string (String.ofList text)

private def isTokenChar (c : Char) : Bool :=
  c.isAlphanum || c == '_' || c == '-' || c == '+' || c == '.' || c == ':'

/-- A scalar without quotes: the run of its characters, going on after a blank where a date is
followed by a time. -/
def readToken (cs : List Char) : List Char × List Char :=
  let first := cs.takeWhile isTokenChar
  let rest := cs.dropWhile isTokenChar
  match rest with
  | ' ' :: c :: more =>
    if (date? first).map (·.2) = some [] ∧ c.isDigit then
      (first ++ ' ' :: (c :: more).takeWhile isTokenChar, (c :: more).dropWhile isTokenChar)
    else (first, rest)
  | _ => (first, rest)

/-- The value of a scalar without quotes. -/
def tokenValue? (token : List Char) : Option Value :=
  if token = "true".toList then some (.boolean true)
  else if token = "false".toList then some (.boolean false)
  else (datetime? token).orElse fun _ => (integer? token).orElse fun _ => float? token

private def isForbidden (c : Char) : Bool := (c.toNat < 0x20 && c ≠ '\t') || c.toNat == 0x7F

/-- The character of a code, if there is one. -/
private def scalar? (code : Nat) : Option Char :=
  if code.isValidChar then some (Char.ofNat code) else none

private def hexadecimal? (count : Nat) (cs : List Char) : Option (Char × List Char) :=
  if (cs.take count).length = count then
    ((cs.take count).mapM (digitOf? 16)).bind fun ds =>
      (scalar? (numberOf 16 ds)).map (·, cs.drop count)
  else none

/-- What an escape stands for, after its backslash. -/
private def escape? : List Char → Option (Char × List Char)
  | 'b' :: cs => some ('\x08', cs)
  | 't' :: cs => some ('\t', cs)
  | 'n' :: cs => some ('\n', cs)
  | 'f' :: cs => some ('\x0c', cs)
  | 'r' :: cs => some ('\r', cs)
  | 'e' :: cs => some ('\x1b', cs)
  | '"' :: cs => some ('"', cs)
  | '\\' :: cs => some ('\\', cs)
  | 'x' :: cs => hexadecimal? 2 cs
  | 'u' :: cs => hexadecimal? 4 cs
  | 'U' :: cs => hexadecimal? 8 cs
  | _ => none

private def isSpace (c : Char) : Bool := c == ' ' || c == '\t'

/-- A line break at the start of a text taken off. -/
def afterNewline? : List Char → Option (List Char)
  | '\n' :: cs => some cs
  | '\r' :: '\n' :: cs => some cs
  | _ => none

private def isLayout (c : Char) : Bool := isSpace c || c == '\n' || c == '\r'

/-- A basic string after its opening quotes. `multiline` strings end at three quotes, two more of
which may belong to the string, and a backslash at the end of a line swallows the blanks after
it. `fuel` bounds the steps. -/
private def basic? (multiline : Bool) : Nat → List Char → Option (List Char × List Char)
  | 0, _ => none
  | fuel + 1, cs =>
    let push (c : Char) (cs : List Char) : Option (List Char × List Char) :=
      (basic? multiline fuel cs).map fun (s, rest) => (c :: s, rest)
    match cs with
    | [] => none
    | '"' :: cs =>
      if !multiline then some ([], cs)
      else
        match cs with
        | '"' :: '"' :: '"' :: '"' :: cs => some (['"', '"'], cs)
        | '"' :: '"' :: '"' :: cs => some (['"'], cs)
        | '"' :: '"' :: cs => some ([], cs)
        | cs => push '"' cs
    | '\\' :: cs =>
      let blank := cs.dropWhile isSpace
      match if multiline then afterNewline? blank else none with
      | some rest => basic? multiline fuel (rest.dropWhile isLayout)
      | none => (escape? cs).bind fun (c, cs) => push c cs
    | c :: cs =>
      match if multiline then afterNewline? (c :: cs) else none with
      | some rest => push '\n' rest
      | none => if isForbidden c then none else push c cs

/-- A literal string after its opening quotes; nothing in it is escaped. -/
private def literal? (multiline : Bool) : Nat → List Char → Option (List Char × List Char)
  | 0, _ => none
  | fuel + 1, cs =>
    let push (c : Char) (cs : List Char) : Option (List Char × List Char) :=
      (literal? multiline fuel cs).map fun (s, rest) => (c :: s, rest)
    match cs with
    | [] => none
    | '\'' :: cs =>
      if !multiline then some ([], cs)
      else
        match cs with
        | '\'' :: '\'' :: '\'' :: '\'' :: cs => some (['\'', '\''], cs)
        | '\'' :: '\'' :: '\'' :: cs => some (['\''], cs)
        | '\'' :: '\'' :: cs => some ([], cs)
        | cs => push '\'' cs
    | c :: cs =>
      match if multiline then afterNewline? (c :: cs) else none with
      | some rest => push '\n' rest
      | none => if isForbidden c then none else push c cs

/-- A string on one line, of either kind. -/
def readLineString? : List Char → Option (List Char × List Char)
  | '"' :: cs => basic? false (cs.length + 1) cs
  | '\'' :: cs => literal? false (cs.length + 1) cs
  | _ => none

/-- A string of any kind. A line break right after three opening quotes is not part of it. -/
def readString? : List Char → Option (List Char × List Char)
  | '"' :: '"' :: '"' :: cs => basic? true (cs.length + 1) ((afterNewline? cs).getD cs)
  | '\'' :: '\'' :: '\'' :: cs => literal? true (cs.length + 1) ((afterNewline? cs).getD cs)
  | cs => readLineString? cs

end StyleTemplate.Toml
