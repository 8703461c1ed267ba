/-! Patterns for paths. A star stands for characters of one name, two stars between slashes for any
names, and braces for one of several patterns. -/

namespace StyleTemplate

/-- A piece of a pattern. -/
inductive GlobToken where
  | literal (c : Char)
  | any
  | star
  /-- `**/` at the start: nothing, or names up to a slash. -/
  | leading
  /-- `/**/` in between: a slash, with or without names after it. -/
  | between
  /-- `/**` at the end: a slash and anything. -/
  | trailing
  | oneOf (negated : Bool) (ranges : List (Char × Char))
  | openBrace
  | comma
  | closeBrace
deriving DecidableEq, Repr

/-- A pattern without braces. -/
abbrev Glob := List GlobToken

namespace Glob

/-- What comes after each slash of a text. -/
def afterSlashes : List Char → List (List Char)
  | [] => []
  | c :: cs => if c = '/' then cs :: afterSlashes cs else afterSlashes cs

/-- A text and all texts that it ends in. -/
def suffixes : List Char → List (List Char)
  | [] => [[]]
  | c :: cs => (c :: cs) :: suffixes cs

def inRanges (ranges : List (Char × Char)) (c : Char) : Bool :=
  ranges.any fun (first, last) => first ≤ c && c ≤ last

/-- Whether a pattern matches a whole path. -/
def accepts : Glob → List Char → Bool
  | [], cs => cs.isEmpty
  | .literal c :: tokens, cs =>
    match cs with
    | d :: cs => c = d && accepts tokens cs
    | [] => false
  | .any :: tokens, cs =>
    match cs with
    | d :: cs => d ≠ '/' && accepts tokens cs
    | [] => false
  | .oneOf negated ranges :: tokens, cs =>
    match cs with
    | d :: cs => inRanges ranges d != negated && accepts tokens cs
    | [] => false
  | .star :: tokens, cs =>
    accepts tokens cs ||
      match cs with
      | d :: cs => d ≠ '/' && accepts (.star :: tokens) cs
      | [] => false
  | .leading :: tokens, cs =>
    accepts tokens cs || (afterSlashes cs).any (accepts tokens)
  | .between :: tokens, cs =>
    match cs with
    | '/' :: cs => accepts tokens cs || (afterSlashes cs).any (accepts tokens)
    | _ => false
  | .trailing :: tokens, cs =>
    match cs with
    | '/' :: cs => (suffixes cs).any (accepts tokens)
    | _ => false
  | .openBrace :: _, _ | .comma :: _, _ | .closeBrace :: _, _ => false
termination_by tokens cs => (tokens.length, cs.length)

/-- A class of characters after its opening bracket and mark of negation: its ranges so far, last
one first, and whether a dash has begun a range. -/
def readRanges? (first inRange : Bool) (ranges : List (Char × Char)) :
    List Char → Option (List (Char × Char) × List Char)
  | [] => none
  | c :: cs =>
    if c = ']' ∧ !first then
      some (if inRange then ('-', '-') :: ranges else ranges, cs)
    else
      match inRange, ranges with
      | true, (low, _) :: ranges =>
        if low ≤ c then readRanges? false false ((low, c) :: ranges) cs else none
      | _, ranges =>
        if c = '-' ∧ !first then readRanges? false true ranges cs
        else readRanges? false false ((c, c) :: ranges) cs

theorem length_readRanges? {first inRange : Bool} {ranges found : List (Char × Char)}
    {cs rest : List Char} (h : readRanges? first inRange ranges cs = some (found, rest)) :
    rest.length < cs.length := by
  fun_induction readRanges? first inRange ranges cs generalizing found rest <;> grind

/-- Whether no piece stands in front of the present place, within its braces. -/
def isStart : Glob → Bool
  | [] | .openBrace :: _ | .comma :: _ => true
  | _ => false

/-- Two stars where `reversed` is the pattern so far, last piece first, and `rest` follows: the
pattern with them, and what is left. -/
def readStars (depth : Nat) (previous : Option Char) (reversed : Glob) (rest : List Char) :
    Glob × List Char :=
  let names := (.star :: .star :: reversed, rest)
  if isStart reversed then
    match rest with
    | [] => (.leading :: reversed, [])
    | '/' :: rest => (.leading :: reversed, rest)
    | _ => names
  else if previous = some '/' then
    let replace (token : GlobToken) : Glob :=
      match reversed with
      | .leading :: _ | .trailing :: _ => reversed
      | _ :: reversed => token :: reversed
      | [] => [token]
    match rest with
    | [] => (replace .trailing, [])
    | '/' :: rest => (replace .between, rest)
    | c :: _ =>
      if depth ≠ 0 ∧ (c = ',' ∨ c = '\x7d') then (replace .trailing, rest) else names
  else names

theorem length_readStars (depth : Nat) (previous : Option Char) (reversed : Glob)
    (rest : List Char) : (readStars depth previous reversed rest).2.length ≤ rest.length := by
  unfold readStars
  grind

/-- The pieces of a pattern, braces and commas among them. -/
def readFrom? (depth : Nat) (previous : Option Char) (reversed : Glob) (cs : List Char) :
    Option Glob :=
  match cs with
  | [] => if depth = 0 then some reversed.reverse else none
  | '?' :: cs => readFrom? depth (some '?') (.any :: reversed) cs
  | '*' :: '*' :: cs =>
    let more := readStars depth previous reversed cs
    have := length_readStars depth previous reversed cs
    let last := if more.2.length < cs.length then '/' else '*'
    readFrom? depth (some last) more.1 more.2
  | '*' :: cs => readFrom? depth (some '*') (.star :: reversed) cs
  | '[' :: cs =>
    let negated := cs.head? = some '!' ∨ cs.head? = some '^'
    match h : readRanges? true false [] (if negated then cs.drop 1 else cs) with
    | some (ranges, rest) =>
      have := length_readRanges? h
      readFrom? depth (some ']') (.oneOf negated ranges :: reversed) rest
    | none => none
  | '\x7b' :: cs => readFrom? (depth + 1) (some '\x7b') (.openBrace :: reversed) cs
  | '\x7d' :: cs =>
    if depth = 0 then none
    else readFrom? (depth - 1) (some '\x7d') (.closeBrace :: reversed) cs
  | ',' :: cs =>
    readFrom? depth (some ',')
      ((if depth = 0 then .literal ',' else .comma) :: reversed) cs
  | '\\' :: c :: cs => readFrom? depth (some c) (.literal c :: reversed) cs
  | '\\' :: [] => none
  | c :: cs => readFrom? depth (some c) (.literal c :: reversed) cs
termination_by cs.length
decreasing_by all_goals (try split at this) <;> simp_all <;> omega

/-- The patterns without braces that a pattern stands for. An empty choice between braces is no
choice. `pending` holds, for each open brace, the patterns in front of it and the choices that are
finished; `current` holds the patterns of the present choice. -/
def expand (pending : List (List Glob × List Glob)) (current : List Glob) : Glob → List Glob
  | [] => current
  | .openBrace :: tokens => expand ((current, []) :: pending) [[]] tokens
  | .comma :: tokens =>
    match pending with
    | (front, choices) :: pending => expand ((front, choices ++ current) :: pending) [[]] tokens
    | [] => expand [] current tokens
  | .closeBrace :: tokens =>
    match pending with
    | (front, choices) :: pending =>
      let choices := (choices ++ current).filter (· ≠ [])
      let choices := if choices.isEmpty then [[]] else choices
      expand pending (front.flatMap fun g => choices.map (g ++ ·)) tokens
    | [] => expand [] current tokens
  | token :: tokens => expand pending (current.map (· ++ [token])) tokens

/-- The patterns that a text spells; two stars alone match everything. -/
def ofText? (cs : List Char) : Option (List Glob) :=
  (readFrom? 0 none [] cs).map fun tokens =>
    if tokens = [.leading] then [[.leading, .star]] else expand [] [[]] tokens

end Glob

end StyleTemplate
