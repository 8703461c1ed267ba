import StyleTemplate.Text.Blank
import StyleTemplate.Text.Quoting

/-! Smaller stylesheets: comments and needless blanks are dropped, and so is a semicolon before a
closing brace. Quoted strings are kept as they are. -/

namespace StyleTemplate.Minify

open Text (isBlank isQuote)

/-- The characters that need no blank in front of them. -/
def tightBefore : List Char := ['{', '}', ';', ',', '>', ')']

/-- The characters that need no blank after them. -/
def tightAfter : List Char := ['{', '}', ';', ':', ',', '>', '(']

/-- What follows the end of a comment; a comment without an end takes everything. -/
def afterComment : List Char → List Char
  | '*' :: '/' :: cs => cs
  | _ :: cs => afterComment cs
  | [] => []

/-- The rest of a string after its opening quote, through the first quote of the same kind that no
backslash escapes, and what follows. -/
def takeString (quote : Char) : List Char → List Char × List Char
  | [] => ([], [])
  | '\\' :: c :: cs =>
    let (body, rest) := takeString quote cs
    ('\\' :: c :: body, rest)
  | c :: cs =>
    if c = quote then ([c], cs)
    else
      let (body, rest) := takeString quote cs
      (c :: body, rest)

theorem length_afterComment_le (cs : List Char) : (afterComment cs).length ≤ cs.length := by
  fun_induction afterComment cs <;> simp_all <;> omega

theorem takeString_append (quote : Char) (cs : List Char) :
    (takeString quote cs).1 ++ (takeString quote cs).2 = cs := by
  fun_induction takeString quote cs <;> simp_all

theorem length_takeString_le (quote : Char) (cs : List Char) :
    (takeString quote cs).2.length ≤ cs.length := by
  have := congrArg List.length (takeString_append quote cs)
  simp at this
  omega

/-- The output, last character first, made ready for `next`: a gap becomes one blank where both
sides need it. -/
def closeGap (written : List Char) (gap : Bool) (next : Char) : List Char :=
  match written with
  | [] => []
  | last :: _ =>
    if gap && !tightBefore.contains next && !tightAfter.contains last then ' ' :: written
    else written

/-- The output without the semicolon at its end, where a closing brace follows. -/
def dropSemicolon (written : List Char) (next : Char) : List Char :=
  match written with
  | ';' :: rest => if next = '}' then rest else written
  | _ => written

/-- Minifies what is left. `written` is the output so far, last character first; `gap` tells whether
blanks or comments came after it. -/
def minifyFrom (written : List Char) (gap : Bool) : List Char → List Char
  | [] => written.reverse
  | '/' :: '*' :: cs => minifyFrom written true (afterComment cs)
  | c :: cs =>
    if isBlank c then minifyFrom written true cs
    else
      let ready := closeGap written gap c
      if isQuote c then
        minifyFrom ((takeString c cs).1.reverse ++ c :: ready) false (takeString c cs).2
      else minifyFrom (c :: dropSemicolon ready c) false cs
termination_by cs => cs.length
decreasing_by
  · have := length_afterComment_le cs; simp; omega
  · simp
  · have := length_takeString_le c cs; simp; omega
  · simp

end Minify

/-- A stylesheet without comments and needless blanks. -/
def minify (css : String) : String := String.ofList (Minify.minifyFrom [] false css.toList)

end StyleTemplate
