import StyleTemplate.Command.Check
import StyleTemplate.Command.Compile
import StyleTemplate.Command.Help

/-! The words of a command line. -/

namespace StyleTemplate

/-- A word: the mark that only operands follow, a long option, a group of short options, or an
operand. -/
inductive Word where
  | mark
  | long (name : String) (value : Option String)
  | short (letters : List Char)
  | operand (text : String)
deriving DecidableEq, Repr

def Word.ofText (text : String) : Word :=
  match text.toList with
  | ['-', '-'] => mark
  | '-' :: '-' :: cs =>
    let name := cs.takeWhile (· ≠ '=')
    match cs.dropWhile (· ≠ '=') with
    | [] => long (String.ofList name) none
    | _ :: value => long (String.ofList name) (some (String.ofList value))
  | '-' :: c :: cs => short (c :: cs)
  | _ => operand text

/-- The long options that may be given besides those for all commands. -/
structure Grammar where
  flags : List String
  /-- Options with a value that may be given once. -/
  single : List String
  /-- Options with a value that may be given again. -/
  repeated : List String

/-- What was given on one level of a command line. -/
structure Given where
  quiet : Bool := false
  verbose : Nat := 0
  flags : List String := []
  values : List (String × String) := []
  operands : List String := []
deriving Inhabited

/-- Why nothing is run: the words make no sense, or help or the version is asked for. -/
inductive Refusal where
  | usage | help | version
deriving DecidableEq, Repr

namespace Given

/-- A flag by its long name. Only the count of `verbose` may grow. -/
def addFlag (g : Given) (grammar : Grammar) (name : String) : Except Refusal Given :=
  if name = "help" then .error .help
  else if name = "verbose" then .ok { g with verbose := g.verbose + 1 }
  else if name = "quiet" then if g.quiet then .error .usage else .ok { g with quiet := true }
  else if !grammar.flags.contains name || g.flags.contains name then .error .usage
  else if name = "version" then .error .version
  else .ok { g with flags := g.flags ++ [name] }

/-- The long name of a short option. -/
def longName? : Char → Option String
  | 'q' => some "quiet"
  | 'v' => some "verbose"
  | 'h' => some "help"
  | 'V' => some "version"
  | _ => none

/-- A group of short options. -/
def addLetters (g : Given) (grammar : Grammar) (letters : List Char) : Except Refusal Given :=
  letters.foldlM (fun g letter =>
    match longName? letter with
    | some name => g.addFlag grammar name
    | none => .error .usage) g

def takesValue (grammar : Grammar) (name : String) : Bool :=
  grammar.single.contains name || grammar.repeated.contains name

/-- The value of an option. -/
def addValue (g : Given) (grammar : Grammar) (name value : String) : Except Refusal Given :=
  if grammar.single.contains name && g.values.any (·.1 == name) then .error .usage
  else .ok { g with values := g.values ++ [(name, value)] }

/-- Whether a word can be the value of the option before it. -/
def isValue (text : String) : Bool :=
  match Word.ofText text with
  | .operand _ => true
  | _ => false

/-- The words after the name of a command. -/
def read (g : Given) (grammar : Grammar) : List String → Except Refusal Given
  | [] => .ok g
  | word :: words =>
    match Word.ofText word with
    | .mark => .ok { g with operands := g.operands ++ words }
    | .operand text => read { g with operands := g.operands ++ [text] } grammar words
    | .short letters =>
      match g.addLetters grammar letters with
      | .ok g => read g grammar words
      | .error refusal => .error refusal
    | .long name (some value) =>
      if takesValue grammar name then
        match g.addValue grammar name value with
        | .ok g => read g grammar words
        | .error refusal => .error refusal
      else .error .usage
    | .long name none =>
      if takesValue grammar name then
        match words with
        | [] => .error .usage
        | value :: words =>
          if isValue value then
            match g.addValue grammar name value with
            | .ok g => read g grammar words
            | .error refusal => .error refusal
          else .error .usage
      else
        match g.addFlag grammar name with
        | .ok g => read g grammar words
        | .error refusal => .error refusal

/-- The words up to the name of a command, that name, and the words after it. -/
def readTop (g : Given) (grammar : Grammar) :
    List String → Except Refusal (Given × String × List String)
  | [] => .error .usage
  | word :: words =>
    match Word.ofText word with
    | .operand name => .ok (g, name, words)
    | .short letters =>
      match g.addLetters grammar letters with
      | .ok g => readTop g grammar words
      | .error refusal => .error refusal
    | .long name none =>
      match g.addFlag grammar name with
      | .ok g => readTop g grammar words
      | .error refusal => .error refusal
    | .long _ (some _) | .mark => .error .usage

/-- The last value of an option. -/
def value? (g : Given) (name : String) : Option String := g.values.reverse.lookup name

/-- The values of an option that takes lists with commas. -/
def list (g : Given) (name : String) : List String :=
  (g.values.filter (·.1 == name)).flatMap fun (_, text) => text.splitOn ","

/-- Quiet and verbose exclude each other. -/
def isConsistent (g : Given) : Bool := !(g.quiet && g.verbose ≠ 0)

end Given

/-- A command with its options. -/
inductive Command where
  | compile (options : CompileOptions)
  | check (options : CheckOptions)
deriving DecidableEq, Repr

/-- What a command line asks for. -/
inductive Invocation where
  | run (command : Command) (quiet : Bool) (verbose : Nat)
  | help (topic : HelpTopic)
  | version
  | misuse
deriving DecidableEq, Repr

namespace Invocation

def programGrammar : Grammar := ⟨["version"], [], []⟩

def compileGrammar : Grammar := ⟨["minify"], ["values", "out-dir"], []⟩

def checkGrammar : Grammar := ⟨[], ["values"], ["select", "ignore"]⟩

def compileCommand (g : Given) : Command :=
  .compile
    { paths := g.operands.map Path.mk
      values := (g.value? "values").map Path.mk
      minify := g.flags.contains "minify"
      outDir := (g.value? "out-dir").map Path.mk }

def checkCommand (g : Given) : Command :=
  .check
    { paths := g.operands.map Path.mk
      values := (g.value? "values").map Path.mk
      select := g.list "select"
      ignore := g.list "ignore" }

def ofRefusal (topic : HelpTopic) : Refusal → Invocation
  | .usage => misuse
  | .help => help topic
  | .version => version

/-- The topic that the words after `help` name. -/
def helpOn : List String → Invocation
  | [] => help .program
  | ["compile"] => help .compile
  | ["check"] => help .check
  | ["help"] => help .help
  | _ => misuse

/-- A command from the options before and after its name. A count of `verbose` after the name
stands in for one before it. -/
def command (top : Given) (topic : HelpTopic) (grammar : Grammar) (make : Given → Command)
    (words : List String) : Invocation :=
  match Given.read {} grammar words with
  | .error refusal => ofRefusal topic refusal
  | .ok g =>
    if top.isConsistent && g.isConsistent then
      run (make g) (top.quiet || g.quiet) (if g.verbose = 0 then top.verbose else g.verbose)
    else misuse

/-- What the words of a command line ask for. -/
def ofWords (words : List String) : Invocation :=
  match Given.readTop {} programGrammar words with
  | .error refusal => ofRefusal .program refusal
  | .ok (top, name, words) =>
    if name = "compile" then command top .compile compileGrammar compileCommand words
    else if name = "check" then command top .check checkGrammar checkCommand words
    else if name = "help" then helpOn words
    else misuse

end Invocation

end StyleTemplate
