import StyleTemplate.Command.Arguments

/-! A whole command line: what it prints, what it tells, and the files it leaves behind. -/

namespace StyleTemplate

/-- What a command line comes to. -/
structure Outcome where
  exitCode : Nat
  output : String
  errorLines : List String
  files : FileTree

namespace Command

def run (command : Command) (p : Project) : Run :=
  match command with
  | compile options => options.run p
  | check options => options.run p

/-- The least important level that is told. The debug setting asks for as much as two `verbose`. -/
def threshold (quiet : Bool) (verbose : Nat) (debug : Bool) : Level :=
  if quiet then .error
  else
    match if debug then max verbose 2 else verbose with
    | 0 => .warn
    | 1 => .info
    | 2 => .debug
    | _ => .trace

/-- Whether the settings ask for debugging; settings that cannot be read do not. -/
def wantsDebug (p : Project) : Bool :=
  match p.settings with
  | .ok settings => settings.debug
  | .error _ => false

/-- The lines of the events that are told. -/
def eventLines (run : Run) (level : Level) (withTarget : Bool) : List String :=
  (run.events.filter (·.level.passes level)).map (·.line withTarget)

/-- What a command comes to. Where the events come from is told from two `verbose` on. -/
def outcome (command : Command) (quiet : Bool) (verbose : Nat) (p : Project) : Outcome :=
  let run := command.run p
  { exitCode := if run.ending.succeeds then 0 else 1
    output := String.join (run.printed.map (· ++ "\n"))
    errorLines := eventLines run (threshold quiet verbose (wantsDebug p)) (1 < verbose) ++
      run.ending.message?.toList
    files := run.files }

end Command

namespace Invocation

/-- The name and version of the program. -/
def versionText : String := "dcss 0.1.0\n"

/-- What an invocation comes to. -/
def outcome (invocation : Invocation) (p : Project) : Outcome :=
  match invocation with
  | run command quiet verbose => command.outcome quiet verbose p
  | help topic => ⟨0, topic.text, [], p.files⟩
  | version => ⟨0, versionText, [], p.files⟩
  | misuse => ⟨2, "", [], p.files⟩

end Invocation

/-- What a command line comes to in a project. -/
def runCommandLine (words : List String) (p : Project) : Outcome :=
  (Invocation.ofWords words).outcome p

end StyleTemplate
