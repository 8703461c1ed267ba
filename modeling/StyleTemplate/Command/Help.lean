/-! The texts that explain the command line. -/

namespace StyleTemplate

/-- What help is asked about. -/
inductive HelpTopic where
  | program | compile | check | help
deriving DecidableEq, Repr

namespace HelpTopic

/-- Entries in two columns, the second one two blanks after the widest first. -/
def columns (entries : List (String × String)) : List String :=
  let width := (entries.map fun e => e.1.length).max?.getD 0
  entries.map fun (left, right) =>
    "  " ++ left ++ "".pushn ' ' (width + 2 - left.length) ++ right

def about : HelpTopic → String
  | program => "Compile dynamic stylesheets with typed placeholders and filter chains"
  | compile => "Compile stylesheets to CSS"
  | check => "Report placeholder problems without writing any output"
  | help => "Print this message or the help of the given subcommand(s)"

def usage : HelpTopic → String
  | program => "dcss [OPTIONS] <COMMAND>"
  | compile => "dcss compile [OPTIONS] [PATHS]..."
  | check => "dcss check [OPTIONS] [PATHS]..."
  | help => "dcss help [COMMAND]..."

private def quiet : String × String := ("-q, --quiet", "Only print errors")

private def verbose : String × String :=
  ("-v, --verbose...", "Use verbose output. Repeat for more detail")

private def askHelp : String × String := ("-h, --help", "Print help")

private def values : String × String :=
  ("    --values <VALUES>", "JSON or TOML file of variable values, merged over configured values")

def commands : HelpTopic → List (String × String)
  | program => [("compile", compile.about), ("check", check.about), ("help", help.about)]
  | compile | check | help => []

def arguments : HelpTopic → List (String × String)
  | program => []
  | compile =>
    [("[PATHS]...", "Files or directories to compile. If omitted, compiles the stylesheets " ++
      "listed in the project configuration")]
  | check =>
    [("[PATHS]...", "Files or directories to check. If omitted, checks the configured " ++
      "stylesheets, or every stylesheet under the current directory when none are configured")]
  | help => [("[COMMAND]...", "Print help for the subcommand(s)")]

def options : HelpTopic → List (String × String)
  | program => [quiet, verbose, askHelp, ("-V, --version", "Print version")]
  | compile =>
    [quiet, values, ("    --minify", "Minify every compiled stylesheet"), verbose,
      ("    --out-dir <OUT_DIR>",
        "Write `<handle>.css` files here instead of printing to stdout"), askHelp]
  | check =>
    [quiet, values,
      ("    --select <SELECT>",
        "Select specific diagnostic codes to report as errors (e.g. D100,D102)"), verbose,
      ("    --ignore <IGNORE>", "Ignore specific diagnostic codes (e.g. D104)"), askHelp]
  | help => []

private def part (title : String) : List (String × String) → List String
  | [] => []
  | entries => ["", title ++ ":"] ++ columns entries

/-- The text about a topic. -/
def text (topic : HelpTopic) : String :=
  let lines := [topic.about, "", "Usage: " ++ topic.usage] ++ part "Commands" topic.commands ++
    part "Arguments" topic.arguments ++ part "Options" topic.options
  String.join (lines.map (· ++ "\n"))

end HelpTopic

end StyleTemplate
