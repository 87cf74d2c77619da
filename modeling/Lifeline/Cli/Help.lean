import Lifeline.Cli.Command

/-! The descriptions of the program and its commands. -/

set_option autoImplicit false

namespace Lifeline.Cli

def versionText : String := "umlsync 0.1.0"

namespace Command

def name : Command → String
  | tokens => "tokens"
  | parse _ => "parse"
  | extract => "extract"
  | repair _ => "repair"
  | generate => "generate"
  | «export» => "export"

def summary : Command → String
  | tokens => "Print the token stream and lexical diagnostics as JSON"
  | parse _ => "Print tokens, AST, diagnostics and statistics as JSON"
  | extract => "Print the regex-extracted actors and messages as JSON"
  | repair _ => "Print the source with directives, line endings and blank runs fixed"
  | generate => "Read a GUI state JSON document and print the PlantUML it generates"
  | «export» => "Print the JSON export (condition blocks plus PlantUML) of a diagram"

def all : List Command :=
  [tokens, parse false, extract, repair Repair.defaultMaxLines, generate, «export»]

/-- The lines on the options that a command has for itself, in a column of the given width. -/
def ownOptions : Command → List (String × String)
  | parse _ => [("    --strict", "Exit with status 3 if any diagnostic was raised")]
  | repair _ =>
    [("    --max-lines <MAX_LINES>", "[default: " ++ toString Repair.defaultMaxLines ++ "]")]
  | _ => []

end Command

def columns (rows : List (String × String)) : List String :=
  let width := (rows.map (·.1.length)).foldl max 0
  rows.map fun (left, right) =>
    "  " ++ left ++ String.ofList (List.replicate (width - left.length) ' ') ++ "  " ++ right

def helpSummary : String := "Print this message or the help of the given subcommand(s)"

def commandRows : List (String × String) :=
  Command.all.map (fun command => (command.name, command.summary)) ++ [("help", helpSummary)]

def helpText (full : Bool) : String :=
  let about :=
    if full then
      ["Inspect and convert PlantUML sequence diagrams.", "",
       "Input is read from FILE, or from stdin when FILE is omitted or `-`."]
    else ["Inspect and convert PlantUML sequence diagrams"]
  let options :=
    if full then
      ["      --pretty", "          Pretty-print JSON output", "", "  -h, --help",
       "          Print help (see a summary with '-h')", "", "  -V, --version",
       "          Print version"]
    else columns [("    --pretty", "Pretty-print JSON output"),
      ("-h, --help", "Print help (see more with '--help')"), ("-V, --version", "Print version")]
  "\n".intercalate (about ++ ["", "Usage: umlsync [OPTIONS] <COMMAND>", "", "Commands:"] ++
    columns commandRows ++ ["", "Options:"] ++ options)

def commandHelpText (command : Command) : String :=
  let options := columns (command.ownOptions ++
    [("    --pretty", "Pretty-print JSON output"), ("-h, --help", "Print help")])
  "\n".intercalate ([command.summary, "", "Usage: umlsync " ++ command.name ++ " [OPTIONS] [INPUT]",
    "", "Arguments:", "  [INPUT]  ", "", "Options:"] ++ options)

def helpHelpText : String :=
  "\n".intercalate ([helpSummary, "", "Usage: umlsync help [COMMAND]...", "", "Arguments:"] ++
    columns [("[COMMAND]...", "Print help for the subcommand(s)")])

end Lifeline.Cli
