import CodeSurvey.Program
import CodeSurvey.Report.Format

/-! # Parameters

The commands of the program and their parameters, and how usage and help show them. -/

namespace CodeSurvey.CommandLine

/-- A parameter of a command. -/
inductive Parameter where
  | path
  | exclude
  | format
  | output
  | settings
  | jobs
  | includePrivate
  | verbose
  | help
  | version
deriving DecidableEq, Repr, Inhabited

namespace Parameter

/-- The name of a parameter after two dashes. -/
def long? : Parameter → Option String
  | path => none
  | exclude => some "exclude"
  | format => some "format"
  | output => some "output"
  | settings => some "config"
  | jobs => some "jobs"
  | includePrivate => some "include-private"
  | verbose => some "verbose"
  | help => some "help"
  | version => some "version"

/-- The letter of a parameter after one dash. -/
def short? : Parameter → Option Char
  | path => none
  | exclude => some 'e'
  | format => some 'f'
  | output => some 'o'
  | settings => some 'c'
  | jobs => some 'j'
  | includePrivate => none
  | verbose => some 'v'
  | help => some 'h'
  | version => some 'V'

/-- What the value of a parameter is called, if it takes one. -/
def valueName? : Parameter → Option String
  | path => some "PATH"
  | exclude => some "GLOB"
  | format => some "FORMAT"
  | output => some "FILE"
  | settings => some "FILE"
  | jobs => some "JOBS"
  | _ => none

/-- Whether a parameter may be given more than once. -/
def isRepeatable : Parameter → Bool
  | exclude => true
  | _ => false

/-- The words of which the value has to be one, if there are any. -/
def words : Parameter → List String
  | format => ReportFormat.words.map (·.1)
  | _ => []

/-- What a parameter is for. -/
def purpose : Parameter → String
  | path => "Project root directory"
  | exclude => "Additional glob pattern to exclude (repeatable)"
  | format => "Output format (default: pretty, or the config file's value)"
  | output => "Write output to a file instead of stdout"
  | settings => "Path to a YAML config file"
  | jobs => "Maximum number of files parsed concurrently"
  | includePrivate => "Keep private functions, methods and properties"
  | verbose => "Enable debug logging (RUST_LOG takes precedence)"
  | help => "Print help"
  | version => "Print version"

/-- The value of a parameter, as it is shown. -/
def shownValue (p : Parameter) : String :=
  match p.valueName? with
  | some name => "<" ++ name ++ ">"
  | none => ""

/-- A parameter with its value, as it is shown. -/
def shown (p : Parameter) : String :=
  match p.long? with
  | none => p.shownValue
  | some name => "--" ++ name ++ (if p.valueName?.isSome then " " ++ p.shownValue else "")

/-- A parameter with its letter and its value, as help shows it. -/
def label (p : Parameter) : String :=
  let letter := match p.short? with
    | some c => "-" ++ c.toString ++ ", "
    | none => if p.long?.isSome then "    " else ""
  letter ++ p.shown

/-- The words of a value in brackets. -/
def shownWords (p : Parameter) : String :=
  if p.words.isEmpty then "" else "[possible values: " ++ ", ".intercalate p.words ++ "]"

/-- What help says about a parameter. -/
def explanation (p : Parameter) : String :=
  p.purpose ++ (if p.words.isEmpty then "" else " " ++ p.shownWords)

end Parameter

/-- A command: the program itself, or a word that is given to it. -/
inductive Command where
  | program
  | analyze
  | help
deriving DecidableEq, Repr, Inhabited

namespace Command

/-- The word for a command. -/
def word : Command → String
  | program => Program.name
  | analyze => "analyze"
  | help => "help"

/-- A command with what comes before it. -/
def words : Command → String
  | program => Program.name
  | c => Program.name ++ " " ++ c.word

/-- What a command does. -/
def purpose : Command → String
  | program =>
    "Structural extraction of TypeScript/JavaScript codebases for documentation generation"
  | analyze => "Analyze a project directory"
  | help => "Print this message or the help of the given subcommand(s)"

/-- The commands that may be given to a command. -/
def subcommands : Command → List Command
  | program => [analyze, help]
  | _ => []

/-- The command of a word that may be given to a command. -/
def subcommand? (c : Command) (word : String) : Option Command :=
  c.subcommands.find? (·.word = word)

/-- The parameters of a command that have names. -/
def options : Command → List Parameter
  | program => [.verbose, .help, .version]
  | analyze =>
    [.exclude, .format, .output, .settings, .jobs, .includePrivate, .verbose, .help]
  | help => []

/-- The options of a command, as help lists them. -/
def listedOptions : Command → List Parameter
  | analyze =>
    [.exclude, .verbose, .format, .output, .settings, .jobs, .includePrivate, .help]
  | c => c.options

/-- The parameter of a command that has no name. -/
def positional? : Command → Option Parameter
  | analyze => some .path
  | _ => none

/-- The names of a command's options. -/
def optionNames (c : Command) : List String := c.options.filterMap Parameter.long?

/-- The option of a name. -/
def option? (c : Command) (name : String) : Option Parameter :=
  c.options.find? (·.long? = some name)

/-- The option of a letter. -/
def letter? (c : Command) (letter : Char) : Option Parameter :=
  c.options.find? (·.short? = some letter)

/-- What follows the options of a command. -/
def operands (c : Command) : List String :=
  match c with
  | program => ["<COMMAND>"]
  | analyze => [Parameter.path.shown]
  | help => ["[COMMAND]..."]

/-- How a command is used.  Given parameters are named; if there are none, all options
are shown as one. -/
def usage (c : Command) (given : List Parameter) : String :=
  let options :=
    if !given.isEmpty then (given.filter (·.long?.isSome)).eraseDups.map Parameter.shown
    else if c.options.isEmpty then []
    else ["[OPTIONS]"]
  "Usage: " ++ " ".intercalate (c.words :: options ++ c.operands)

/-- A section of help: rows of two columns under a title. -/
def section_ (title : String) (rows : List (String × String)) : String :=
  let width := (rows.map (·.1.length)).foldl max 0
  let line (row : String × String) : String :=
    "  " ++ row.1 ++ String.ofList (List.replicate (width - row.1.length + 2) ' ') ++ row.2 ++ "\n"
  if rows.isEmpty then "" else "\n" ++ title ++ ":\n" ++ String.join (rows.map line)

/-- The help on a command. -/
def helpText (c : Command) : String :=
  let operands := match c with
    | help => [("[COMMAND]...", "Print help for the subcommand(s)")]
    | _ => c.positional?.toList.map fun p => (p.shown, p.explanation)
  c.purpose ++ "\n\n" ++ c.usage [] ++ "\n"
    ++ section_ "Commands" (c.subcommands.map fun s => (s.word, s.purpose))
    ++ section_ "Arguments" operands
    ++ section_ "Options" (c.listedOptions.map fun p => (p.label, p.explanation))

end Command

end CodeSurvey.CommandLine
