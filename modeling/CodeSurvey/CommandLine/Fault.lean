import CodeSurvey.CommandLine.Parameter
import CodeSurvey.Text.Similarity

/-! # Faults of command lines -/

namespace CodeSurvey.CommandLine

/-- Why a text is no number of jobs. -/
inductive NumberFault where
  | empty
  | digit
  | tooLarge
deriving DecidableEq, Repr, Inhabited

/-- The wording of a fault. -/
def NumberFault.message : NumberFault → String
  | empty => "cannot parse integer from empty string"
  | digit => "invalid digit found in string"
  | tooLarge => "number too large to fit in target type"

/-- What is wrong with a value. -/
inductive ValueFault where
  | lacking
  | unknownWord (value : String)
  | noNumber (value : String) (fault : NumberFault)
deriving DecidableEq, Repr, Inhabited

/-- What is wrong with a parameter. -/
inductive ParameterFault where
  | value (p : Parameter) (fault : ValueFault)
  | repeated (p : Parameter)
deriving DecidableEq, Repr, Inhabited

/-- Advice on an argument that is not known. -/
inductive Advice where
  | none
  /-- It can be given as a value. -/
  | asValue
  /-- An option has a similar name. -/
  | similarOption (name : String)
  /-- An option of another command has a similar name. -/
  | optionOf (command : Command) (name : String)
  /-- It is a command, and the dashes before it hide it. -/
  | withoutDashes
deriving DecidableEq, Repr, Inhabited

/-- What is wrong with a command line. -/
inductive Problem where
  | parameter (fault : ParameterFault)
  | unknownArgument (word : String) (advice : Advice)
  | unknownCommand (word : String)
  | superfluousValue (p : Parameter) (value : String)
  | noPath
  | noCommand
deriving DecidableEq, Repr, Inhabited

/-- A problem with the arguments of a command, and the parameters that count as given. -/
structure Fault where
  command : Command
  problem : Problem
  given : List Parameter
deriving DecidableEq, Repr, Inhabited

/-- What there is to say instead of running a command. -/
inductive Refusal where
  | help (c : Command)
  | version
  /-- There are no arguments at all. -/
  | nothing
  | fault (f : Fault)
deriving DecidableEq, Repr, Inhabited

/-- A text between quotes. -/
def quote (s : String) : String := "'" ++ s ++ "'"

/-- Advice in words. -/
def Advice.text? (word : String) : Advice → Option String
  | none => Option.none
  | asValue => some ("to pass " ++ quote word ++ " as a value, use " ++ quote ("-- " ++ word))
  | similarOption name => some ("a similar argument exists: " ++ quote ("--" ++ name))
  | optionOf c name => some (quote (c.word ++ " --" ++ name) ++ " exists")
  | withoutDashes =>
    some ("subcommand " ++ quote word ++ " exists; to use it, remove the '--' before it")

namespace Problem

/-- The wording of a problem. -/
def text (c : Command) : Problem → String
  | parameter (.value p fault) =>
    let words := if p.words.isEmpty then "" else "\n  " ++ p.shownWords
    match fault with
    | .lacking => "a value is required for " ++ quote p.shown ++ " but none was supplied" ++ words
    | .unknownWord value => "invalid value " ++ quote value ++ " for " ++ quote p.shown ++ words
    | .noNumber value e =>
      "invalid value " ++ quote value ++ " for " ++ quote p.shown ++ ": " ++ e.message
  | parameter (.repeated p) =>
    "the argument " ++ quote p.shown ++ " cannot be used multiple times"
  | unknownArgument word _ => "unexpected argument " ++ quote word ++ " found"
  | unknownCommand word => "unrecognized subcommand " ++ quote word
  | superfluousValue p value =>
    "unexpected value " ++ quote value ++ " for " ++ quote p.shown
      ++ " found; no more were expected"
  | noPath =>
    "the following required arguments were not provided:\n  " ++ Parameter.path.shown
  | noCommand =>
    quote c.words ++ " requires a subcommand but one was not provided\n  [subcommands: "
      ++ ", ".intercalate (c.subcommands.map Command.word) ++ "]"

/-- What to do about a problem. -/
def tip? (c : Command) : Problem → Option String
  | parameter (.value p (.unknownWord value)) =>
    (Text.similarWords value p.words).getLast?.map fun w => "a similar value exists: " ++ quote w
  | unknownArgument word advice => advice.text? word
  | unknownCommand word =>
    match Text.similarWords word (c.subcommands.map Command.word) with
    | [] => none
    | [w] => some ("a similar subcommand exists: " ++ quote w)
    | ws => some ("some similar subcommands exist: " ++ ", ".intercalate (ws.map quote))
  | _ => none

/-- Whether it helps to show how the command is used. -/
def showsUsage : Problem → Bool
  | parameter (.value _ _) => false
  | _ => true

end Problem

/-- The wording of a fault. -/
def Fault.message (f : Fault) : String :=
  let tip := match f.problem.tip? f.command with
    | some t => "\n\n  tip: " ++ t
    | none => ""
  let usage := if f.problem.showsUsage then "\n\n" ++ f.command.usage f.given else ""
  let more :=
    if f.command.options.contains .help then "\n\nFor more information, try '--help'." else ""
  "error: " ++ f.problem.text f.command ++ tip ++ usage ++ more ++ "\n"

namespace Refusal

/-- What is said instead of running a command. -/
def message : Refusal → String
  | help c => c.helpText
  | version => Program.name ++ " " ++ Program.version ++ "\n"
  | nothing => Command.program.helpText
  | fault f => f.message

/-- Whether it was asked for. -/
def isAnswer : Refusal → Bool
  | help _ => true
  | version => true
  | _ => false

end Refusal

end CodeSurvey.CommandLine
