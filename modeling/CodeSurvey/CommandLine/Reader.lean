import CodeSurvey.CommandLine.Fault

/-! # Reading command lines

The arguments of a command are read one by one.  A value is checked when the argument
after it has been seen, so that of two faults the one that is met first need not be the
one that counts. -/

namespace CodeSurvey.CommandLine

/-- The arguments of a command that were read so far. -/
structure Draft where
  /-- The parameters that were given, in the order of their first use. -/
  given : List Parameter
  /-- Their values, in order. -/
  values : List (Parameter × String)
  /-- The last parameter that takes a value, and the value once it is read. -/
  pending : Option (Parameter × Option String)
deriving Inhabited

/-! ### Values -/

/-- Read digits after those of a number. -/
def readDigits (n : Nat) : List Char → Except NumberFault Nat
  | [] => .ok n
  | c :: rest =>
    if !c.isDigit then .error .digit
    else
      let m := n * 10 + (c.toNat - '0'.toNat)
      if Nat.pow 2 64 ≤ m then .error .tooLarge else readDigits m rest

/-- Read a natural number of 64 bits. -/
def readNumber (s : String) : Except NumberFault Nat :=
  match s.toList with
  | [] => .error .empty
  | ['+'] => .error .digit
  | '+' :: cs => readDigits 0 cs
  | cs => readDigits 0 cs

/-- What is wrong with a value of a parameter. -/
def valueFault? (p : Parameter) (value : String) : Option ValueFault :=
  match p with
  | .exclude => none
  | .jobs =>
    match readNumber value with
    | .ok _ => none
    | .error e => some (.noNumber value e)
  | .format =>
    if value.isEmpty then some .lacking
    else if p.words.contains value then none
    else some (.unknownWord value)
  | _ => if value.isEmpty then some .lacking else none

namespace Draft

/-- No arguments. -/
def none : Draft := ⟨[], [], Option.none⟩

/-- Take a parameter with its value. -/
def take (d : Draft) (p : Parameter) (value : Option String) : Draft × Option ParameterFault :=
  if p.valueName?.isSome && value.isNone then (d, some (.value p .lacking))
  else if d.given.contains p && !p.isRepeatable then
    ({ d with given := d.given.filter (· != p) }, some (.repeated p))
  else
    let given := if d.given.contains p then d.given else d.given ++ [p]
    match value with
    | Option.none => ({ d with given }, Option.none)
    | some v =>
      match valueFault? p v with
      | some fault => ({ d with given }, some (.value p fault))
      | Option.none => ({ d with given, values := d.values ++ [(p, v)] }, Option.none)

/-- Take the parameter that is pending. -/
def settle (d : Draft) : Draft × Option ParameterFault :=
  match d.pending with
  | Option.none => (d, Option.none)
  | some (p, value) => take { d with pending := Option.none } p value

/-- The values of a parameter. -/
def valuesOf (d : Draft) (p : Parameter) : List String :=
  (d.values.filter (·.1 = p)).map (·.2)

end Draft

/-! ### Arguments -/

/-- Refuse the arguments of a command. -/
def refuse {α : Type} (c : Command) (problem : Problem) (given : List Parameter) :
    Except Refusal α :=
  .error (.fault ⟨c, problem, given⟩)

/-- A draft, if there is no fault in it. -/
def checked (c : Command) : Draft × Option ParameterFault → Except Refusal Draft
  | (d, none) => .ok d
  | (_, some fault) => refuse c (.parameter fault) []

/-- Begin to read an option that takes a value.  The second part of the result tells
whether the value is the next argument. -/
def beginOption (c : Command) (d : Draft) (p : Parameter) (value : Option String) :
    Except Refusal (Draft × Bool) := do
  let d ← checked c d.settle
  match value with
  | some v => return (← checked c (d.take p (some v)), false)
  | none => return ({ d with pending := some (p, none) }, true)

/-- Take an option without a value. -/
def takeFlag (c : Command) (d : Draft) (p : Parameter) : Except Refusal Draft := do
  let d ← checked c d.settle
  match p with
  | .help => .error (.help c)
  | .version => .error .version
  | _ => checked c (d.take p none)

/-- Refuse an option whose name is not known.  If a similar name is, that option counts
as given. -/
def refuseName {α : Type} (c : Command) (d : Draft) (name : String) (rest : List String) :
    Except Refusal α :=
  let given := d.settle.1.given
  let word := "--" ++ name
  match (Text.similarWords name c.optionNames).getLast? with
  | some similar =>
    let more := (c.option? similar).toList.filter fun p => !given.contains p
    refuse c (.unknownArgument word (.similarOption similar)) (given ++ more)
  | none =>
    let elsewhere := c.subcommands.filterMap fun s =>
      (Text.similarWords name s.optionNames).getLast?.bind fun similar =>
        (rest.idxOf? s.word).map fun i => (i, s, similar)
    match elsewhere.mergeSort fun a b => a.1 ≤ b.1 with
    | (_, s, similar) :: _ => refuse c (.unknownArgument word (.optionOf s similar)) given
    | [] =>
      refuse c (.unknownArgument word (if c.positional?.isSome then .asValue else .none)) given

/-- Read an argument that begins with two dashes. -/
def readName (c : Command) (d : Draft) (name : String) (value : Option String)
    (rest : List String) : Except Refusal (Draft × Bool) := do
  match c.option? name with
  | some p =>
    if p.valueName?.isSome then beginOption c d p value
    else
      match value with
      | some v => refuse c (.superfluousValue p v) (d.given ++ [p])
      | none => return (← takeFlag c d p, false)
  | none => refuseName c d name rest

/-- Read letters after a dash.  What follows the letter of an option that takes a value
is that value; an equality sign may stand before it. -/
def readLetters (c : Command) : Draft → List Char → Except Refusal (Draft × Bool)
  | d, [] => .ok (d, false)
  | d, letter :: rest =>
    match c.letter? letter with
    | some p =>
      if p.valueName?.isSome then
        let value := match rest with
          | [] => none
          | '=' :: cs => some (String.ofList cs)
          | cs => some (String.ofList cs)
        beginOption c d p value
      else
        match takeFlag c d p with
        | .ok d => readLetters c d rest
        | .error e => .error e
    | none =>
      refuse c
        (.unknownArgument ("-" ++ letter.toString) (if c.positional?.isSome then .asValue else .none))
        []

/-- Refuse an argument for which there is no place. -/
def refuseOperand {α : Type} (c : Command) (trailing : Bool) (word : String) : Except Refusal α :=
  if trailing && (c.subcommand? word).isSome then refuse c (.unknownArgument word .withoutDashes) []
  else if c.subcommands.isEmpty then refuse c (.unknownArgument word .none) []
  else refuse c (.unknownCommand word) []

/-- Read an argument without a name. -/
def readOperand (c : Command) (trailing : Bool) (d : Draft) (word : String) : Except Refusal Draft := do
  let isPlaced (p : Parameter) : Bool := d.given.contains p || d.pending.any (·.1 = p)
  match c.positional?.filter fun p => !isPlaced p with
  | some p =>
    let d ← checked c d.settle
    return { d with pending := some (p, some word) }
  | none => refuseOperand c trailing word

/-- A name and a value that an equality sign separates. -/
def splitName (cs : List Char) : String × Option String :=
  let name := cs.takeWhile (· != '=')
  match cs.drop name.length with
  | _ :: value => (String.ofList name, some (String.ofList value))
  | [] => (String.ofList name, none)

/-- Read the arguments of a command.  `trailing` tells that two dashes were met, and
`awaiting` that the next argument is a value.  If a subcommand is met, it is given with
the arguments after it. -/
def readArguments (c : Command) (trailing awaiting : Bool) (d : Draft) :
    List String → Except Refusal (Draft × Option (Command × List String))
  | [] => .ok (d, none)
  | word :: rest =>
    let value (d : Draft) : Except Refusal (Draft × Option (Command × List String)) :=
      match awaiting && !trailing, d.pending with
      | true, some (p, _) =>
        readArguments c trailing false { d with pending := some (p, some word) } rest
      | _, _ =>
        match readOperand c trailing d word with
        | .ok d => readArguments c trailing false d rest
        | .error e => .error e
    if trailing then value d
    else
      match if awaiting then none else c.subcommand? word with
      | some s => .ok (d, some (s, rest))
      | none =>
        match word.toList with
        | ['-', '-'] => readArguments c true awaiting d rest
        | '-' :: '-' :: cs =>
          let (name, v) := splitName cs
          match readName c d name v rest with
          | .ok (d, awaiting) => readArguments c trailing awaiting d rest
          | .error e => .error e
        | '-' :: l :: ls =>
          match readLetters c d (l :: ls) with
          | .ok (d, awaiting) => readArguments c trailing awaiting d rest
          | .error e => .error e
        | _ => value d

/-! ### Commands -/

/-- The arguments of an analysis. -/
structure AnalyzeArguments where
  path : String
  excludes : List String
  format : Option ReportFormat
  output : Option String
  settings : Option String
  jobs : Option Nat
  includePrivate : Bool
deriving DecidableEq, Repr, Inhabited

/-- A command line that can be followed. -/
structure Invocation where
  verbose : Bool
  arguments : AnalyzeArguments
deriving DecidableEq, Repr, Inhabited

/-- The arguments that a draft makes. -/
def Draft.arguments? (d : Draft) : Option AnalyzeArguments :=
  (d.valuesOf .path).head?.map fun path =>
    { path
      excludes := d.valuesOf .exclude
      format := (d.valuesOf .format).head?.bind fun w => ReportFormat.words.lookup w
      output := (d.valuesOf .output).head?
      settings := (d.valuesOf .settings).head?
      jobs := (d.valuesOf .jobs).head?.bind fun v => (readNumber v).toOption
      includePrivate := d.given.contains .includePrivate }

/-- Read the words after `help`: each is a command of the one before. -/
def readHelp (c : Command) : List String → Refusal
  | [] => .help c
  | word :: rest =>
    match c.subcommand? word with
    | some s => readHelp s rest
    | none => .fault ⟨c, .unknownCommand word, []⟩

/-- Read the arguments of an analysis. -/
def readAnalyze (words : List String) : Except Refusal (Draft × AnalyzeArguments) := do
  let (d, _) ← readArguments .analyze false false .none words
  let d ← checked .analyze d.settle
  match d.arguments? with
  | some a => return (d, a)
  | none => refuse .analyze .noPath (d.given ++ [.path])

/-- Read a command line, without the name of the program. -/
def read (words : List String) : Except Refusal Invocation := do
  let (d, sub) ← readArguments .program false false .none words
  match sub with
  | some (.help, rest) => .error (readHelp .program rest)
  | some (_, rest) =>
    let (e, arguments) ← readAnalyze rest
    return ⟨d.given.contains .verbose || e.given.contains .verbose, arguments⟩
  | none => if d.given.isEmpty then .error .nothing else refuse .program .noCommand []

end CodeSurvey.CommandLine
