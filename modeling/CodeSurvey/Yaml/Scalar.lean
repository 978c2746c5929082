import CodeSurvey.Yaml.Scanner

/-! # Scanning scalars

A scalar is plain text, text between quotes, or a block of lines.  Except in a literal
block, a single line break stands for a space. -/

namespace CodeSurvey.Yaml.Scan

/-! ### Folding -/

/-- What was met between two parts of a scalar: blanks on the first line, the first line
break, and those after it. -/
structure Gap where
  blanks : List Char
  first : List Char
  more : List Char
  /-- Whether a line was left. -/
  broken : Bool
deriving Inhabited

namespace Gap

/-- Nothing. -/
def none : Gap := ⟨[], [], [], false⟩

/-- The text that a gap stands for. -/
def text (g : Gap) : List Char :=
  if !g.broken then g.blanks
  else if g.first.head? == some '\n' then (if g.more.isEmpty then [' '] else g.more)
  else g.first ++ g.more

end Gap

/-- Read blanks and line breaks.  In the plain scalars of a block a tab may not stand
before column `indent`. -/
def gap (indent : Option (Nat × Mark)) : Gap → Scan Gap := fun g => do
  loop indent (← fuel) g
where
  loop (indent : Option (Nat × Mark)) : Nat → Gap → Scan Gap
    | 0, g => return g
    | n + 1, g => do
      match (← rest).head? with
      | some c =>
        if isBlank c then
          match indent with
          | some (column, began) =>
            if g.broken && (← Scan.column) < column && c == '\t' then
              fail .plainScalar began .tabInIndentation
          | none => pure ()
          skip
          loop indent n (if g.broken then g else { g with blanks := g.blanks ++ [c] })
        else if isBreak c then
          let b ← takeBreak
          loop indent n <|
            if g.broken then { g with more := g.more ++ b }
            else { g with blanks := [], first := b, broken := true }
        else return g
      | none => return g

/-! ### Plain scalars -/

/-- The characters that end a plain scalar between brackets. -/
def flowIndicators : List Char := [',', '[', ']', '\x7b', '\x7d']

/-- Whether a plain scalar ends before a character. -/
def endsPlain (flow : Bool) : List Char → Bool
  | ':' :: rest => atBlankOrEnd rest
  | c :: _ => flow && flowIndicators.contains c
  | [] => true

/-- Read the characters of a plain scalar up to a blank or its end. -/
def plainRun (flow : Bool) (began : Mark) : Nat → List Char → Scan (List Char)
  | 0, taken => return taken.reverse
  | n + 1, taken => do
    let cs ← rest
    if atBlankOrEnd cs then return taken.reverse
    match cs with
    | ':' :: c :: _ =>
      if flow && (c == '?' || flowIndicators.contains c) then
        fail .plainScalar began .misplacedColon
    | _ => pure ()
    if endsPlain flow cs then return taken.reverse
    skip
    plainRun flow began n (cs.headD ' ' :: taken)

/-- Read a plain scalar. -/
def plainScalar : Scan Unit := do
  let began ← mark
  let flow ← inFlow
  let indent := ((← get).indent + 1).toNat
  loop began flow indent (← fuel) [] .none began
where
  loop (began : Mark) (flow : Bool) (indent : Nat) :
      Nat → List Char → Gap → Mark → Scan Unit
    | 0, read, g, stop => finish began read g stop
    | n + 1, read, g, stop => do
      let cs ← rest
      if (← Scan.column) = 0 && atDocumentMark cs then finish began read g stop
      else if cs.head? == some '#' then finish began read g stop
      else
        let run ← plainRun flow began (← fuel) []
        let (read, g, stop) ←
          if run.isEmpty then pure (read, g, stop)
          else pure (read ++ g.text ++ run, Gap.none, ← mark)
        match (← rest).head? with
        | some c =>
          if isBlank c || isBreak c then
            let g ← gap (some (indent, began)) g
            if !flow && (← Scan.column) < indent then finish began read g stop
            else loop began flow indent n read g stop
          else finish began read g stop
        | none => finish began read g stop
  finish (began : Mark) (read : List Char) (g : Gap) (stop : Mark) : Scan Unit := do
    push (.scalar (String.ofList read) .plain) began stop
    if g.broken then allowKey true

/-! ### Quoted scalars -/

/-- The character that a letter stands for after a backslash. -/
def escaped? : Char → Option Char
  | '0' => some '\x00'
  | 'a' => some '\x07'
  | 'b' => some '\x08'
  | 't' => some '\t'
  | '\t' => some '\t'
  | 'n' => some '\n'
  | 'v' => some '\x0b'
  | 'f' => some '\x0c'
  | 'r' => some '\r'
  | 'e' => some '\x1b'
  | ' ' => some ' '
  | '"' => some '"'
  | '/' => some '/'
  | '\\' => some '\\'
  | 'N' => some '\u0085'
  | '_' => some '\u00a0'
  | 'L' => some '\u2028'
  | 'P' => some '\u2029'
  | _ => none

/-- The number of hexadecimal digits after a letter. -/
def codeLength : Char → Nat
  | 'x' => 2
  | 'u' => 4
  | 'U' => 8
  | _ => 0

/-- Read an escape sequence, from its backslash on. -/
def escape (began : Mark) : Scan Char := do
  match (← rest).tail.head? with
  | none => fail .escape began .unknownEscape
  | some c =>
    match escaped? c with
    | some d =>
      skipMany 2
      return d
    | none =>
      let length := codeLength c
      if length = 0 then fail .escape began .unknownEscape
      else
        skipMany 2
        let digits := (← rest).take length
        match digits.mapM hexValue? with
        | some values =>
          let code := values.foldl (fun n d => n * 16 + d) 0
          if digits.length < length then fail .escape began .noHexadecimal
          else if !code.isValidChar then fail .escape began .noCodePoint
          else
            skipMany length
            return Char.ofNat code
        | none => fail .escape began .noHexadecimal

/-- Read the characters of a quoted scalar up to a blank, a line break or its end.  The
second part of the result tells whether a line was left by a backslash. -/
def quotedRun (single : Bool) (began : Mark) : Nat → List Char → Scan (List Char × Bool)
  | 0, taken => return (taken.reverse, false)
  | n + 1, taken => do
    let cs ← rest
    if atBlankOrEnd cs then return (taken.reverse, false)
    match single, cs with
    | true, '\'' :: '\'' :: _ =>
      skipMany 2
      quotedRun single began n ('\'' :: taken)
    | true, '\'' :: _ => return (taken.reverse, false)
    | false, '"' :: _ => return (taken.reverse, false)
    | false, '\\' :: after =>
      if !after.isEmpty && atBreakOrEnd after then
        skip
        let _ ← takeBreak
        return (taken.reverse, true)
      else
        let c ← escape began
        quotedRun single began n (c :: taken)
    | _, c :: _ =>
      skip
      quotedRun single began n (c :: taken)
    | _, [] => return (taken.reverse, false)

/-- Read a scalar between quotes. -/
def quotedScalar (single : Bool) : Scan Unit := do
  let began ← mark
  skip
  loop began (← fuel) []
where
  loop (began : Mark) : Nat → List Char → Scan Unit
    | 0, read => finish began read
    | n + 1, read => do
      let cs ← rest
      if (← Scan.column) = 0 && atDocumentMark cs then
        fail .quotedScalar began .documentIndicator
      if cs.isEmpty then fail .quotedScalar began .endOfText
      let (run, left) ← quotedRun single began (← fuel) []
      let read := read ++ run
      if (← rest).head? == some (if single then '\'' else '"') then finish began read
      else
        let g ← gap none { Gap.none with broken := left }
        loop began n (read ++ g.text)
  finish (began : Mark) (read : List Char) : Scan Unit := do
    skip
    push (.scalar (String.ofList read) (if single then .singleQuoted else .doubleQuoted)) began
      (← mark)

/-! ### Block scalars -/

/-- What becomes of the line breaks at the end of a block. -/
inductive Chomping where
  | strip
  | clip
  | keep
deriving DecidableEq, Inhabited

/-- Read the signs after the indicator of a block: which line breaks are kept, and by
how much the block is indented. -/
def blockHeader (began : Mark) : Scan (Chomping × Nat) := do
  let chomping? (c : Char) : Option Chomping :=
    if c = '+' then some .keep else if c = '-' then some .strip else none
  let digit (c : Char) : Scan Nat := do
    if c = '0' then fail .blockScalar began .zeroIndentation
    skip
    return c.toNat - '0'.toNat
  match (← rest).head? with
  | none => return (.clip, 0)
  | some c =>
    match chomping? c with
    | some chomping =>
      skip
      match (← rest).head? with
      | some d => if d.isDigit then return (chomping, ← digit d) else return (chomping, 0)
      | none => return (chomping, 0)
    | none =>
      if c.isDigit then
        let n ← digit c
        match (← rest).head?.bind chomping? with
        | some chomping =>
          skip
          return (chomping, n)
        | none => return (.clip, n)
      else return (.clip, 0)

/-- Read the line breaks before a line of a block, and its indentation.  A block whose
indentation is not known yet, which is zero then, gets the largest one that is met. -/
def blockBreaks (began : Mark) (indent : Nat) : Scan (Nat × List Char × Mark) := do
  loop (← fuel) 0 [] (← mark)
where
  loop : Nat → Nat → List Char → Mark → Scan (Nat × List Char × Mark)
    | 0, widest, breaks, stop => return (widest, breaks, stop)
    | n + 1, widest, breaks, stop => do
      let here ← Scan.column
      if indent = 0 then skipWhile (· == ' ')
      else
        let spaces := ((← rest).takeWhile (· == ' ')).length
        skipMany (min spaces (indent - here))
      let column ← Scan.column
      let widest := max widest column
      match (← rest).head? with
      | some c =>
        if (indent = 0 || column < indent) && c == '\t' then
          fail .blockScalar began .tabForIndentation
        if isBreak c then
          let b ← takeBreak
          loop n widest (breaks ++ b) (← mark)
        else done widest breaks stop
      | none => done widest breaks stop
  done (widest : Nat) (breaks : List Char) (stop : Mark) : Scan (Nat × List Char × Mark) := do
    if indent = 0 then
      let least := ((← get).indent + 1).toNat
      return (max (max widest least) 1, breaks, stop)
    else return (indent, breaks, stop)

/-- Read a block of lines. -/
def blockScalar (literal : Bool) : Scan Unit := do
  let began ← mark
  skip
  let (chomping, increment) ← blockHeader began
  skipWhile isBlank
  skipComment
  if !atBreakOrEnd (← rest) then fail .blockScalar began .noCommentOrBreak
  let _ ← takeBreak
  let outer := (← get).indent
  let given := if increment = 0 then 0 else (max outer 0).toNat + increment
  let (indent, breaks, stop) ← blockBreaks began given
  loop began chomping indent (← fuel) [] [] breaks false stop
where
  loop (began : Mark) (chomping : Chomping) (indent : Nat) :
      Nat → List Char → List Char → List Char → Bool → Mark → Scan Unit
    | 0, read, lead, trail, _, stop => finish began chomping read lead trail stop
    | n + 1, read, lead, trail, wasBlank, stop => do
      let cs ← rest
      if (← Scan.column) != indent || cs.isEmpty then
        finish began chomping read lead trail stop
      else
        let isBlankLine := (cs.head?.map isBlank).getD false
        let joint :=
          if !literal && lead.head? == some '\n' && !wasBlank && !isBlankLine then
            (if trail.isEmpty then [' '] else [])
          else lead
        let line ← Scan.takeWhile fun c => !isBreak c
        let lead ← takeBreak
        let (_, trail', stop) ← blockBreaks began indent
        loop began chomping indent n (read ++ joint ++ trail ++ line) lead trail' isBlankLine stop
  finish (began : Mark) (chomping : Chomping) (read lead trail : List Char) (stop : Mark) :
      Scan Unit := do
    let ending := match chomping with
      | .strip => []
      | .clip => lead
      | .keep => lead ++ trail
    push (.scalar (String.ofList (read ++ ending)) (if literal then .literal else .folded)) began stop

end CodeSurvey.Yaml.Scan
