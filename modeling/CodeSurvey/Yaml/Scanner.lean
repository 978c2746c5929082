import CodeSurvey.Yaml.Token

/-! # Scanning

A `Scanner` reads tokens from a text.  Whether a scalar is a key shows only at the
colon after it; so the scanner remembers where keys may have begun and puts the tokens
that begin a key, and perhaps a mapping, in front of tokens that it has read already. -/

namespace CodeSurvey.Yaml

/-- A place where a key may have begun. -/
structure PossibleKey where
  possible : Bool
  /-- Whether it must turn out to be a key. -/
  required : Bool
  /-- The number of the token with which it began. -/
  token : Nat
  mark : Mark
deriving Repr, Inhabited

/-- No place. -/
def PossibleKey.none : PossibleKey := ⟨false, false, 0, .origin⟩

/-- How far the scanning of a text has come. -/
structure Scanner where
  rest : List Char
  mark : Mark
  /-- The tokens that were read, but not yet used. -/
  tokens : List Token
  /-- The number of tokens that were used. -/
  used : Nat
  /-- Where keys may have begun, for each open bracket, the innermost first. -/
  keys : List PossibleKey
  keyAllowed : Bool
  /-- The column of the innermost block; `-1` outside of all blocks. -/
  indent : Int
  indents : List Int
  /-- The number of open brackets. -/
  flowLevel : Nat
  ended : Bool
deriving Repr, Inhabited

/-- A step of scanning. -/
abbrev Scan := StateT Scanner (Except Fault)

/-! ### Characters -/

/-- A line break. -/
def isBreak (c : Char) : Bool :=
  c == '\r' || c == '\n' || c == '\u0085' || c == '\u2028' || c == '\u2029'

/-- A space or tab. -/
def isBlank (c : Char) : Bool := c == ' ' || c == '\t'

/-- A character of names. -/
def isAlpha (c : Char) : Bool := c.isAlphanum || c == '_' || c == '-'

/-- The value of a hexadecimal digit. -/
def hexValue? (c : Char) : Option Nat :=
  if c.isDigit then some (c.toNat - '0'.toNat)
  else if 'a' ≤ c && c ≤ 'f' then some (c.toNat - 'a'.toNat + 10)
  else if 'A' ≤ c && c ≤ 'F' then some (c.toNat - 'A'.toNat + 10)
  else none

/-- Whether a text ends or begins with a line break. -/
def atBreakOrEnd : List Char → Bool
  | [] => true
  | c :: _ => isBreak c

/-- Whether a text ends or begins with a blank or line break. -/
def atBlankOrEnd : List Char → Bool
  | [] => true
  | c :: _ => isBlank c || isBreak c

/-- Whether a text begins with a mark between documents. -/
def atDocumentMark : List Char → Bool
  | '-' :: '-' :: '-' :: rest => atBlankOrEnd rest
  | '.' :: '.' :: '.' :: rest => atBlankOrEnd rest
  | _ => false

namespace Scan

/-- What is still to be read. -/
def rest : Scan (List Char) := return (← get).rest

/-- Where the scanner is. -/
def mark : Scan Mark := return (← get).mark

/-- The column of the scanner. -/
def column : Scan Nat := return (← get).mark.column

/-- Whether the scanner is between brackets. -/
def inFlow : Scan Bool := return (← get).flowLevel != 0

/-- Fail at the present point. -/
def fail {α : Type} (activity : Activity) (began : Mark) (problem : Problem) : Scan α := do
  throw ⟨problem, ← mark, 0, some (activity, began)⟩

/-- Fail at the present point, without an activity. -/
def failHere {α : Type} (problem : Problem) : Scan α := do
  throw ⟨problem, ← mark, 0, none⟩

/-- Go on by one character that is no line break. -/
def skip : Scan Unit :=
  modify fun s =>
    { s with
      rest := s.rest.tail
      mark := { s.mark with index := s.mark.index + 1, column := s.mark.column + 1 } }

/-- Go on by several characters that are no line breaks. -/
def skipMany : Nat → Scan Unit
  | 0 => return
  | n + 1 => do
    skip
    skipMany n

/-- Go on by a line break, and give the text that it stands for. -/
def takeBreak : Scan (List Char) :=
  modifyGet fun s =>
    let next (n : Nat) : Mark := ⟨s.mark.index + n, s.mark.line + 1, 0⟩
    match s.rest with
    | '\r' :: '\n' :: rest => (['\n'], { s with rest, mark := next 2 })
    | c :: rest =>
      if c = '\u2028' ∨ c = '\u2029' then ([c], { s with rest, mark := next 1 })
      else if isBreak c then (['\n'], { s with rest, mark := next 1 })
      else ([], s)
    | [] => ([], s)

/-- Take the characters up to the first that does not fit. -/
def takeWhile (p : Char → Bool) : Scan (List Char) :=
  modifyGet fun s =>
    let taken := s.rest.takeWhile p
    (taken,
      { s with
        rest := s.rest.drop taken.length
        mark :=
          { s.mark with
            index := s.mark.index + taken.length, column := s.mark.column + taken.length } })

/-- Skip the characters up to the first that does not fit. -/
def skipWhile (p : Char → Bool) : Scan Unit := do
  let _ ← takeWhile p

/-- Skip a comment, if there is one. -/
def skipComment : Scan Unit := do
  if (← rest).head? == some '#' then skipWhile fun c => !isBreak c

/-- The number of steps that suffice for any loop over the rest of the text. -/
def fuel : Scan Nat := return (← get).rest.length + 2

/-- Skip blanks, comments and line breaks before a token. -/
def toNextToken : Scan Unit := do
  loop (← fuel)
where
  loop : Nat → Scan Unit
    | 0 => return
    | n + 1 => do
      let s ← get
      if s.mark.column = 0 && s.rest.head? == some '\uFEFF' then skip
      let tabs := s.flowLevel != 0 || !s.keyAllowed
      skipWhile fun c => c == ' ' || (tabs && c == '\t')
      skipComment
      match (← rest).head? with
      | some c =>
        if isBreak c then
          let _ ← takeBreak
          if !(← inFlow) then modify fun s => { s with keyAllowed := true }
          loop n
      | none => return

/-! ### Keys and indentation -/

/-- Add a token at the end. -/
def push (kind : TokenKind) (start stop : Mark) : Scan Unit :=
  modify fun s => { s with tokens := s.tokens ++ [⟨kind, start, stop⟩] }

/-- Put a token in front of the token of a number. -/
def insertAt (number : Nat) (t : Token) : Scan Unit :=
  modify fun s =>
    let i := number - s.used
    { s with tokens := s.tokens.take i ++ t :: s.tokens.drop i }

/-- Give up the places for keys that lie too far back. -/
def dropStaleKeys : Scan Unit := do
  let here ← mark
  let stale (k : PossibleKey) : Bool :=
    k.possible && (k.mark.line < here.line || k.mark.index + 1024 < here.index)
  match (← get).keys.reverse.find? fun k => stale k && k.required with
  | some k => fail .simpleKey k.mark .noColon
  | none =>
    modify fun s =>
      { s with keys := s.keys.map fun k => if stale k then { k with possible := false } else k }

/-- Give up the innermost place for a key. -/
def removeKey : Scan Unit := do
  match (← get).keys with
  | k :: outer =>
    if k.possible && k.required then fail .simpleKey k.mark .noColon
    modify fun s => { s with keys := { k with possible := false } :: outer }
  | [] => return

/-- Note that a key may begin here. -/
def saveKey : Scan Unit := do
  let s ← get
  if s.keyAllowed then
    removeKey
    let required := s.flowLevel == 0 && s.indent == s.mark.column
    let key : PossibleKey := ⟨true, required, s.used + s.tokens.length, s.mark⟩
    modify fun s => { s with keys := key :: s.keys.tail }

/-- Allow or forbid a key at the next token. -/
def allowKey (b : Bool) : Scan Unit := modify fun s => { s with keyAllowed := b }

/-- Open a block at a column that is further to the right.  Its token comes before the
token of a number, if there is one, else at the end. -/
def rollIndent (column : Nat) (number : Option Nat) (kind : TokenKind) (at_ : Mark) : Scan Unit := do
  let s ← get
  if s.flowLevel == 0 && s.indent < column then
    set { s with indents := s.indent :: s.indents, indent := column }
    match number with
    | none => push kind at_ at_
    | some n => insertAt n ⟨kind, at_, at_⟩

/-- Close the blocks that lie further to the right than a column. -/
def unrollIndent (column : Int) : Scan Unit := do
  let s ← get
  if s.flowLevel == 0 then loop s.indents.length
where
  loop : Nat → Scan Unit
    | 0 => return
    | n + 1 => do
      let s ← get
      if column < s.indent then
        push .blockEnd s.mark s.mark
        modify fun s => { s with indent := s.indents.headD (-1), indents := s.indents.tail }
        loop n

/-- Give up a key and forbid the next. -/
def withoutKey : Scan Unit := do
  removeKey
  allowKey false

/-- Read a token of `n` characters. -/
def symbol (n : Nat) (kind : TokenKind) : Scan Unit := do
  let start ← mark
  skipMany n
  push kind start (← mark)

end Scan

end CodeSurvey.Yaml
