import CodeSurvey.Yaml.Scalar

/-! # Fetching tokens

`Scan.peek` is the next token of a text, and `Scan.drop` goes on to the one after it. -/

namespace CodeSurvey.Yaml.Scan

/-! ### Anchors and tags -/

/-- The characters that may follow the name of an anchor or alias. -/
def afterAnchor : List Char := ['?', ':', ',', ']', '\x7d', '%', '@', '`']

/-- Read an anchor or an alias. -/
def anchor (activity : Activity) (kind : String → TokenKind) : Scan Unit := do
  let began ← mark
  skip
  let name ← takeWhile isAlpha
  let cs ← rest
  let ends := atBlankOrEnd cs || (cs.head?.map afterAnchor.contains).getD false
  if name.isEmpty || !ends then fail activity began .noAlphanumeric
  push (kind (String.ofList name)) began (← mark)

/-- The characters of tags that are neither letters nor digits. -/
def tagSigns : List Char :=
  [';', '/', '?', ':', '@', '&', '=', '+', '$', '.', '!', '~', '*', '\'', '(', ')', '%']

/-- Read the octets of a character that is written with percent signs. -/
def tagOctets (activity : Activity) (began : Mark) : Scan Char := do
  let octet : Scan Nat := do
    match (← rest) with
    | '%' :: a :: b :: _ =>
      match hexValue? a, hexValue? b with
      | some x, some y => return x * 16 + y
      | _, _ => fail activity began .noOctet
    | _ => fail activity began .noOctet
  let first ← octet
  let (width, bits) :=
    if first < 0x80 then (1, first)
    else if 0xC0 ≤ first ∧ first < 0xE0 then (2, first - 0xC0)
    else if 0xE0 ≤ first ∧ first < 0xF0 then (3, first - 0xE0)
    else if 0xF0 ≤ first ∧ first < 0xF8 then (4, first - 0xF0)
    else (0, 0)
  if width = 0 then fail activity began .leadingOctet
  skipMany 3
  let mut code := bits
  for _ in List.range (width - 1) do
    let next ← octet
    if next < 0x80 || 0xC0 ≤ next then fail activity began .trailingOctet
    skipMany 3
    code := code * 64 + (next - 0x80)
  return Char.ofNat code

/-- Read the characters of a tag. -/
def tagCharacters (verbatim : Bool) (activity : Activity) (began : Mark) : Scan (List Char) := do
  loop verbatim activity began (← fuel) []
where
  loop (verbatim : Bool) (activity : Activity) (began : Mark) :
      Nat → List Char → Scan (List Char)
    | 0, taken => return taken.reverse
    | n + 1, taken => do
      match (← rest).head? with
      | some '%' =>
        let c ← tagOctets activity began
        loop verbatim activity began n (c :: taken)
      | some c =>
        if isAlpha c || tagSigns.contains c || (verbatim && [',', '[', ']'].contains c) then
          skip
          loop verbatim activity began n (c :: taken)
        else return taken.reverse
      | none => return taken.reverse

/-- Read what follows the beginning of a tag, which was read already. -/
def tagText (verbatim : Bool) (activity : Activity) (head : List Char) (began : Mark) :
    Scan (List Char) := do
  let more ← tagCharacters verbatim activity began
  if head.isEmpty && more.isEmpty then fail activity began .noTagText
  return head.tail ++ more

/-- Read the handle of a tag: the characters from a mark to the next. -/
def tagHandle (directive : Bool) (began : Mark) : Scan (List Char) := do
  if (← rest).head? != some '!' then
    fail (if directive then .tagDirectiveHandle else .tag) began .noTagMark
  skip
  let name ← takeWhile isAlpha
  if (← rest).head? == some '!' then
    skip
    return '!' :: name ++ ['!']
  else
    if directive && !name.isEmpty then fail .tagDirectiveMark began .noTagMark
    return '!' :: name

/-- Read a tag. -/
def tag : Scan Unit := do
  let began ← mark
  let (handle, suffix) ← match (← rest).tail.head? with
    | some '<' => do
      skipMany 2
      let suffix ← tagText true .tagText [] began
      if (← rest).head? != some '>' then fail .tag began .noTagBracket
      skip
      pure ([], suffix)
    | _ => do
      let handle ← tagHandle false began
      if 1 < handle.length && handle.getLast? == some '!' then
        let suffix ← tagText false .tagText [] began
        pure (handle, suffix)
      else
        let suffix ← tagText false .tagText handle began
        pure (if suffix.isEmpty then ([], ['!']) else (['!'], suffix))
  let cs ← rest
  if !((← inFlow) && cs.head? == some ',') && !atBlankOrEnd cs then
    fail .tag began .noBlankOrBreak
  push (.tag (String.ofList handle) (String.ofList suffix)) began (← mark)

/-! ### Directives -/

/-- Read a number of a version. -/
def versionNumber (began : Mark) : Scan Nat := do
  let digits := (← rest).takeWhile Char.isDigit
  if 9 < digits.length then
    skipMany 9
    fail .versionDirective began .longVersion
  skipMany digits.length
  if digits.isEmpty then fail .versionDirective began .noVersion
  return digits.foldl (fun n d => n * 10 + (d.toNat - '0'.toNat)) 0

/-- Read a directive. -/
def directive : Scan Unit := do
  let began ← mark
  skip
  let name ← takeWhile isAlpha
  if name.isEmpty then fail .directive began .noDirectiveName
  if !atBlankOrEnd (← rest) then fail .directive began .directiveNameCharacter
  if name == ['Y', 'A', 'M', 'L'] then
    skipWhile isBlank
    let major ← versionNumber began
    if (← rest).head? != some '.' then fail .versionDirective began .noVersionPoint
    skip
    let minor ← versionNumber began
    push (.versionDirective major minor) began (← mark)
  else if name == ['T', 'A', 'G'] then
    skipWhile isBlank
    let handle ← tagHandle true began
    if !((← rest).head?.map isBlank).getD false then fail .tagDirective began .noBlank
    skipWhile isBlank
    let text ← tagText true .tagDirectiveText [] began
    if !atBlankOrEnd (← rest) then fail .tagDirective began .noBlankOrBreak
    push (.tagDirective (String.ofList handle) (String.ofList text)) began (← mark)
  else fail .directive began .unknownDirective
  skipWhile isBlank
  skipComment
  if !atBreakOrEnd (← rest) then fail .directive began .noCommentOrBreak
  let _ ← takeBreak

/-! ### Indicators -/

/-- Open a bracket. -/
def openFlow (kind : TokenKind) : Scan Unit := do
  saveKey
  modify fun s => { s with keys := .none :: s.keys, flowLevel := s.flowLevel + 1, keyAllowed := true }
  symbol 1 kind

/-- Close a bracket. -/
def closeFlow (kind : TokenKind) : Scan Unit := do
  removeKey
  modify fun s =>
    if s.flowLevel = 0 then { s with keyAllowed := false }
    else { s with keys := s.keys.tail, flowLevel := s.flowLevel - 1, keyAllowed := false }
  symbol 1 kind

/-- Begin an entry or a key of a block, which may open the block. -/
def beginBlock (problem : Problem) (kind : TokenKind) : Scan Unit := do
  let s ← get
  if s.flowLevel == 0 then
    if !s.keyAllowed then failHere problem
    rollIndent s.mark.column none kind s.mark

/-- Read the dash of an entry. -/
def blockEntry : Scan Unit := do
  beginBlock .misplacedEntry .blockSequenceStart
  removeKey
  allowKey true
  symbol 1 .blockEntry

/-- Read the mark of a key. -/
def explicitKey : Scan Unit := do
  beginBlock .misplacedKey .blockMappingStart
  removeKey
  allowKey (!(← inFlow))
  symbol 1 .key

/-- Read the colon before a value. -/
def value : Scan Unit := do
  let s ← get
  let key := s.keys.headD .none
  if key.possible then
    insertAt key.token ⟨.key, key.mark, key.mark⟩
    rollIndent key.mark.column (some key.token) .blockMappingStart key.mark
    modify fun s => { s with keys := { key with possible := false } :: s.keys.tail, keyAllowed := false }
  else
    beginBlock .misplacedValue .blockMappingStart
    allowKey (!(← inFlow))
  symbol 1 .value

/-- Read the end of the text. -/
def streamEnd : Scan Unit := do
  modify fun s =>
    if s.mark.column = 0 then s
    else { s with mark := { s.mark with line := s.mark.line + 1, column := 0 } }
  unrollIndent (-1)
  withoutKey
  let here ← mark
  push .streamEnd here here
  modify fun s => { s with ended := true }

/-- The characters that cannot begin a plain scalar by themselves. -/
def indicators : List Char :=
  ['-', '?', ':', ',', '[', ']', '\x7b', '\x7d', '#', '&', '*', '!', '|', '>', '\'', '"', '%',
    '@', '`']

/-- Whether a plain scalar may begin here. -/
def startsPlain (flow : Bool) : List Char → Bool
  | [] => false
  | c :: rest =>
    (!isBlank c && !isBreak c && !indicators.contains c)
      || (c == '-' && !(rest.head?.map isBlank).getD false)
      || (!flow && (c == '?' || c == ':') && !atBlankOrEnd rest)

/-- Read the next token, with the tokens that it implies. -/
def fetch : Scan Unit := do
  toNextToken
  dropStaleKeys
  unrollIndent (← Scan.column)
  let cs ← rest
  let flow ← inFlow
  let atStart := (← Scan.column) = 0
  match cs with
  | [] => streamEnd
  | c :: after =>
    if atStart && c == '%' then
      unrollIndent (-1)
      withoutKey
      directive
    else if atStart && atDocumentMark cs then
      unrollIndent (-1)
      withoutKey
      symbol 3 (if c = '-' then .documentStart else .documentEnd)
    else if c == '[' then openFlow .flowSequenceStart
    else if c == '\x7b' then openFlow .flowMappingStart
    else if c == ']' then closeFlow .flowSequenceEnd
    else if c == '\x7d' then closeFlow .flowMappingEnd
    else if c == ',' then
      removeKey
      allowKey true
      symbol 1 .flowEntry
    else if c == '-' && atBlankOrEnd after then blockEntry
    else if c == '?' && (flow || atBlankOrEnd after) then explicitKey
    else if c == ':' && (flow || atBlankOrEnd after) then value
    else if c == '*' then
      saveKey
      allowKey false
      anchor .alias .alias
    else if c == '&' then
      saveKey
      allowKey false
      anchor .anchor .anchor
    else if c == '!' then
      saveKey
      allowKey false
      tag
    else if (c == '|' || c == '>') && !flow then
      removeKey
      allowKey true
      blockScalar (c == '|')
    else if c == '\'' || c == '"' then
      saveKey
      allowKey false
      quotedScalar (c == '\'')
    else if startsPlain flow cs then
      saveKey
      allowKey false
      plainScalar
    else fail .nextToken (← mark) .noToken

/-- Whether the next token is certain: no key can begin before it any more. -/
def isReady : Scan Bool := do
  dropStaleKeys
  let s ← get
  return !s.tokens.isEmpty && !s.keys.any fun k => k.possible && k.token == s.used

/-- Read tokens until the next one is certain. -/
def prepare : Nat → Scan Unit
  | 0 => return
  | n + 1 => do
    let ready ← if (← get).tokens.isEmpty then pure false else isReady
    if !ready then
      fetch
      prepare n

/-- The next token. -/
def peek : Scan Token := do
  if !(← get).ended || (← get).tokens.isEmpty then prepare (← fuel)
  return (← get).tokens.headD default

/-- Go on to the token after the next. -/
def drop : Scan Unit :=
  modify fun s => { s with tokens := s.tokens.tail, used := s.used + 1 }

end Scan

/-- A scanner at the beginning of a text. -/
def Scanner.start (text : List Char) : Scanner :=
  { rest := text, mark := .origin, tokens := [], used := 1, keys := [.none], keyAllowed := true
    indent := -1, indents := [], flowLevel := 0, ended := false }

end CodeSurvey.Yaml
