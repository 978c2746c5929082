import CodeSurvey.Yaml.Fetch

/-! # Events of YAML

A text of YAML is a sequence of events: documents, collections and scalars begin and
end.  `Composer.next` reads the next event.  A composer keeps a stack of `Expected`, of
which the first says what comes next, and the others what comes after that. -/

namespace CodeSurvey.Yaml

/-- What an event is. -/
inductive Event where
  | streamEnd
  | documentStart
  | documentEnd
  | alias (name : String)
  | scalar (anchor tag : Option String) (text : String) (style : ScalarStyle)
  | sequenceStart (anchor tag : Option String)
  | sequenceEnd
  | mappingStart (anchor tag : Option String)
  | mappingEnd
deriving DecidableEq, Repr, Inhabited

/-- What comes next.  A collection knows where it began, and whether its next item is
the first. -/
inductive Expected where
  | firstDocument
  | document
  | content
  | documentEnd
  | blockNode
  | blockEntry (began : Mark)
  | indentlessEntry
  | blockKey (began : Mark)
  | blockValue (began : Mark)
  | flowEntry (began : Mark) (first : Bool)
  | pairKey
  | pairValue
  | pairEnd
  | flowKey (began : Mark) (first : Bool)
  | flowValue (began : Mark)
  | noFlowValue (began : Mark)
  | nothing
deriving DecidableEq, Repr, Inhabited

/-- How far the reading of events has come. -/
structure Composer where
  scanner : Scanner
  expected : List Expected
  /-- The tags that handles stand for. -/
  handles : List (String × String)
deriving Repr, Inhabited

/-- A step of reading events. -/
abbrev Compose := StateT Composer (Except Fault)

namespace Compose

/-- Scan by a composer. -/
def scan {α : Type} (x : Scan α) : Compose α := fun c =>
  (x.run c.scanner).map fun (a, scanner) => (a, { c with scanner })

/-- The next token. -/
def peek : Compose Token := scan Scan.peek

/-- Go on to the next token, and give it. -/
def dropAndPeek : Compose Token := do
  scan Scan.drop
  peek

/-- Fail at a point. -/
def fail {α : Type} (problem : Problem) (mark : Mark) (activity : Option (Activity × Mark)) :
    Compose α :=
  throw ⟨problem, mark, 0, activity⟩

/-- Expect something before all else. -/
def expect (x : Expected) : Compose Unit :=
  modify fun c => { c with expected := x :: c.expected }

/-- A scalar that is not there. -/
def emptyScalar (mark : Mark) : Event × Mark := (.scalar none none "" .plain, mark)

/-! ### Directives -/

/-- The tags that handles stand for in every document. -/
def commonHandles : List (String × String) := [("!", "!"), ("!!", "tag:yaml.org,2002:")]

/-- Read directives.  A document has at most one version, and a handle one tag. -/
def directives : Compose Unit := do
  modify fun c => { c with handles := [] }
  loop (← scan Scan.fuel) false
where
  loop : Nat → Bool → Compose Unit
    | 0, _ => return
    | n + 1, versioned => do
      let t ← peek
      match t.kind with
      | .versionDirective major minor =>
        if versioned then fail .secondVersion t.start none
        if !(major == 1 && (minor == 1 || minor == 2)) then fail .otherVersion t.start none
        scan Scan.drop
        loop n true
      | .tagDirective handle tag =>
        if ((← get).handles.lookup handle).isSome then fail .secondTag t.start none
        modify fun c => { c with handles := c.handles ++ [(handle, tag)] }
        scan Scan.drop
        loop n versioned
      | _ => modify fun c => { c with handles := c.handles ++ commonHandles }

/-! ### Nodes -/

/-- The anchor and the tag of a node, and where they begin and end. -/
structure Properties where
  anchor : Option String
  tag : Option String
  start : Mark
deriving Inhabited

/-- The tag that a handle and a suffix stand for. -/
def resolveTag (start mark : Mark) (handle suffix : String) : Compose String := do
  if handle.isEmpty then return suffix
  match (← get).handles.lookup handle with
  | some tag => return tag ++ suffix
  | none => fail .unknownHandle mark (some (.node, start))

/-- Read the anchor and the tag of a node, in either order. -/
def properties : Compose Properties := do
  let t ← peek
  match t.kind with
  | .anchor name =>
    let u ← dropAndPeek
    match u.kind with
    | .tag handle suffix =>
      let _ ← dropAndPeek
      return ⟨some name, some (← resolveTag t.start u.start handle suffix), t.start⟩
    | _ => return ⟨some name, none, t.start⟩
  | .tag handle suffix =>
    let u ← dropAndPeek
    match u.kind with
    | .anchor name =>
      let _ ← dropAndPeek
      return ⟨some name, some (← resolveTag t.start t.start handle suffix), t.start⟩
    | _ => return ⟨none, some (← resolveTag t.start t.start handle suffix), t.start⟩
  | _ => return ⟨none, none, t.start⟩

/-- The tag of a scalar.  A lone exclamation mark says only that it has none. -/
def scalarTag (tag : Option String) : Option String :=
  tag.filter (· != "!")

/-- Read a node.  A sequence that is the value of a key need not be indented. -/
def node (block indentless : Bool) : Compose (Event × Mark) := do
  let t ← peek
  if let .alias name := t.kind then
    scan Scan.drop
    return (.alias name, t.start)
  let p ← properties
  let t ← peek
  match t.kind with
  | .blockEntry =>
    if indentless then
      expect .indentlessEntry
      return (.sequenceStart p.anchor p.tag, p.start)
    else bare p t
  | .scalar text style =>
    scan Scan.drop
    return (.scalar p.anchor (scalarTag p.tag) text style, p.start)
  | .flowSequenceStart =>
    scan Scan.drop
    expect (.flowEntry t.start true)
    return (.sequenceStart p.anchor p.tag, p.start)
  | .flowMappingStart =>
    scan Scan.drop
    expect (.flowKey t.start true)
    return (.mappingStart p.anchor p.tag, p.start)
  | .blockSequenceStart =>
    if block then
      scan Scan.drop
      expect (.blockEntry t.start)
      return (.sequenceStart p.anchor p.tag, p.start)
    else bare p t
  | .blockMappingStart =>
    if block then
      scan Scan.drop
      expect (.blockKey t.start)
      return (.mappingStart p.anchor p.tag, p.start)
    else bare p t
  | _ => bare p t
where
  bare (p : Properties) (t : Token) : Compose (Event × Mark) := do
    if p.anchor.isSome || p.tag.isSome then
      return (.scalar p.anchor p.tag "" .plain, p.start)
    else fail .noContent t.start (some (if block then .blockNode else .flowNode, p.start))

/-! ### Documents -/

/-- Read the beginning of a document, or the end of the text.  The first document needs
no mark. -/
def documentStart (first : Bool) : Compose (Event × Mark) := do
  if !first then dropEnds (← scan Scan.fuel)
  let t ← peek
  match first, t.kind with
  | _, .streamEnd =>
    expect .nothing
    return (.streamEnd, t.start)
  | false, _ => marked t
  | true, .versionDirective _ _ => marked t
  | true, .tagDirective _ _ => marked t
  | true, .documentStart => marked t
  | true, _ =>
    directives
    expect .documentEnd
    expect .blockNode
    return (.documentStart, t.start)
where
  dropEnds : Nat → Compose Unit
    | 0 => return
    | n + 1 => do
      if (← peek).kind == .documentEnd then
        scan Scan.drop
        dropEnds n
  marked (t : Token) : Compose (Event × Mark) := do
    directives
    let u ← peek
    if u.kind != .documentStart then fail .noDocumentStart u.start none
    scan Scan.drop
    expect .documentEnd
    expect .content
    return (.documentStart, t.start)

/-- Read what follows the mark at the beginning of a document, which may be nothing. -/
def content : Compose (Event × Mark) := do
  let t ← peek
  match t.kind with
  | .versionDirective _ _ => return emptyScalar t.start
  | .tagDirective _ _ => return emptyScalar t.start
  | .documentStart => return emptyScalar t.start
  | .documentEnd => return emptyScalar t.start
  | .streamEnd => return emptyScalar t.start
  | _ => node true false

/-- Read the end of a document. -/
def documentEnd : Compose (Event × Mark) := do
  let t ← peek
  if t.kind == .documentEnd then scan Scan.drop
  expect .document
  return (.documentEnd, t.start)

/-! ### Collections

An item may be missing; then the next token is one of those that may follow it. -/

/-- The tokens that follow a missing entry of a block. -/
def afterBlockEntry : List TokenKind := [.blockEntry, .blockEnd]

/-- The tokens that follow a missing entry of a block that is not indented. -/
def afterIndentlessEntry : List TokenKind := [.blockEntry, .key, .value, .blockEnd]

/-- The tokens that follow a missing key or value in a block. -/
def afterBlockPart : List TokenKind := [.key, .value, .blockEnd]

/-- The tokens that follow a missing key between square brackets. -/
def afterPairKey : List TokenKind := [.value, .flowEntry, .flowSequenceEnd]

/-- The tokens that follow a missing value between square brackets. -/
def afterPairValue : List TokenKind := [.flowEntry, .flowSequenceEnd]

/-- The tokens that follow a missing key between braces. -/
def afterFlowKey : List TokenKind := [.value, .flowEntry, .flowMappingEnd]

/-- The tokens that follow a missing value between braces. -/
def afterFlowValue : List TokenKind := [.flowEntry, .flowMappingEnd]

/-- Read an item after its mark, and then expect something. -/
def item (after : List TokenKind) (next : Expected) (block indentless : Bool)
    (missing : Token → Mark) : Compose (Event × Mark) := do
  let t ← dropAndPeek
  expect next
  if after.contains t.kind then return emptyScalar (missing t)
  else node block indentless

/-- End a collection. -/
def finish (e : Event) (t : Token) : Compose (Event × Mark) := do
  scan Scan.drop
  return (e, t.start)

/-- Read an entry of a block. -/
def blockEntry (began : Mark) : Compose (Event × Mark) := do
  let t ← peek
  match t.kind with
  | .blockEntry => item afterBlockEntry (.blockEntry began) true false fun _ => t.stop
  | .blockEnd => finish .sequenceEnd t
  | _ => fail .noDash t.start (some (.blockSequence, began))

/-- Read an entry of a block that is not indented. -/
def indentlessEntry : Compose (Event × Mark) := do
  let t ← peek
  match t.kind with
  | .blockEntry => item afterIndentlessEntry .indentlessEntry true false fun _ => t.stop
  | _ => return (.sequenceEnd, t.start)

/-- Read a key of a block. -/
def blockKey (began : Mark) : Compose (Event × Mark) := do
  let t ← peek
  match t.kind with
  | .key => item afterBlockPart (.blockValue began) true true fun _ => t.stop
  | .blockEnd => finish .mappingEnd t
  | _ => fail .noKey t.start (some (.blockMapping, began))

/-- Read a value of a block. -/
def blockValue (began : Mark) : Compose (Event × Mark) := do
  let t ← peek
  match t.kind with
  | .value => item afterBlockPart (.blockKey began) true true fun _ => t.stop
  | _ =>
    expect (.blockKey began)
    return emptyScalar t.start

/-- Read an entry between square brackets. -/
def flowEntry (began : Mark) (first : Bool) : Compose (Event × Mark) := do
  let t ← peek
  if t.kind == .flowSequenceEnd then finish .sequenceEnd t
  else
    if !first && t.kind != .flowEntry then
      fail .noSequenceSeparator t.start (some (.flowSequence, began))
    let t ← if first then pure t else dropAndPeek
    match t.kind with
    | .key =>
      scan Scan.drop
      expect (.flowEntry began false)
      expect .pairKey
      return (.mappingStart none none, t.start)
    | .flowSequenceEnd => finish .sequenceEnd t
    | _ =>
      expect (.flowEntry began false)
      node false false

/-- Read the key of a pair between square brackets.  The token after a missing key is
passed over. -/
def pairKey : Compose (Event × Mark) := do
  let t ← peek
  expect .pairValue
  if afterPairKey.contains t.kind then
    scan Scan.drop
    return emptyScalar t.stop
  else node false false

/-- Read the value of a pair between square brackets. -/
def pairValue : Compose (Event × Mark) := do
  let t ← peek
  match t.kind with
  | .value => item afterPairValue .pairEnd false false Token.start
  | _ =>
    expect .pairEnd
    return emptyScalar t.start

/-- Read a key between braces. -/
def flowKey (began : Mark) (first : Bool) : Compose (Event × Mark) := do
  let t ← peek
  if t.kind == .flowMappingEnd then finish .mappingEnd t
  else
    if !first && t.kind != .flowEntry then
      fail .noMappingSeparator t.start (some (.flowMapping, began))
    let t ← if first then pure t else dropAndPeek
    match t.kind with
    | .key => item afterFlowKey (.flowValue began) false false Token.start
    | .flowMappingEnd => finish .mappingEnd t
    | _ =>
      expect (.noFlowValue began)
      node false false

/-- Read a value between braces. -/
def flowValue (began : Mark) : Compose (Event × Mark) := do
  let t ← peek
  match t.kind with
  | .value => item afterFlowValue (.flowKey began false) false false Token.start
  | _ =>
    expect (.flowKey began false)
    return emptyScalar t.start

/-! ### All events -/

/-- Read what is expected. -/
def read : Expected → Compose (Event × Mark)
  | .firstDocument => documentStart true
  | .document => documentStart false
  | .content => content
  | .documentEnd => documentEnd
  | .blockNode => node true false
  | .blockEntry began => blockEntry began
  | .indentlessEntry => indentlessEntry
  | .blockKey began => blockKey began
  | .blockValue began => blockValue began
  | .flowEntry began first => flowEntry began first
  | .pairKey => pairKey
  | .pairValue => pairValue
  | .pairEnd => return (.mappingEnd, (← peek).start)
  | .flowKey began first => flowKey began first
  | .flowValue began => flowValue began
  | .noFlowValue began => do
    let t ← peek
    expect (.flowKey began false)
    return emptyScalar t.start
  | .nothing => return (.streamEnd, ← scan Scan.mark)

/-- Read the next event. -/
def next : Compose (Event × Mark) := do
  let c ← get
  set { c with expected := c.expected.tail }
  read (c.expected.headD .nothing)

end Compose

/-! ### Characters that may not be in a text -/

/-- Whether a character may be in a text. -/
def isAllowed (c : Char) : Bool :=
  let n := c.toNat
  n = 0x9 || n = 0xA || n = 0xD || (0x20 ≤ n && n ≤ 0x7E) || n = 0x85
    || (0xA0 ≤ n && n ≤ 0xD7FF) || (0xE000 ≤ n && n ≤ 0xFFFD) || 0x10000 ≤ n

/-- The first character that may not be in a text, after a number of bytes. -/
def firstForbidden? (offset : Nat) : List Char → Option Nat
  | [] => none
  | c :: rest => if isAllowed c then firstForbidden? (offset + c.utf8Size) rest else some offset

/-- A composer at the beginning of a text, where a byte order mark is left out. -/
def Composer.start (text : List Char) : Except Fault Composer :=
  let (skipped, body) := match text with
    | '\uFEFF' :: rest => (3, rest)
    | _ => (0, text)
  match firstForbidden? skipped body with
  | some offset => .error ⟨.controlCharacter, .origin, offset, none⟩
  | none => .ok ⟨Scanner.start body, [.firstDocument], []⟩

end CodeSurvey.Yaml
