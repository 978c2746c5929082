/-! # Faults in YAML

A `Fault` says what is wrong with a text, where, and what was being read there. -/

namespace CodeSurvey.Yaml

/-- A point in a text: the number of characters before it, its line and its column, all
from zero. -/
structure Mark where
  index : Nat
  line : Nat
  column : Nat
deriving DecidableEq, Repr, Inhabited

namespace Mark

/-- The beginning of a text. -/
def origin : Mark := ⟨0, 0, 0⟩

/-- Whether a point lies at the beginning of the first line. -/
def isOrigin (m : Mark) : Bool := m.line == 0 && m.column == 0

/-- A point in words, counted from one. -/
def words (m : Mark) : String :=
  "line " ++ toString (m.line + 1) ++ " column " ++ toString (m.column + 1)

/-- A point with a preposition; the beginning of a text goes without saying. -/
def place (m : Mark) : String := if m.isOrigin then "" else " at " ++ m.words

end Mark

/-- What is wrong. -/
inductive Problem where
  | controlCharacter
  | misplacedEntry
  | misplacedKey
  | misplacedValue
  | noToken
  | noColon
  | unknownDirective
  | noCommentOrBreak
  | noDirectiveName
  | directiveNameCharacter
  | noVersionPoint
  | longVersion
  | noVersion
  | noBlank
  | noBlankOrBreak
  | noAlphanumeric
  | noTagBracket
  | noTagMark
  | noTagText
  | noOctet
  | leadingOctet
  | trailingOctet
  | zeroIndentation
  | tabForIndentation
  | documentIndicator
  | endOfText
  | unknownEscape
  | noHexadecimal
  | noCodePoint
  | misplacedColon
  | tabInIndentation
  | noDocumentStart
  | secondVersion
  | otherVersion
  | secondTag
  | unknownHandle
  | noContent
  | noDash
  | noKey
  | noSequenceSeparator
  | noMappingSeparator
deriving DecidableEq, Repr, Inhabited

/-- The wording of a problem. -/
def Problem.message : Problem → String
  | controlCharacter => "control characters are not allowed"
  | misplacedEntry => "block sequence entries are not allowed in this context"
  | misplacedKey => "mapping keys are not allowed in this context"
  | misplacedValue => "mapping values are not allowed in this context"
  | noToken => "found character that cannot start any token"
  | noColon => "could not find expected ':'"
  | unknownDirective => "found unknown directive name"
  | noCommentOrBreak => "did not find expected comment or line break"
  | noDirectiveName => "could not find expected directive name"
  | directiveNameCharacter => "found unexpected non-alphabetical character"
  | noVersionPoint => "did not find expected digit or '.' character"
  | longVersion => "found extremely long version number"
  | noVersion => "did not find expected version number"
  | noBlank => "did not find expected whitespace"
  | noBlankOrBreak => "did not find expected whitespace or line break"
  | noAlphanumeric => "did not find expected alphabetic or numeric character"
  | noTagBracket => "did not find the expected '>'"
  | noTagMark => "did not find expected '!'"
  | noTagText => "did not find expected tag URI"
  | noOctet => "did not find URI escaped octet"
  | leadingOctet => "found an incorrect leading UTF-8 octet"
  | trailingOctet => "found an incorrect trailing UTF-8 octet"
  | zeroIndentation => "found an indentation indicator equal to 0"
  | tabForIndentation => "found a tab character where an indentation space is expected"
  | documentIndicator => "found unexpected document indicator"
  | endOfText => "found unexpected end of stream"
  | unknownEscape => "found unknown escape character"
  | noHexadecimal => "did not find expected hexdecimal number"
  | noCodePoint => "found invalid Unicode character escape code"
  | misplacedColon => "found unexpected ':'"
  | tabInIndentation => "found a tab character that violates indentation"
  | noDocumentStart => "did not find expected <document start>"
  | secondVersion => "found duplicate %YAML directive"
  | otherVersion => "found incompatible YAML document"
  | secondTag => "found duplicate %TAG directive"
  | unknownHandle => "found undefined tag handle"
  | noContent => "did not find expected node content"
  | noDash => "did not find expected '-' indicator"
  | noKey => "did not find expected key"
  | noSequenceSeparator => "did not find expected ',' or ']'"
  | noMappingSeparator => "did not find expected ',' or '\x7d'"

/-- What was being read. -/
inductive Activity where
  | simpleKey
  | nextToken
  | directive
  | versionDirective
  | tagDirective
  | tagDirectiveHandle
  | tagDirectiveMark
  | tagDirectiveText
  | tag
  | tagText
  | anchor
  | alias
  | blockScalar
  | quotedScalar
  | escape
  | plainScalar
  | node
  | blockNode
  | flowNode
  | blockSequence
  | blockMapping
  | flowSequence
  | flowMapping
deriving DecidableEq, Repr, Inhabited

/-- The wording of an activity. -/
def Activity.message : Activity → String
  | .simpleKey => "while scanning a simple key"
  | .nextToken => "while scanning for the next token"
  | .directive => "while scanning a directive"
  | .versionDirective => "while scanning a %YAML directive"
  | .tagDirective => "while scanning a %TAG directive"
  | .tagDirectiveHandle => "while scanning a tag directive"
  | .tagDirectiveMark => "while parsing a tag directive"
  | .tagDirectiveText => "while parsing a %TAG directive"
  | .tag => "while scanning a tag"
  | .tagText => "while parsing a tag"
  | .anchor => "while scanning an anchor"
  | .alias => "while scanning an alias"
  | .blockScalar => "while scanning a block scalar"
  | .quotedScalar => "while scanning a quoted scalar"
  | .escape => "while parsing a quoted scalar"
  | .plainScalar => "while scanning a plain scalar"
  | .node => "while parsing a node"
  | .blockNode => "while parsing a block node"
  | .flowNode => "while parsing a flow node"
  | .blockSequence => "while parsing a block collection"
  | .blockMapping => "while parsing a block mapping"
  | .flowSequence => "while parsing a flow sequence"
  | .flowMapping => "while parsing a flow mapping"

/-- A problem at a point, and the activity with the point where that began.  A character
that may not be in a text at all is found before its line is known; only its place in
bytes is given then. -/
structure Fault where
  problem : Problem
  mark : Mark
  offset : Nat
  activity : Option (Activity × Mark)
deriving DecidableEq, Repr, Inhabited

/-- The wording of a fault. -/
def Fault.message (f : Fault) : String :=
  let place :=
    if !f.mark.isOrigin then f.mark.place
    else if f.offset = 0 then ""
    else " at position " ++ toString f.offset
  let context := match f.activity with
    | none => ""
    | some (a, began) =>
      let same := began.line == f.mark.line && began.column == f.mark.column
      ", " ++ a.message ++ (if same then "" else began.place)
  f.problem.message ++ place ++ context

end CodeSurvey.Yaml
