import CodeSurvey.Lexical.Lexeme

/-! # The lexemes of TypeScript

Names, numbers, comments and the inner parts of string, regular expression and
markup literals.  A part of a literal adjoins what stands before it: no blank
space is skipped on the way.

Literals, comments and markup take any character but NUL, and bytes that are no
text; a name takes text only. -/

namespace CodeSurvey.TypeScript.Lexemes

open Pattern GlyphSet

/-! ### Blank space -/

/-- Space separators of Unicode. -/
def spaceSeparators : List (Nat × Nat) :=
  [(0x20, 0x20), (0xA0, 0xA0), (0x1680, 0x1680), (0x2000, 0x200A), (0x202F, 0x202F),
    (0x205F, 0x205F), (0x3000, 0x3000)]

/-- Characters without extent and separators of lines and paragraphs. -/
def formatSeparators : List (Nat × Nat) :=
  [(0xFEFF, 0xFEFF), (0x2028, 0x2029), (0x2060, 0x2060), (0x200B, 0x200B)]

/-- What may stand between any two tokens. -/
def blanks : GlyphSet := .only ((0x09, 0x0D) :: spaceSeparators ++ formatSeparators)

/-! ### Digits -/

/-- A decimal digit. -/
def digit : Pattern := ranges [range '0' '9']

/-- A hexadecimal digit. -/
def hexDigit : Pattern := ranges [range '0' '9', range 'a' 'f', range 'A' 'F']

/-- Digits, with a low line allowed between any two. -/
def grouped (d : Pattern) : Pattern := thenP d (star (thenP (opt (text "_")) d))

/-! ### Names -/

/-- Signs that are no part of a name. -/
def signs : List (Nat × Nat) := points ":;`\"'@#.,|^&<=>+-*/\\%?!~()[]\x7b\x7d".toList

/-- An escaped character in a name. -/
def escapedPoint : Pattern :=
  orP (thenP (text "\\u") (exactly hexDigit 4))
    (inOrder [text "\\u\x7b", plus hexDigit, text "\x7d"])

/-- A character that may go on a name. -/
def nameChar : Pattern :=
  orP (one (.textBut ((0x00, 0x1F) :: spaceSeparators ++ formatSeparators ++ signs))) escapedPoint

/-- A character that may begin a name. -/
def nameStart : Pattern :=
  orP (one (.textBut
    (range '0' '9' :: (0x00, 0x1F) :: spaceSeparators ++ formatSeparators ++ signs))) escapedPoint

/-- A name. -/
def identifier : Pattern := thenP nameStart (star nameChar)

/-- The name of a member that is private to its class. -/
def privateName : Pattern := thenP (text "#") identifier

/-- A name in markup that holds a hyphen. -/
def hyphenatedName : Pattern :=
  let start := [range 'a' 'z', range 'A' 'Z'] ++ points ['_', '$']
  let more := range '0' '9' :: start
  inOrder [ranges start, star (ranges more), text "-", star (ranges (('-'.toNat, '-'.toNat) :: more))]

/-! ### Numbers -/

/-- The literals written with a radix: hexadecimal, binary, octal. -/
def hexNumber : Pattern := thenP (orP (text "0x") (text "0X")) (grouped hexDigit)
@[inherit_doc hexNumber]
def binaryNumber : Pattern := thenP (orP (text "0b") (text "0B")) (grouped (ranges [range '0' '1']))
@[inherit_doc hexNumber]
def octalNumber : Pattern := thenP (orP (text "0o") (text "0O")) (grouped (ranges [range '0' '7']))

/-- An exponent. -/
def exponent : Pattern :=
  inOrder [ranges (points ['e', 'E']), opt (ranges (points ['-', '+'])), grouped digit]

/-- The part of a decimal literal before its point or exponent. -/
def wholePart : Pattern :=
  orP (text "0")
    (inOrder [opt (text "0"), ranges [range '1' '9'], opt (thenP (opt (text "_")) (grouped digit))])

/-- A decimal literal. -/
def decimalNumber : Pattern :=
  anyOf [inOrder [wholePart, text ".", opt (grouped digit), opt exponent],
    inOrder [text ".", grouped digit, opt exponent], thenP wholePart exponent, grouped digit]

/-- A literal for an integer of any size. -/
def bigNumber : Pattern :=
  thenP (anyOf [hexNumber, binaryNumber, octalNumber, grouped digit]) (text "n")

/-- A numeric literal. -/
def number : Pattern := anyOf [hexNumber, decimalNumber, binaryNumber, octalNumber, bigNumber]

/-! ### Comments -/

/-- Up to the end of the line. -/
def lineComment : Pattern :=
  thenP (text "//") (star (one (.allBut [(0x0A, 0x0A), (0x0D, 0x0D), (0x2028, 0x2029)])))

/-- Up to the first closing sign. -/
def blockComment : Pattern :=
  let notStar := star (one (.allBut (points ['*'])))
  inOrder [text "/*", notStar, plus (text "*"),
    star (inOrder [one (.allBut (points ['/', '*'])), notStar, plus (text "*")]), text "/"]

/-- The line that names an interpreter, at the head of a script. -/
def hashBang : Pattern := thenP (text "#!") (star (one (.allBut (points ['\n']))))

/-! ### Parts of literals -/

/-- The plain part of a string literal that ends with the given quote. -/
def stringPart (quote : Char) : Pattern := plus (one (.allBut (points [quote, '\\', '\r', '\n'])))

/-- An escape in a string or template literal. -/
def escape : Pattern :=
  thenP (text "\\") (anyOf [one (.allBut (range '0' '7' :: points ['x', 'u'])),
    between (ranges [range '0' '7']) 1 2,
    thenP (text "x") (exactly hexDigit 2),
    thenP (text "u") (exactly hexDigit 4),
    inOrder [text "u\x7b", plus hexDigit, text "\x7d"],
    thenP (ranges (points ['\r', '?'])) (ranges [(0x0A, 0x0A), (0x2028, 0x2029)])])

/-- The body of a regular expression literal. -/
def regexBody : Pattern :=
  let quoted := thenP (text "\\") (one (.allBut (points ['\n'])))
  plus (anyOf [inOrder [text "[", star (orP quoted (one (.allBut (points [']', '\n', '\\'])))), text "]"],
    quoted, one (.allBut (points ['/', '\\', '[', '\n']))])

/-- The flags of a regular expression literal. -/
def regexFlags : Pattern := plus (ranges [range 'a' 'z'])

/-- A character reference in markup. -/
def characterReference : Pattern :=
  let numeric := thenP (text "#")
    (orP (thenP (ranges (points ['x', 'X'])) (between hexDigit 1 5)) (between digit 1 4))
  let byName := between (ranges [range 'A' 'Z', range 'a' 'z']) 1 29
  inOrder [text "&", orP numeric byName, text ";"]

/-- The plain part of an attribute value in markup that ends with the given quote. -/
def attributePart (quote : Char) : Pattern :=
  plus (orP (one (.allBut (points [quote, '&'])))
    (thenP (text "&") (one (.allBut [range 'A' 'Z', range 'a' 'z', range '#' '#']))))

end CodeSurvey.TypeScript.Lexemes
