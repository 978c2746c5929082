import CodeSurvey.Json.Value

/-! # Reading JSON

`Json.parse` reads a text that consists of one value.  If it is none, the `Failure` says
what was wrong and where; the place of a failure is the number of bytes read before it,
and the character that was looked at and not accepted counts as read.

Values may be nested at most 127 deep. -/

namespace CodeSurvey.Json

/-- What is wrong with a text. -/
inductive Problem where
  | endInValue
  | endInList
  | endInObject
  | endInString
  | noValue
  | noKeyword
  | noColon
  | noListSeparator
  | noObjectSeparator
  | noKey
  | trailingComma
  | trailingText
  | malformedNumber
  | numberTooLarge
  | malformedEscape
  | endOfSurrogate
  | loneSurrogate
  | controlCharacter
  | tooDeep
deriving DecidableEq, Repr, Inhabited

/-- The wording of a problem. -/
def Problem.message : Problem → String
  | .endInValue => "EOF while parsing a value"
  | .endInList => "EOF while parsing a list"
  | .endInObject => "EOF while parsing an object"
  | .endInString => "EOF while parsing a string"
  | .noValue => "expected value"
  | .noKeyword => "expected ident"
  | .noColon => "expected `:`"
  | .noListSeparator => "expected `,` or `]`"
  | .noObjectSeparator => "expected `,` or `\x7d`"
  | .noKey => "key must be a string"
  | .trailingComma => "trailing comma"
  | .trailingText => "trailing characters"
  | .malformedNumber => "invalid number"
  | .numberTooLarge => "number out of range"
  | .malformedEscape => "invalid escape"
  | .endOfSurrogate => "unexpected end of hex escape"
  | .loneSurrogate => "lone leading surrogate in hex escape"
  | .controlCharacter => "control character (\\u0000-\\u001F) found while parsing a string"
  | .tooDeep => "recursion limit exceeded"

/-- A problem, with the text that was still to be read, and the number of bytes of it
that count as read. -/
structure Failure where
  problem : Problem
  rest : List Char
  seen : Nat
deriving DecidableEq, Repr, Inhabited

/-- A step of reading: a result and the text after it. -/
abbrev Reading (α : Type) := Except Failure (α × List Char)

/-- Fail before the rest of the text. -/
def failAt {α : Type} (problem : Problem) (rest : List Char) : Except Failure α :=
  .error ⟨problem, rest, 0⟩

/-- Fail at the first byte of the rest of the text. -/
def failIn {α : Type} (problem : Problem) (rest : List Char) : Except Failure α :=
  .error ⟨problem, rest, 1⟩

/-- Whether a character may stand between the parts of a value. -/
def isSpace (c : Char) : Bool := c == ' ' || c == '\n' || c == '\t' || c == '\r'

/-- Leave out the blanks at the beginning. -/
def skipSpace (cs : List Char) : List Char := cs.dropWhile isSpace

/-! ### Numbers -/

/-- The value of a decimal digit. -/
def digit? (c : Char) : Option Nat := if c.isDigit then some (c.toNat - '0'.toNat) else none

/-- The largest whole number that is read exactly. -/
def maxNatural : Nat := Nat.pow 2 64 - 1

/-- The largest exponent that is read. -/
def maxWrittenExponent : Nat := Nat.pow 2 31 - 1

/-- Collect digits as long as the number that they make is small enough.  The second
part of the result counts the digits. -/
def takeDigits (bound : Nat) : Nat → Nat → List Char → Nat × Nat × List Char
  | n, count, [] => (n, count, [])
  | n, count, c :: rest =>
    match digit? c with
    | none => (n, count, c :: rest)
    | some d =>
      if bound < n * 10 + d then (n, count, c :: rest)
      else takeDigits bound (n * 10 + d) (count + 1) rest

/-- The power of ten that is nearest to `10 ^ n`. -/
def powerOfTen (n : Nat) : Binary64 := (Binary64.ofDecimal? false 1 n).getD .zero

/-- Scale a number by a power of ten, in steps that can be represented. -/
def scale? : Nat → Binary64 → Int → Option Binary64
  | 0, x, _ => some x
  | fuel + 1, x, e =>
    if e.natAbs ≤ 308 then
      if 0 ≤ e then x.mul? (powerOfTen e.toNat) else x.div? (powerOfTen (-e).toNat)
    else if x.mantissa = 0 then some x
    else if 0 ≤ e then none
    else (x.div? (powerOfTen 308)).bind fun y => scale? fuel y (e + 308)

/-- The number `digits · 10 ^ exponent`. -/
def realOf (negative : Bool) (digits : Nat) (exponent : Int) (rest : List Char) :
    Reading JsonNumber :=
  match scale? 8 (Binary64.ofRatio digits 1) exponent with
  | some x => .ok (.real { x with negative }, rest)
  | none => failAt .numberTooLarge rest

/-- Read the digits of an exponent, after its sign; `down` tells whether that is a minus. -/
def readPower (negative : Bool) (digits : Nat) (exponent : Int) (down : Bool) (cs : List Char) :
    Reading JsonNumber :=
  match cs with
  | [] => failAt .endInValue []
  | c :: after =>
    match digit? c with
    | none => failIn .malformedNumber cs
    | some d =>
      let (n, _, rest) := takeDigits maxWrittenExponent d 1 after
      match rest with
      | c :: after =>
        if c.isDigit then
          if digits ≠ 0 ∧ !down then failAt .numberTooLarge after
          else .ok (.real { Binary64.zero with negative }, rest.dropWhile Char.isDigit)
        else realOf negative digits (if down then exponent - n else exponent + n) rest
      | [] => realOf negative digits (if down then exponent - n else exponent + n) rest

/-- Read the exponent of a number, after its mark. -/
def readExponent (negative : Bool) (digits : Nat) (exponent : Int) (cs : List Char) :
    Reading JsonNumber :=
  match cs with
  | '+' :: rest => readPower negative digits exponent false rest
  | '-' :: rest => readPower negative digits exponent true rest
  | _ => readPower negative digits exponent false cs

/-- Read what may follow the digits of a number: an exponent. -/
def afterDigits (negative : Bool) (digits : Nat) (exponent : Int) (cs : List Char) :
    Reading JsonNumber :=
  match cs with
  | 'e' :: rest => readExponent negative digits exponent rest
  | 'E' :: rest => readExponent negative digits exponent rest
  | _ => realOf negative digits exponent cs

/-- Read the fraction of a number, after the point.  Digits that do not count any more
are skipped. -/
def readFraction (negative : Bool) (digits : Nat) (exponent : Int) (cs : List Char) :
    Reading JsonNumber :=
  let (n, count, rest) := takeDigits maxNatural digits 0 cs
  match rest with
  | c :: _ =>
    if c.isDigit then afterDigits negative n (exponent - count) (rest.dropWhile Char.isDigit)
    else if count = 0 then failIn .malformedNumber rest
    else afterDigits negative n (exponent - count) rest
  | [] =>
    if count = 0 then failIn .endInValue [] else afterDigits negative n (exponent - count) []

/-- Read what may follow the whole part of a number. -/
def afterWhole (negative : Bool) (digits : Nat) (cs : List Char) : Reading JsonNumber :=
  match cs with
  | '.' :: rest => readFraction negative digits 0 rest
  | 'e' :: rest => readExponent negative digits 0 rest
  | 'E' :: rest => readExponent negative digits 0 rest
  | _ =>
    if !negative then .ok (.natural digits, cs)
    else if 0 < digits ∧ digits ≤ Nat.pow 2 63 then .ok (.negative digits, cs)
    else .ok (.real { Binary64.ofRatio digits 1 with negative := true }, cs)

/-- Read the rest of a whole part that is too long to be read exactly. -/
def afterLong (negative : Bool) (digits : Nat) (cs : List Char) : Reading JsonNumber :=
  let skipped := cs.takeWhile Char.isDigit
  let exponent : Int := skipped.length
  match cs.drop skipped.length with
  | '.' :: rest => readFraction negative digits exponent rest
  | rest => afterDigits negative digits exponent rest

/-- Read a number after its sign. -/
def readNumber (negative : Bool) (cs : List Char) : Reading JsonNumber :=
  match cs with
  | [] => failAt .endInValue []
  | c :: rest =>
    match digit? c with
    | none => failIn .malformedNumber cs
    | some 0 =>
      match rest with
      | d :: _ => if d.isDigit then failIn .malformedNumber rest else afterWhole negative 0 rest
      | [] => afterWhole negative 0 []
    | some d =>
      let (n, _, rest) := takeDigits maxNatural d 1 rest
      match rest with
      | c :: _ => if c.isDigit then afterLong negative n rest else afterWhole negative n rest
      | [] => afterWhole negative n []

/-! ### Strings -/

/-- The value of a hexadecimal digit. -/
def hexValue? (c : Char) : Option Nat :=
  if c.isDigit then some (c.toNat - '0'.toNat)
  else if 'a' ≤ c && c ≤ 'f' then some (c.toNat - 'a'.toNat + 10)
  else if 'A' ≤ c && c ≤ 'F' then some (c.toNat - 'A'.toNat + 10)
  else none

/-- The number of bytes of a text. -/
def byteCount (cs : List Char) : Nat := cs.foldl (fun n c => n + c.utf8Size) 0

/-- Read four hexadecimal digits. -/
def readHex (cs : List Char) : Reading Nat :=
  if byteCount (cs.take 4) < 4 then failAt .endInString []
  else
    match (cs.take 4).mapM hexValue? with
    | some [a, b, c, d] => .ok (((a * 16 + b) * 16 + c) * 16 + d, cs.drop 4)
    | _ => .error ⟨.malformedEscape, cs, 4⟩

/-- Read the second half of a character that is written as two surrogates. -/
def readLowSurrogate (high : Nat) (cs : List Char) : Reading Char :=
  match cs with
  | '\\' :: 'u' :: rest =>
    match readHex rest with
    | .error f => .error f
    | .ok (low, rest) =>
      if 0xDC00 ≤ low ∧ low ≤ 0xDFFF then
        .ok (Char.ofNat ((high - 0xD800) * 0x400 + (low - 0xDC00) + 0x10000), rest)
      else failAt .loneSurrogate rest
  | '\\' :: [] => failAt .endInString []
  | '\\' :: rest => failIn .endOfSurrogate rest
  | [] => failAt .endInString []
  | _ => failIn .endOfSurrogate cs

/-- Read an escape sequence after its backslash. -/
def readEscape (cs : List Char) : Reading Char :=
  match cs with
  | [] => failAt .endInString []
  | '"' :: rest => .ok ('"', rest)
  | '\\' :: rest => .ok ('\\', rest)
  | '/' :: rest => .ok ('/', rest)
  | 'b' :: rest => .ok ('\x08', rest)
  | 'f' :: rest => .ok ('\x0c', rest)
  | 'n' :: rest => .ok ('\n', rest)
  | 'r' :: rest => .ok ('\r', rest)
  | 't' :: rest => .ok ('\t', rest)
  | 'u' :: rest =>
    match readHex rest with
    | .error f => .error f
    | .ok (n, rest) =>
      if 0xDC00 ≤ n ∧ n ≤ 0xDFFF then failAt .loneSurrogate rest
      else if 0xD800 ≤ n ∧ n ≤ 0xDBFF then readLowSurrogate n rest
      else .ok (Char.ofNat n, rest)
  | _ => failIn .malformedEscape cs

/-- Read a string after its opening quote; every round reads at least one character. -/
def readString : Nat → List Char → List Char → Reading String
  | 0, _, cs => failAt .endInString cs
  | _, _, [] => failAt .endInString []
  | fuel + 1, read, c :: rest =>
    if c = '"' then .ok (String.ofList read.reverse, rest)
    else if c = '\\' then
      match readEscape rest with
      | .error f => .error f
      | .ok (d, rest) => readString fuel (d :: read) rest
    else if c.toNat < 32 then failAt .controlCharacter rest
    else readString fuel (c :: read) rest

/-! ### Values -/

/-- Read the rest of a keyword. -/
def readKeyword (v : Json) : List Char → List Char → Reading Json
  | [], cs => .ok (v, cs)
  | _, [] => failAt .endInValue []
  | k :: ks, c :: cs => if k = c then readKeyword v ks cs else failIn .noKeyword (c :: cs)

/-- Read the colon between a name and a value. -/
def readColon (cs : List Char) : Except Failure (List Char) :=
  match skipSpace cs with
  | ':' :: rest => .ok rest
  | [] => failIn .endInObject []
  | rest => failIn .noColon rest

mutual

/-- Read a value; `depth` is how deep values may be nested in it. -/
def readValue : Nat → Nat → List Char → Reading Json
  | 0, _, cs => failAt .tooDeep cs
  | fuel + 1, depth, cs =>
    match skipSpace cs with
    | [] => failIn .endInValue []
    | 'n' :: rest => readKeyword .null ['u', 'l', 'l'] rest
    | 't' :: rest => readKeyword (.bool true) ['r', 'u', 'e'] rest
    | 'f' :: rest => readKeyword (.bool false) ['a', 'l', 's', 'e'] rest
    | '-' :: rest => (readNumber true rest).map fun r => (.number r.1, r.2)
    | '"' :: rest => (readString (rest.length + 1) [] rest).map fun r => (.string r.1, r.2)
    | '[' :: rest =>
      if depth ≤ 1 then failIn .tooDeep ('[' :: rest)
      else readItems fuel (depth - 1) [] rest
    | '\x7b' :: rest =>
      if depth ≤ 1 then failIn .tooDeep ('\x7b' :: rest)
      else readFields fuel (depth - 1) true [] rest
    | c :: rest =>
      if c.isDigit then (readNumber false (c :: rest)).map fun r => (.number r.1, r.2)
      else failIn .noValue (c :: rest)

/-- Read the items of a list after those that were `read`, and its end. -/
def readItems : Nat → Nat → List Json → List Char → Reading Json
  | 0, _, _, cs => failAt .tooDeep cs
  | fuel + 1, depth, read, cs =>
    let item (cs : List Char) : Reading Json :=
      match readValue fuel depth cs with
      | .error f => .error f
      | .ok (v, rest) => readItems fuel depth (v :: read) rest
    match skipSpace cs with
    | [] => failIn .endInList []
    | ']' :: rest => .ok (.array read.reverse, rest)
    | ',' :: rest =>
      if read.isEmpty then item (',' :: rest)
      else
        match skipSpace rest with
        | [] => failIn .endInValue []
        | ']' :: after => failIn .trailingComma (']' :: after)
        | after => item after
    | rest => if read.isEmpty then item rest else failIn .noListSeparator rest

/-- Read the fields of an object after those that were `read`, and its end. -/
def readFields : Nat → Nat → Bool → List (String × Json) → List Char → Reading Json
  | 0, _, _, _, cs => failAt .tooDeep cs
  | fuel + 1, depth, first, read, cs =>
    let field (cs : List Char) : Reading Json :=
      match readString (cs.length + 1) [] cs with
      | .error f => .error f
      | .ok (name, rest) =>
        match readColon rest with
        | .error f => .error f
        | .ok rest =>
          match readValue fuel depth rest with
          | .error f => .error f
          | .ok (v, rest) => readFields fuel depth false (insertField name v read) rest
    match skipSpace cs with
    | [] => failIn .endInObject []
    | '\x7d' :: rest => .ok (.object read, rest)
    | ',' :: rest =>
      if first then failIn .noKey (',' :: rest)
      else
        match skipSpace rest with
        | [] => failIn .endInValue []
        | '"' :: after => field after
        | '\x7d' :: after => failIn .trailingComma ('\x7d' :: after)
        | after => failIn .noKey after
    | '"' :: rest => if first then field rest else failIn .noObjectSeparator ('"' :: rest)
    | rest => if first then failIn .noKey rest else failIn .noObjectSeparator rest

end

/-- How deep values may be nested. -/
def maxDepth : Nat := 128

/-- Read a text that consists of one value. -/
def parse (text : String) : Except Failure Json :=
  let cs := text.toList
  match readValue (2 * cs.length + 2) maxDepth cs with
  | .error f => .error f
  | .ok (v, rest) =>
    match skipSpace rest with
    | [] => .ok v
    | rest => failIn .trailingText rest

/-- The line and column after the first `n` bytes of a text. -/
def lineAndColumn (text : String) (n : Nat) : Nat × Nat :=
  (text.toUTF8.data.toList.take n).foldl
    (fun p b => if b = 10 then (p.1 + 1, 0) else (p.1, p.2 + 1)) (1, 0)

/-- The wording of a failure in a text. -/
def Failure.message (f : Failure) (text : String) : String :=
  let total := text.utf8ByteSize
  let place := lineAndColumn text (min total (total - byteCount f.rest + f.seen))
  f.problem.message ++ " at line " ++ toString place.1 ++ " column " ++ toString place.2

end CodeSurvey.Json
