import CodeSurvey.Decimal.Shortest
import CodeSurvey.Text.Radix

/-! # Values of literals

`Literal.inside` is the text between the quotes of a string literal,
`Literal.unescape` decodes the escape sequences in it, and `Literal.numberText` gives
the decimal form of a number literal.  A number that has no such form keeps its text. -/

namespace CodeSurvey.Literal

/-- A text without its first and last byte, if both are characters of their own. -/
def inside (text : List Char) : List Char :=
  match text with
  | [] | [_] => []
  | c :: rest =>
    if c.utf8Size = 1 ∧ (rest.getLastD c).utf8Size = 1 then rest.dropLast else []

/-- The character of a code point that is written in hexadecimal digits. -/
def codePoint? (digits : List Char) : Option Char :=
  (Text.numberBelow? (Nat.pow 2 32) 16 digits).bind fun n =>
    if n.isValidChar then some (Char.ofNat n) else none

/-- The character that a letter stands for after a backslash. -/
def letter? : Char → Option Char
  | 'n' => some '\n'
  | 't' => some '\t'
  | 'r' => some '\r'
  | 'b' => some '\x08'
  | 'f' => some '\x0c'
  | 'v' => some '\x0b'
  | '0' => some '\x00'
  | _ => none

/-- What an escape sequence stands for, and the text after it.  The text begins after
the backslash; a sequence for no code point stands for itself. -/
def escape (c : Char) (rest : List Char) : List Char × List Char :=
  match letter? c with
  | some d => ([d], rest)
  | none =>
    let decoded (digits : List Char) (written : List Char) : List Char :=
      match codePoint? digits with
      | some d => [d]
      | none => written
    match c, rest with
    | '\n', _ => ([], rest)
    | '\r', '\n' :: after => ([], after)
    | '\r', _ => ([], rest)
    | 'x', _ =>
      let digits := rest.take 2
      (decoded digits ('\\' :: 'x' :: digits), rest.drop 2)
    | 'u', '\x7b' :: after =>
      let digits := after.takeWhile (· != '\x7d')
      (decoded digits ('\\' :: 'u' :: '\x7b' :: digits ++ ['\x7d']), (after.drop digits.length).drop 1)
    | 'u', _ =>
      let digits := rest.take 4
      (decoded digits ('\\' :: 'u' :: digits), rest.drop 4)
    | _, _ => ([c], rest)

theorem escape_length_le (c : Char) (rest : List Char) :
    (escape c rest).2.length ≤ rest.length := by
  unfold escape
  split
  · simp
  · dsimp only
    split <;> simp
    omega

/-- Decode the escape sequences of a text.  A backslash at its end stands for nothing. -/
def unescape : List Char → List Char
  | [] => []
  | c :: rest =>
    if c = '\\' then
      match rest with
      | [] => []
      | d :: after => (escape d after).1 ++ unescape (escape d after).2
    else c :: unescape rest
termination_by cs => cs.length
decreasing_by
  · have := escape_length_le d after
    simp only [List.length_cons]
    omega
  · simp

/-- Read decimal digits with an optional fraction and exponent. -/
def decimal? (cs : List Char) : Option Decimal :=
  let whole := cs.takeWhile Char.isDigit
  let afterWhole := cs.drop whole.length
  let (fraction, rest) := match afterWhole with
    | '.' :: after => (after.takeWhile Char.isDigit, after.dropWhile Char.isDigit)
    | _ => ([], afterWhole)
  if whole.isEmpty && fraction.isEmpty then none
  else
    (Text.digitsFrom? 10 0 (whole ++ fraction)).bind fun digits =>
      let places : Int := fraction.length
      match rest with
      | [] => some ⟨digits, -places⟩
      | 'e' :: '-' :: ds =>
        if ds.isEmpty then none
        else (Text.digitsFrom? 10 0 ds).map fun n => ⟨digits, -(n : Int) - places⟩
      | 'e' :: '+' :: ds =>
        if ds.isEmpty then none
        else (Text.digitsFrom? 10 0 ds).map fun n => ⟨digits, n - places⟩
      | 'e' :: ds =>
        if ds.isEmpty then none
        else (Text.digitsFrom? 10 0 ds).map fun n => ⟨digits, n - places⟩
      | _ => none

/-- The base that the first two characters of a number literal tell. -/
def radix? : List Char → Option Nat
  | '0' :: 'x' :: _ => some 16
  | '0' :: 'o' :: _ => some 8
  | '0' :: 'b' :: _ => some 2
  | _ => none

/-- The decimal form of a number literal: of a whole number in another base if it is
below 2 ^ 64, of any other number if it is below 10 ^ 21.  Low lines between the digits
and the case of letters make no difference. -/
def numberText (text : String) : String :=
  let cs := (text.toList.filter (· != '_')).map Char.toLower
  match radix? cs with
  | some base =>
    match Text.numberBelow? (Nat.pow 2 64) base (cs.drop 2) with
    | some n => toString n
    | none => text
  | none =>
    let unsigned := match cs with
      | '+' :: rest => rest
      | '-' :: rest => rest
      | _ => cs
    match (decimal? unsigned).bind fun d => Binary64.ofDecimal? (cs.head? == some '-') d.digits d.exponent with
    | some x =>
      if { x with negative := false }.atLeast (Nat.pow 10 21) then text
      else x.signed x.shortest.positional
    | none => text

end CodeSurvey.Literal
