import CodeSurvey.Decimal.Shortest
import CodeSurvey.Text.Quoted
import CodeSurvey.Text.Radix
import CodeSurvey.Yaml.Token

/-! # The values of scalars

A plain scalar may spell nothing, a truth value or a number; any other scalar is a text.
A tag can say which of these a scalar is. -/

namespace CodeSurvey.Yaml

/-- A number with a point. -/
inductive Real where
  | finite (x : Binary64)
  | infinite (negative : Bool)
  | undefined
deriving DecidableEq, Repr, Inhabited

/-- The text of a number. -/
def Real.write : Real → String
  | finite x =>
    let text := x.shortest.positional
    x.signed (if text.contains '.' then text else text ++ ".0")
  | infinite negative => if negative then "-inf" else "inf"
  | undefined => "NaN"

/-- What a scalar stands for. -/
inductive Value where
  | null
  | boolean (b : Bool)
  | whole (n : Int)
  | real (x : Real)
  | text (s : String)
deriving DecidableEq, Repr, Inhabited

/-! ### Spellings -/

/-- Whether a text spells nothing. -/
def spellsNull (s : String) : Bool := ["null", "Null", "NULL", "~"].contains s

/-- The truth value that a text spells. -/
def boolean? (s : String) : Option Bool :=
  if ["true", "True", "TRUE"].contains s then some true
  else if ["false", "False", "FALSE"].contains s then some false
  else none

/-- Whether a text consists of several digits of which the first is zero; such a text
is no number. -/
def hasLeadingZero : List Char → Bool
  | '0' :: cs => !cs.isEmpty && cs.all Char.isDigit
  | _ => false

/-- The number that digits without a sign spell; a mark before them may tell the base. -/
def magnitude? (cs : List Char) : Option Nat :=
  let unsigned? (base : Nat) (cs : List Char) : Option Nat :=
    if cs.head? == some '+' then none else Text.number? base cs
  match cs with
  | '0' :: 'x' :: rest => unsigned? 16 rest
  | '0' :: 'o' :: rest => unsigned? 8 rest
  | '0' :: 'b' :: rest => unsigned? 2 rest
  | _ => if hasLeadingZero cs then none else unsigned? 10 cs

/-- The whole number that a text spells, if it is below a bound. -/
def natural? (bound : Nat) (s : String) : Option Nat :=
  let value := match s.toList with
    | '+' :: cs => magnitude? cs
    | cs => magnitude? cs
  value.filter (· < bound)

/-- The whole number of at most 128 bits that a text spells. -/
def whole? (s : String) : Option Int :=
  match s.toList with
  | '-' :: cs => ((magnitude? cs).filter (· ≤ Nat.pow 2 127)).map fun n => -(n : Int)
  | _ => (natural? (Nat.pow 2 128) s).map fun n => (n : Int)

/-- The finite number that a text spells in decimal notation. -/
def decimal? (negative : Bool) (cs : List Char) : Option Binary64 :=
  let whole := cs.takeWhile Char.isDigit
  let rest := cs.drop whole.length
  let (fraction, rest) := match rest with
    | '.' :: rest => (rest.takeWhile Char.isDigit, rest.dropWhile Char.isDigit)
    | _ => ([], rest)
  let digits := whole ++ fraction
  let exponent? : Option Int := match rest with
    | [] => some 0
    | c :: rest =>
      if c = 'e' ∨ c = 'E' then
        match rest with
        | '-' :: '+' :: _ => none
        | '-' :: cs => (Text.number? 10 cs).map fun n => -(n : Int)
        | cs => (Text.number? 10 cs).map fun n => (n : Int)
      else none
  match exponent?, Text.number? 10 digits with
  | some e, some n => Binary64.ofDecimal? negative n (e - fraction.length)
  | _, _ => none

/-- The number that a text spells, which may be infinite or undefined. -/
def real? (s : String) : Option Real :=
  let positive := if s.startsWith "+" then (s.drop 1).copy else s
  if [".inf", ".Inf", ".INF"].contains positive then some (.infinite false)
  else if ["-.inf", "-.Inf", "-.INF"].contains s then some (.infinite true)
  else if [".nan", ".NaN", ".NAN"].contains s then some .undefined
  else
    match s.toList with
    | '+' :: cs => (decimal? false cs).map .finite
    | '-' :: cs => (decimal? true cs).map .finite
    | cs => (decimal? false cs).map .finite

/-- Whether a text, after a sign, has a leading zero. -/
def hasSignedLeadingZero (s : String) : Bool :=
  match s.toList with
  | '+' :: cs => hasLeadingZero cs
  | '-' :: cs => hasLeadingZero cs
  | cs => hasLeadingZero cs

/-- What a plain scalar stands for. -/
def plainValue (s : String) : Value :=
  if s.isEmpty || spellsNull s then .null
  else
    match boolean? s, whole? s with
    | some b, _ => .boolean b
    | none, some n => .whole n
    | none, none =>
      match real? s with
      | some x => if hasSignedLeadingZero s then .text s else .real x
      | none => .text s

/-! ### Tags -/

/-- The tag of nothing. -/
def nullTag : String := "tag:yaml.org,2002:null"

/-- The tag of truth values. -/
def booleanTag : String := "tag:yaml.org,2002:bool"

/-- The tag of whole numbers. -/
def wholeTag : String := "tag:yaml.org,2002:int"

/-- The tag of numbers with a point. -/
def realTag : String := "tag:yaml.org,2002:float"

/-- What a scalar stands for; if it is not what its tag says, the words for that. -/
def scalarValue (tag : Option String) (style : ScalarStyle) (s : String) : Except String Value :=
  let untagged : Value := if style = .plain then plainValue s else .text s
  let fits (words : String) (v : Option Value) : Except String Value :=
    match v with
    | some v => .ok v
    | none => .error words
  match tag with
  | none => .ok untagged
  | some tag =>
    if tag = booleanTag then fits "a boolean" ((boolean? s).map .boolean)
    else if tag = wholeTag then fits "an integer" ((whole? s).map .whole)
    else if tag = realTag then fits "a float" ((real? s).map .real)
    else if tag = nullTag then fits "null" (if spellsNull s then some .null else none)
    else .ok (if tag.startsWith "!" then untagged else .text s)

/-- A value in words. -/
def Value.describe : Value → String
  | null => "unit value"
  | boolean b => "boolean `" ++ toString b ++ "`"
  | whole n =>
    let width :=
      if Int.ofNat (Nat.pow 2 64) ≤ n then " as u128"
      else if n < -Int.ofNat (Nat.pow 2 63) then " as i128" else ""
    "integer `" ++ toString n ++ "`" ++ width
  | real x => "floating point `" ++ x.write ++ "`"
  | text s => "string " ++ Text.quoted s

end CodeSurvey.Yaml
