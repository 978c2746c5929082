import CodeSurvey.Decimal.Binary64

/-! # The fewest digits that read back

`Binary64.shortest` gives the decimal number with the fewest digits that is rounded to
a given binary number, and of several the nearest.  For a growing number of digits it
tries the two neighbours of the number on the decimal grid of that many digits. -/

namespace CodeSurvey

/-- The decimal number `digits · 10 ^ exponent`. -/
structure Decimal where
  digits : Nat
  exponent : Int
deriving DecidableEq, Repr, Inhabited

namespace Decimal

/-- The fraction that a number is. -/
def toRatio (d : Decimal) : Nat × Nat :=
  if 0 ≤ d.exponent then (d.digits * Nat.pow 10 d.exponent.toNat, 1)
  else (d.digits, Nat.pow 10 (-d.exponent).toNat)

/-- The characters of the digits. -/
def digitChars (d : Decimal) : List Char := Nat.toDigits 10 d.digits

/-- Positional notation, without an exponent and without a superfluous point. -/
def positional (d : Decimal) : String :=
  let cs := d.digitChars
  if 0 ≤ d.exponent then String.ofList (cs ++ List.replicate d.exponent.toNat '0')
  else
    let places := (-d.exponent).toNat
    let padded := List.replicate (places + 1 - cs.length) '0' ++ cs
    let whole := padded.length - places
    String.ofList (padded.take whole ++ '.' :: padded.drop whole)

/-- Positional notation with a point for exponents from `-5` to `15` of the first
digit, else scientific notation, where the exponent has a sign. -/
def scientific (d : Decimal) : String :=
  let cs := d.digitChars
  let first : Int := cs.length + d.exponent
  if 0 ≤ d.exponent && first ≤ 16 then
    String.ofList (cs ++ List.replicate d.exponent.toNat '0') ++ ".0"
  else if -5 < first && first ≤ 16 then d.positional
  else
    let fraction := match cs.tail with
      | [] => ""
      | rest => "." ++ String.ofList rest
    let sign := if 0 < first then "+" else ""
    String.ofList (cs.take 1) ++ fraction ++ "e" ++ sign ++ toString (first - 1)

end Decimal

namespace Binary64

/-- The greatest `k` with `10 ^ k ≤ num / den`. -/
def decimalExponent (num den : Nat) : Int :=
  let guess : Int := (Nat.toDigits 10 num).length - (Nat.toDigits 10 den).length
  let (n, d) := (Decimal.mk 1 guess).toRatio
  if n * den ≤ num * d then guess else guess - 1

/-- Whether a decimal number is rounded to `m · 2 ^ e`: it lies between the middles to
the neighbours, of which the lower is nearer below a power of two. -/
def readsBack (x : Binary64) (d : Decimal) : Bool :=
  let (n, k) := d.toRatio
  let below := if x.mantissa = Nat.pow 2 52 && minExponent < x.exponent then 1 else 2
  let at_ (quarters : Nat) : Nat × Nat :=
    let y : Binary64 := ⟨false, quarters, x.exponent - 2⟩
    y.toRatio
  let (ln, ld) := at_ (4 * x.mantissa - below)
  let (hn, hd) := at_ (4 * x.mantissa + 2)
  if x.mantissa % 2 = 0 then ln * k ≤ n * ld && n * hd ≤ hn * k
  else ln * k < n * ld && n * hd < hn * k

/-- The number of `digits` digits that reads back as `x`, if there is one: the nearer
of the two neighbours of `x`, and of two equally near ones the even one. -/
def withDigits? (x : Binary64) (digits : Nat) : Option Decimal :=
  let (n, d) := x.toRatio
  let k := decimalExponent n d - digits + 1
  let (un, ud) := (Decimal.mk 1 k).toRatio
  let low : Decimal := ⟨n * ud / (d * un), k⟩
  let high : Decimal := ⟨low.digits + 1, k⟩
  let nearest : Decimal := ⟨roundDiv (n * ud) (d * un), k⟩
  if x.readsBack nearest then some nearest
  else if x.readsBack low then some low
  else if x.readsBack high then some high
  else none

/-- Leave out the zeros at the end of a number. -/
def trimmed : Nat → Decimal → Decimal
  | 0, d => d
  | fuel + 1, d =>
    if d.digits ≠ 0 ∧ d.digits % 10 = 0 then trimmed fuel ⟨d.digits / 10, d.exponent + 1⟩ else d

/-- The shortest decimal number that reads back as the absolute value of `x`. -/
def shortest (x : Binary64) : Decimal :=
  if x.mantissa = 0 then ⟨0, 0⟩
  else trimmed 20 (((List.range 17).findSome? fun i => x.withDigits? (i + 1)).getD ⟨0, 0⟩)

/-- The sign of a number before its digits. -/
def signed (x : Binary64) (text : String) : String := if x.negative then "-" ++ text else text

end Binary64

end CodeSurvey
