/-! # Binary floating-point numbers

The finite numbers of the 64-bit binary format, as exact values `±m · 2 ^ e`.  The
mantissa has at most 53 bits, and the exponent is at least `-1074`; of the ways to write
a number the one with the longest mantissa is taken.

`Binary64.ofRatio?` rounds a fraction to the nearest of these numbers, and of two
equally near ones to the one whose mantissa is even. -/

namespace CodeSurvey

/-- A finite number `±mantissa · 2 ^ exponent`. -/
structure Binary64 where
  negative : Bool
  mantissa : Nat
  exponent : Int
deriving DecidableEq, Repr, Inhabited

namespace Binary64

/-- The least exponent. -/
def minExponent : Int := -1074

/-- The greatest exponent. -/
def maxExponent : Int := 971

/-- Zero. -/
def zero : Binary64 := ⟨false, 0, minExponent⟩

/-- `num / den` to the nearest whole number, half to even. -/
def roundDiv (num den : Nat) : Nat :=
  let q := num / den
  let r := num % den
  if den < 2 * r ∨ (2 * r = den ∧ q % 2 = 1) then q + 1 else q

/-- The fraction `num / den`, divided by `2 ^ e`. -/
def scaled (num den : Nat) (e : Int) : Nat × Nat :=
  if 0 ≤ e then (num, den * Nat.pow 2 e.toNat) else (num * Nat.pow 2 (-e).toNat, den)

/-- The exponent with which `num / den` has a mantissa of 53 bits, or the least one. -/
def exponentOf (num den : Nat) : Int :=
  let guess : Int := (num.log2 : Int) - (den.log2 : Int) - 52
  let (n, d) := scaled num den guess
  max minExponent (if n < d * Nat.pow 2 52 then guess - 1 else guess)

/-- The number nearest to `num / den`; none if it is too large. -/
def ofRatio? (negative : Bool) (num den : Nat) : Option Binary64 :=
  let e := exponentOf num den
  let (n, d) := scaled num den e
  let m := roundDiv n d
  let (m, e) := if m = Nat.pow 2 53 then (Nat.pow 2 52, e + 1) else (m, e)
  if m = 0 then some ⟨negative, 0, minExponent⟩
  else if maxExponent < e then none
  else some ⟨negative, m, e⟩

/-- The number nearest to a fraction; zero for a fraction that is too large. -/
def ofRatio (num den : Nat) : Binary64 := (ofRatio? false num den).getD zero

/-- The number nearest to `digits · 10 ^ exponent`; none if it is too large. -/
def ofDecimal? (negative : Bool) (digits : Nat) (exponent : Int) : Option Binary64 :=
  let size : Int := (Nat.toDigits 10 digits).length + exponent
  if digits = 0 ∨ size < -400 then some { zero with negative }
  else if 400 < size then none
  else if 0 ≤ exponent then ofRatio? negative (digits * Nat.pow 10 exponent.toNat) 1
  else ofRatio? negative digits (Nat.pow 10 (-exponent).toNat)

/-- The absolute value as a fraction. -/
def toRatio (x : Binary64) : Nat × Nat :=
  if 0 ≤ x.exponent then (x.mantissa * Nat.pow 2 x.exponent.toNat, 1)
  else (x.mantissa, Nat.pow 2 (-x.exponent).toNat)

/-- The product of two numbers, rounded; none if it is too large. -/
def mul? (x y : Binary64) : Option Binary64 :=
  ofRatio? (x.negative != y.negative) (x.toRatio.1 * y.toRatio.1) (x.toRatio.2 * y.toRatio.2)

/-- The quotient of two numbers, rounded; none if it is too large.  The divisor is not
zero. -/
def div? (x y : Binary64) : Option Binary64 :=
  ofRatio? (x.negative != y.negative) (x.toRatio.1 * y.toRatio.2) (x.toRatio.2 * y.toRatio.1)

/-- Whether a number is at least the whole number `n`. -/
def atLeast (x : Binary64) (n : Nat) : Bool :=
  if x.negative then n = 0 && x.mantissa = 0
  else n * x.toRatio.2 ≤ x.toRatio.1

/-- The order of two numbers: the greater value is greater, and of two zeros the
positive one. -/
def order (x y : Binary64) : Ordering :=
  let magnitude := compare (x.toRatio.1 * y.toRatio.2) (y.toRatio.1 * x.toRatio.2)
  match x.negative, y.negative with
  | false, false => magnitude
  | true, true => magnitude.swap
  | true, false => .lt
  | false, true => .gt

/-- A hundred times a number, to the nearest whole number, half upwards, and within
`0` and `bound`. -/
def percent (x : Binary64) (bound : Nat) : Nat :=
  if x.negative then 0
  else
    match ofRatio? false (100 * x.toRatio.1) x.toRatio.2 with
    | none => bound
    | some y => min bound ((2 * y.toRatio.1 + y.toRatio.2) / (2 * y.toRatio.2))

end Binary64

end CodeSurvey
