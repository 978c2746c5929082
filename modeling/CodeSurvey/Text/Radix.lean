/-! # Whole numbers in any base -/

namespace CodeSurvey.Text

/-- What stands behind the characters with a property at the beginning. -/
theorem drop_length_takeWhile (p : Char → Bool) (cs : List Char) :
    cs.drop (cs.takeWhile p).length = cs.dropWhile p := by
  have h : cs.takeWhile p ++ cs.dropWhile p = cs := List.takeWhile_append_dropWhile
  calc cs.drop (cs.takeWhile p).length
      = (cs.takeWhile p ++ cs.dropWhile p).drop (cs.takeWhile p).length := by rw [h]
    _ = cs.dropWhile p := List.drop_left

/-- The value of a digit in a base of at most sixteen. -/
def digit? (base : Nat) (c : Char) : Option Nat :=
  let value :=
    if c.isDigit then some (c.toNat - '0'.toNat)
    else if 'a' ≤ c && c ≤ 'f' then some (c.toNat - 'a'.toNat + 10)
    else if 'A' ≤ c && c ≤ 'F' then some (c.toNat - 'A'.toNat + 10)
    else none
  value.filter (· < base)

/-- The number that digits after those of `n` make. -/
def digitsFrom? (base n : Nat) : List Char → Option Nat
  | [] => some n
  | c :: cs => (digit? base c).bind fun d => digitsFrom? base (n * base + d) cs

/-- The number that a text of one or more digits spells; a plus sign may stand before
them. -/
def number? (base : Nat) : List Char → Option Nat
  | [] => none
  | ['+'] => none
  | '+' :: cs => digitsFrom? base 0 cs
  | cs => digitsFrom? base 0 cs

/-- The number that a text spells, if it is below a bound. -/
def numberBelow? (bound base : Nat) (cs : List Char) : Option Nat :=
  (number? base cs).filter (· < bound)

end CodeSurvey.Text
