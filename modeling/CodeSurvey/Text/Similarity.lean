/-! # Similar words

How similar two words are is measured after Jaro: by the number of characters that they
share at nearly the same places, and by how many of those are out of order. -/

namespace CodeSurvey.Text

/-- Pair the characters of a word, from place `i` on, with equal ones of another that are
at most `reach` places away.  Each is paired with the first that is left; the result are
the characters that found a partner, and the places of the partners. -/
def partners (reach i : Nat) (other : List (Nat × Char)) : List Char → List Char × List Nat
  | [] => ([], [])
  | c :: rest =>
    match other.find? fun p => p.2 = c && i ≤ p.1 + reach && p.1 ≤ i + reach with
    | none => partners reach (i + 1) other rest
    | some (place, _) =>
      let (found, places) := partners reach (i + 1) (other.filter (·.1 != place)) rest
      (c :: found, place :: places)

/-- How similar two words are: a fraction between zero and one. -/
def similarity (a b : String) : Nat × Nat :=
  let m := a.length
  let n := b.length
  if m = 0 ∧ n = 0 then (1, 1)
  else
    let others := b.toList.zipIdx.map fun p => (p.2, p.1)
    let (found, places) := partners (max m n / 2 - 1) 0 others a.toList
    let k := found.length
    if k = 0 then (0, 1)
    else
      let inOther := (others.filter fun p => places.contains p.1).map (·.2)
      let disordered := ((found.zip inOther).filter fun p => p.1 != p.2).length / 2
      (k * k * n + k * k * m + (k - disordered) * m * n, 3 * m * n * k)

/-- Whether a fraction is at most another. -/
def atMost (a b : Nat × Nat) : Bool := a.1 * b.2 ≤ b.1 * a.2

/-- The words that are more similar to a word than seven tenths, the most similar last. -/
def similarWords (word : String) (known : List String) : List String :=
  let rated := known.map fun w => (similarity word w, w)
  let similar := rated.filter fun r => !atMost r.1 (7, 10)
  (similar.mergeSort fun r s => atMost r.1 s.1).map (·.2)

end CodeSurvey.Text
