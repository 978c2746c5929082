import CodeSurvey.Source

/-! # Regular patterns over glyphs

A lexeme is described by a regular pattern over the glyphs of a source text.
Matching goes by derivatives: `Pattern.step g p` matches what may follow the
glyph `g` in a text that `p` matches.

`Pattern.scan` runs a pattern over a source from a given index and reports two
things: the end of the longest match, if there is one, and how far the pattern
stayed viable, that is, how far some match was still possible.  The second number
tells how much of the text a failed attempt had read. -/

namespace CodeSurvey

/-- A set of glyphs, given by ranges of code points. -/
inductive GlyphSet where
  /-- The characters in the ranges. -/
  | only (ranges : List (Nat × Nat))
  /-- All characters but those in the ranges and NUL, and every junk glyph:
  literals, comments and markup may hold bytes that are no text. -/
  | allBut (ranges : List (Nat × Nat))
  /-- All characters but those in the ranges, and no junk: names are proper text. -/
  | textBut (ranges : List (Nat × Nat))
deriving DecidableEq, Repr, Inhabited, Hashable

namespace GlyphSet

/-- Whether a code point lies in one of the ranges. -/
def covers (ranges : List (Nat × Nat)) (n : Nat) : Bool :=
  ranges.any fun r => r.1 ≤ n && n ≤ r.2

/-- Membership of a glyph. -/
def mem (s : GlyphSet) : Glyph → Bool
  | .char c =>
    match s with
    | .only ranges => covers ranges c.toNat
    | .allBut ranges => c.toNat != 0 && !covers ranges c.toNat
    | .textBut ranges => !covers ranges c.toNat
  | .junk =>
    match s with
    | .allBut _ => true
    | _ => false

/-- The ranges that hold exactly the characters of a list. -/
def points (cs : List Char) : List (Nat × Nat) := cs.map fun c => (c.toNat, c.toNat)

/-- The range from one character to another. -/
def range (a b : Char) : Nat × Nat := (a.toNat, b.toNat)

end GlyphSet

/-- A regular pattern. -/
inductive Pattern where
  | fail
  | empty
  | one (s : GlyphSet)
  | seq (p q : Pattern)
  | alt (p q : Pattern)
  | star (p : Pattern)
deriving DecidableEq, Repr, Inhabited, Hashable

namespace Pattern

/-- Whether the pattern matches the empty text. -/
def nullable : Pattern → Bool
  | fail => false
  | empty => true
  | one _ => false
  | seq p q => p.nullable && q.nullable
  | alt p q => p.nullable || q.nullable
  | star _ => true

/-- Sequence, with the trivial cases simplified. -/
def thenP : Pattern → Pattern → Pattern
  | fail, _ => fail
  | _, fail => fail
  | empty, q => q
  | p, empty => p
  | p, q => seq p q

/-- Alternative, with the trivial cases simplified. -/
def orP : Pattern → Pattern → Pattern
  | fail, q => q
  | p, fail => p
  | p, q => if p = q then p else alt p q

/-- What may follow the glyph `g` in a match of the pattern. -/
def step (g : Glyph) : Pattern → Pattern
  | fail => fail
  | empty => fail
  | one s => if s.mem g then empty else fail
  | seq p q =>
    let first := thenP (p.step g) q
    if p.nullable then orP first (q.step g) else first
  | alt p q => orP (p.step g) (q.step g)
  | star p => thenP (p.step g) (star p)

/-! ### Building patterns -/

/-- Exactly the given text. -/
def text (s : String) : Pattern :=
  s.toList.foldr (fun c p => thenP (one (.only [(c.toNat, c.toNat)])) p) empty

/-- All patterns of a list in order. -/
def inOrder (ps : List Pattern) : Pattern := ps.foldr thenP empty

/-- Any pattern of a list. -/
def anyOf (ps : List Pattern) : Pattern := ps.foldr orP fail

/-- The pattern or nothing. -/
def opt (p : Pattern) : Pattern := orP p empty

/-- One or more times. -/
def plus (p : Pattern) : Pattern := seq p (star p)

/-- At most `n` times. -/
def atMost (p : Pattern) : Nat → Pattern
  | 0 => empty
  | n + 1 => opt (thenP p (atMost p n))

/-- Exactly `n` times. -/
def exactly (p : Pattern) : Nat → Pattern
  | 0 => empty
  | n + 1 => thenP p (exactly p n)

/-- From `n` to `n + m` times. -/
def between (p : Pattern) (n m : Nat) : Pattern := thenP (exactly p n) (atMost p m)

/-- A character of one of the ranges. -/
def ranges (rs : List (Nat × Nat)) : Pattern := one (.only rs)

/-! ### Scanning -/

/-- The outcome of a scan: the end of the longest match, and the index up to which
a match stayed possible. -/
structure Reach where
  matched : Option Nat
  viable : Nat
deriving DecidableEq, Repr, Inhabited

/-- Run a pattern from index `i`; `best` is the longest match seen before. -/
def scanFrom (s : Source) (p : Pattern) (i : Nat) (best : Option Nat) : Reach :=
  let best := if p.nullable then some i else best
  if h : i < s.glyphs.size then
    match p.step s.glyphs[i] with
    | fail => ⟨best, i⟩
    | q => scanFrom s q (i + 1) best
  else ⟨best, i⟩
termination_by s.glyphs.size - i

/-- Run a pattern over the source from index `i`. -/
def scan (p : Pattern) (s : Source) (i : Nat) : Reach := scanFrom s p i none

end Pattern

end CodeSurvey
