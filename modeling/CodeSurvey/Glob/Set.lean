import CodeSurvey.Glob.Reader

/-! # Sets of globs

Many globs are matched at once by a `GlobSet`.  Globs that are more than a fixed text, a
fixed beginning or an extension are compiled for that into regular expressions.  Those may
not be nested too deeply, and what they are compiled to may not take too much memory:
`GlobSet.ofGlobs` fails if it does, or if one of them is.  How much memory that is, is for
the compiler of the expressions to say (`Glob.Compiler`). -/

namespace CodeSurvey

namespace Glob

/-! ### Regular expressions -/

/-- The characters that have a meaning in regular expressions. -/
def metaCharacters : List Char :=
  ['\\', '.', '+', '*', '?', '(', ')', '|', '[', ']', '\x7b', '\x7d', '^', '$', '#', '&', '-', '~']

/-- A hexadecimal digit. -/
def hexDigit (n : Nat) : Char := Nat.digitChar n

/-- A byte in a regular expression. -/
def byteExpression (b : UInt8) : List Char :=
  if b < 0x80 then
    let c := Char.ofNat b.toNat
    if metaCharacters.contains c then ['\\', c] else [c]
  else ['\\', 'x', hexDigit (b.toNat / 16), hexDigit (b.toNat % 16)]

/-- A character in a regular expression. -/
def characterExpression (c : Char) : List Char := (bytesOf c).flatMap byteExpression

/-- A range in a regular expression. -/
def rangeExpression (r : Char × Char) : List Char :=
  if r.1 = r.2 then characterExpression r.1
  else characterExpression r.1 ++ ['-'] ++ characterExpression r.2

mutual

/-- The regular expression of a piece. -/
def Piece.expression : Piece → List Char
  | .literal c => characterExpression c
  | .any => "[^/]".toList
  | .run => "[^/]*".toList
  | .leading => "(?:/?|.*/)".toList
  | .trailing => "/.*".toList
  | .between => "(?:/|/.*/)".toList
  | .one negated ranges =>
    '[' :: (if negated then ['^'] else []) ++ ranges.flatMap rangeExpression ++ [']']
  | .choice branches =>
    if allEmpty branches then []
    else "(?:".toList ++ ['|'].intercalate (branchExpressions branches) ++ [')']

/-- The regular expression of pieces in order. -/
def expressionOf : List Piece → List Char
  | [] => []
  | p :: ps => p.expression ++ expressionOf ps

/-- The regular expressions of globs that are not empty. -/
def branchExpressions : List (List Piece) → List (List Char)
  | [] => []
  | ps :: more => (if isEmpty ps then [] else [expressionOf ps]) ++ branchExpressions more

end

/-- The regular expression of a glob. -/
def expression (g : Glob) : String :=
  let body := if isAll g.pieces then ".*".toList else expressionOf g.pieces
  "(?-u)^" ++ String.ofList body ++ "$"

/-! ### Nesting -/

/-- The nesting of a sequence of `count` expressions, of which the deepest has the given
nesting: a single one is no sequence. -/
def inSequence (count deepest : Nat) : Nat := if 1 < count then deepest + 1 else deepest

/-- The nesting of a set of bytes. -/
def setNesting (ranges : List (Char × Char)) : Nat :=
  if 1 < (ranges.flatMap byteRanges).length then 2 else 1

mutual

/-- How deeply the regular expression of a piece is nested. -/
def Piece.nesting : Piece → Nat
  | .literal _ => 0
  | .any => 1
  | .run => 2
  | .leading => 4
  | .trailing => 1
  | .between => 4
  | .one _ ranges => setNesting ranges
  | .choice branches =>
      if allEmpty branches then 0
      else 1 + inSequence (countBranches branches) (branchNesting branches)

/-- The number of expressions in the regular expression of a piece. -/
def Piece.width : Piece → Nat
  | .literal c => (bytesOf c).length
  | .trailing => 2
  | .choice branches => if allEmpty branches then 0 else 1
  | _ => 1

/-- The greatest nesting of pieces. -/
def deepest : List Piece → Nat
  | [] => 0
  | p :: ps => max p.nesting (deepest ps)

/-- The number of expressions in the regular expression of pieces in order. -/
def widthOf : List Piece → Nat
  | [] => 0
  | p :: ps => p.width + widthOf ps

/-- The greatest nesting of globs. -/
def branchNesting : List (List Piece) → Nat
  | [] => 0
  | ps :: more => max (inSequence (widthOf ps) (deepest ps)) (branchNesting more)

/-- The number of globs that are not empty. -/
def countBranches : List (List Piece) → Nat
  | [] => 0
  | ps :: more => (if isEmpty ps then 0 else 1) + countBranches more

end

/-- How deeply the regular expression of a glob is nested. -/
def nesting (g : Glob) : Nat := 1 + deepest g.pieces

/-- The greatest nesting that is possible. -/
def mostNesting : Nat := 250

/-! ### Ways of matching -/

/-- The text of pieces that are all literal. -/
def literalText? : List Piece → Option (List Char)
  | [] => some []
  | .literal c :: ps => (literalText? ps).map (c :: ·)
  | _ :: _ => none

/-- Whether pieces are an asterisk, a point and a text without points and slashes. -/
def isExtension : List Piece → Bool
  | .run :: .literal '.' :: ps =>
    match literalText? ps with
    | some cs => !cs.contains '.' && !cs.contains '/'
    | none => false
  | _ => false

/-- Whether a glob needs no regular expression: it is a fixed text, wherever it may
begin, a fixed beginning, or an extension. -/
def isSimple : List Piece → Bool
  | [] => false
  | .leading :: ps => !ps.isEmpty && ((literalText? ps).isSome || isExtension ps)
  | ps =>
    (literalText? ps).isSome
      || match ps.getLast? with
        | some .trailing => (literalText? ps.dropLast).isSome
        | _ => false

/-- Whether the last pieces of a glob are a point and a text without points and slashes. -/
def endsInExtension (ps : List Piece) : Bool :=
  let rec go : List Piece → Bool
    | .literal '.' :: _ => true
    | .literal '/' :: _ => false
    | .literal _ :: ps => go ps
    | _ => false
  go ps.reverse

/-- The length of the texts that spell globs. -/
def textLength (globs : List Glob) : Nat := (globs.flatMap (·.text.toList)).length

/-- What a compiler of regular expressions makes of globs.  What it makes may take ten
mebibytes of memory, and no glob of a few hundred characters comes near that. -/
class Compiler where
  /-- Whether there is memory enough for the regular expressions of globs, compiled
  together. -/
  fits : List Glob → Bool
  fits_of_short : ∀ globs : List Glob, textLength globs ≤ 1000 → fits globs

/-- A compiler without a limit of memory. -/
instance (priority := low) : Compiler where
  fits _ := true
  fits_of_short _ _ := rfl

end Glob

/-- Why globs do not make a set. -/
inductive GlobSetFault where
  /-- A glob with a fixed extension is nested too deeply. -/
  | deepExpression (expression : String)
  /-- A glob with a fixed extension takes too much memory. -/
  | largeExpression (expression : String)
  /-- Of the other globs with a regular expression, that of a number is nested too
  deeply. -/
  | deepNumber (number : Nat)
  /-- The other globs with a regular expression take too much memory together. -/
  | largeSet
deriving DecidableEq, Repr, Inhabited

/-- The wording of a fault. -/
def GlobSetFault.message : GlobSetFault → String
  | deepExpression expression =>
    "error parsing glob '" ++ expression ++ "': error parsing pattern 0"
  | largeExpression expression =>
    "error parsing glob '" ++ expression ++ "': error building NFA"
  | deepNumber number => "error parsing pattern " ++ toString number
  | largeSet => "error building NFA"

/-- Globs that are matched at once. -/
structure GlobSet where
  globs : List Glob
deriving Repr, Inhabited

namespace GlobSet

/-- The set of no globs. -/
def empty : GlobSet := ⟨[]⟩

/-- Whether the regular expression of a glob is nested too deeply. -/
def isDeep (g : Glob) : Bool := Glob.mostNesting < g.nesting

/-- The globs that are compiled into regular expressions: those with a fixed extension, and
the others. -/
def compiled (globs : List Glob) : List Glob × List Glob :=
  (globs.filter fun g => !Glob.isSimple g.pieces).partition fun g => Glob.endsInExtension g.pieces

/-- Why a glob with a fixed extension cannot be compiled, if it cannot. -/
def extendedFault? [Glob.Compiler] (g : Glob) : Option GlobSetFault :=
  if isDeep g then some (.deepExpression g.expression)
  else if !Glob.Compiler.fits [g] then some (.largeExpression g.expression)
  else none

/-- Why other globs cannot be compiled together, if they cannot. -/
def othersFault? [Glob.Compiler] (globs : List Glob) : Option GlobSetFault :=
  match globs.findIdx? isDeep with
  | some n => some (.deepNumber n)
  | none => if !Glob.Compiler.fits globs then some .largeSet else none

/-- Why globs do not make a set, if they do not.  Those with a fixed extension are
compiled one by one, and before the others. -/
def fault? [Glob.Compiler] (globs : List Glob) : Option GlobSetFault :=
  ((compiled globs).1.findSome? extendedFault?).or (othersFault? (compiled globs).2)

/-- The set of globs. -/
def ofGlobs [Glob.Compiler] (globs : List Glob) : Except GlobSetFault GlobSet :=
  match fault? globs with
  | some e => .error e
  | none => .ok ⟨globs⟩

/-- Whether a glob of the set fits a path. -/
def fits (s : GlobSet) (path : String) : Bool := s.globs.any (·.fits path)

end GlobSet

end CodeSurvey
