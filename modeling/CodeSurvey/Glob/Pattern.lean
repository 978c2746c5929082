/-! # Glob patterns

A glob is a pattern of paths.  It is matched against the bytes of a path, of which the
slash is the only one that stands out; what a set of characters or a question mark
matches is a single byte.  `Glob.fits` keeps the list of all texts that may remain,
so that its work grows with the square of the path's length at most. -/

namespace CodeSurvey

namespace Glob

/-- A part of a glob. -/
inductive Piece where
  | literal (c : Char)
  /-- One byte, but no slash. -/
  | any
  /-- Any bytes, but no slash. -/
  | run
  /-- Nothing or directories, at the beginning of a path. -/
  | leading
  /-- All that is below a directory. -/
  | trailing
  /-- A slash, or directories between slashes. -/
  | between
  /-- One byte of a set, or one that is not in it. -/
  | one (negated : Bool) (ranges : List (Char × Char))
  /-- One of several globs; those that are empty do not count. -/
  | choice (branches : List (List Piece))
deriving Repr, Inhabited

/-- The byte of the slash. -/
def slash : UInt8 := 47

/-- The bytes of a character. -/
def bytesOf (c : Char) : List UInt8 := String.utf8EncodeChar c

/-- The ranges of bytes that a range of characters stands for: of its two characters the
last byte of the first and the first byte of the second make a range. -/
def byteRanges (r : Char × Char) : List (UInt8 × UInt8) :=
  let single (b : UInt8) : UInt8 × UInt8 := (b, b)
  let low := bytesOf r.1
  let high := bytesOf r.2
  if r.1 = r.2 then low.map single
  else
    low.dropLast.map single ++ [(low.getLast?.getD 0, high.headD 0)] ++ high.tail.map single

/-- Whether a byte is in one of the ranges. -/
def inRanges (ranges : List (Char × Char)) (b : UInt8) : Bool :=
  (ranges.flatMap byteRanges).any fun r => r.1 ≤ b && b ≤ r.2

/-- A text after a byte that fits. -/
def afterByte (p : UInt8 → Bool) : List UInt8 → Option (List UInt8)
  | b :: rest => if p b then some rest else none
  | [] => none

/-- The texts after any number of bytes that fit. -/
def afterBytes (p : UInt8 → Bool) : List UInt8 → List (List UInt8)
  | b :: rest => (b :: rest) :: (if p b then afterBytes p rest else [])
  | [] => [[]]

/-- The texts after any number of bytes and a slash. -/
def afterSlashes : List UInt8 → List (List UInt8)
  | b :: rest => if b = slash then rest :: afterSlashes rest else afterSlashes rest
  | [] => []

/-- A text after a slash. -/
def afterSlash (s : List UInt8) : List (List UInt8) := (afterByte (· == slash) s).toList

/-- A text after some other text. -/
def afterText : List UInt8 → List UInt8 → Option (List UInt8)
  | [], s => some s
  | a :: as, b :: rest => if a = b then afterText as rest else none
  | _ :: _, [] => none

mutual

/-- What may remain of a text after a piece. -/
def Piece.after : Piece → List UInt8 → List (List UInt8)
  | .literal c, s => (afterText (bytesOf c) s).toList
  | .any, s => (afterByte (· != slash) s).toList
  | .run, s => afterBytes (· != slash) s
  | .leading, s => s :: afterSlashes s
  | .trailing, s => (afterSlash s).flatMap (afterBytes fun _ => true)
  | .between, s => (afterSlash s).flatMap fun s => s :: afterSlashes s
  | .one negated ranges, s => (afterByte (fun b => inRanges ranges b != negated) s).toList
  | .choice branches, s => if allEmpty branches then [s] else afterAny branches s

/-- What may remain of one of several texts after pieces in order. -/
def afterAll : List Piece → List (List UInt8) → List (List UInt8)
  | [], ss => ss
  | p :: ps, ss => afterAll ps (ss.flatMap p.after).eraseDups

/-- What may remain of a text after one of several globs that are not empty. -/
def afterAny : List (List Piece) → List UInt8 → List (List UInt8)
  | [], _ => []
  | ps :: more, s => (if isEmpty ps then [] else afterAll ps [s]) ++ afterAny more s

/-- Whether a glob says nothing: it holds only choices without a glob that is not
empty. -/
def isEmpty : List Piece → Bool
  | [] => true
  | p :: ps => p.isEmpty && isEmpty ps

/-- Whether a piece says nothing. -/
def Piece.isEmpty : Piece → Bool
  | .choice branches => allEmpty branches
  | _ => false

/-- Whether globs say nothing. -/
def allEmpty : List (List Piece) → Bool
  | [] => true
  | ps :: more => isEmpty ps && allEmpty more

end

end Glob

/-- A glob, with the text that spells it. -/
structure Glob where
  text : String
  pieces : List Glob.Piece
deriving Repr, Inhabited

namespace Glob

/-- Whether a glob is but a leading piece; such a glob fits every path. -/
def isAll : List Piece → Bool
  | [.leading] => true
  | _ => false

/-- Whether a glob fits a path. -/
def fits (g : Glob) (path : String) : Bool :=
  isAll g.pieces || (afterAll g.pieces [path.toUTF8.data.toList]).contains []

end Glob

end CodeSurvey
