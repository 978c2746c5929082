import CodeSurvey.Glob.Pattern

/-! # Reading globs

`Glob.parse` reads a glob from a text.  Besides `?`, `*`, sets between square brackets
and choices between braces there is `**`, which stands for directories: where it is a
whole component it takes the slashes around it along.  A backslash takes away the
meaning of the character after it. -/

namespace CodeSurvey

/-- What is wrong with a glob. -/
inductive GlobProblem where
  | unclosedSet
  | emptyRange (low high : Char)
  | unopenedChoice
  | unclosedChoice
  | danglingEscape
deriving DecidableEq, Repr, Inhabited

/-- The wording of a problem. -/
def GlobProblem.message : GlobProblem → String
  | unclosedSet => "unclosed character class; missing ']'"
  | emptyRange low high =>
    "invalid range; '" ++ low.toString ++ "' > '" ++ high.toString ++ "'"
  | unopenedChoice =>
    "unopened alternate group; missing '\x7b' (maybe escape '\x7d' with '[\x7d]'?)"
  | unclosedChoice =>
    "unclosed alternate group; missing '\x7d' (maybe escape '\x7b' with '[\x7b]'?)"
  | danglingEscape => "dangling '\\'"

namespace Glob

/-! ### Sets -/

/-- The members of a set that were read, the last first. -/
abbrev Members := List (Char × Char)

/-- End a range with a character. -/
def closeRange (members : Members) (high : Char) : Except GlobProblem Members :=
  match members with
  | (low, _) :: rest => if high < low then .error (.emptyRange low high) else .ok ((low, high) :: rest)
  | [] => .ok [(high, high)]

/-- Read the members of a set.  A closing bracket at the beginning is a member, and so is
a hyphen that has no character on one of its sides; `open_` tells that a hyphen was read
that may make a range. -/
def readMembers (first open_ : Bool) (members : Members) :
    List Char → Except GlobProblem (Members × List Char)
  | [] => .error .unclosedSet
  | c :: rest =>
    if c = ']' ∧ first = false then
      .ok ((if open_ then ('-', '-') :: members else members).reverse, rest)
    else if c = '-' ∧ first = false ∧ open_ = false then readMembers false true members rest
    else if open_ then
      match closeRange members c with
      | .error e => .error e
      | .ok members => readMembers false false members rest
    else readMembers false false ((c, c) :: members) rest

/-- Read a set after its opening bracket. -/
def readSet (cs : List Char) : Except GlobProblem (Piece × List Char) :=
  let negated := cs.head? == some '!' || cs.head? == some '^'
  (readMembers true false [] (if negated then cs.tail else cs)).map fun (members, rest) =>
    (.one negated members, rest)

/-! ### Globs -/

/-- A choice that is being read: the globs before the present one, the last first, and
the pieces of the present one, the last first. -/
structure Branches where
  done : List (List Piece)
  current : List Piece
deriving Inhabited

namespace Branches

/-- No pieces. -/
def none : Branches := ⟨[], []⟩

/-- Add a piece. -/
def push (b : Branches) (p : Piece) : Branches := { b with current := p :: b.current }

/-- Go on to the next glob. -/
def next (b : Branches) : Branches := ⟨b.current.reverse :: b.done, []⟩

/-- The choice. -/
def piece (b : Branches) : Piece := .choice (b.next.done.reverse)

end Branches

/-- What two asterisks say after pieces.  `before` is the character before them, and
`inside` tells that a choice is open.  The result is the pieces with them, and what
follows. -/
def readDirectories (inside : Bool) (before : Option Char) (current : List Piece) (rest : List Char) :
    List Piece × List Char :=
  let plain : List Piece × List Char := (.run :: .run :: current, rest)
  match current with
  | [] =>
    match rest with
    | [] => ([.leading], [])
    | '/' :: more => ([.leading], more)
    | _ => plain
  | last :: earlier =>
    if !(before == some '/' || (inside && (before == some ',' || before == some '\x7b'))) then plain
    else
      let merged (other : Piece) : List Piece :=
        (match last with
          | .leading => .leading
          | .trailing => .trailing
          | _ => other) :: earlier
      match rest with
      | [] => (merged .trailing, [])
      | '/' :: more => (merged .between, more)
      | c :: _ =>
        if inside && (c == ',' || c == '\x7d') then (merged .trailing, rest) else plain

/-- Read pieces.  `outer` holds the choices that are open, the innermost first; `before`
is the character before the text. -/
def readPieces : (fuel : Nat) → (before : Option Char) → (outer : List Branches) → Branches →
    List Char → Except GlobProblem (List Piece)
  | 0, _, _, here, _ => .ok here.current.reverse
  | _ + 1, _, outer, here, [] =>
    if outer.isEmpty then .ok here.current.reverse else .error .unclosedChoice
  | n + 1, before, outer, here, c :: rest =>
    match c with
    | '?' => readPieces n (some c) outer (here.push .any) rest
    | '*' =>
      match rest with
      | '*' :: more =>
        let (current, after) := readDirectories (!outer.isEmpty) before here.current more
        let last := if after.length < more.length then '/' else '*'
        readPieces n (some last) outer { here with current } after
      | _ => readPieces n (some c) outer (here.push .run) rest
    | '[' =>
      match readSet rest with
      | .error e => .error e
      | .ok (piece, rest) => readPieces n (some ']') outer (here.push piece) rest
    | '\x7b' => readPieces n (some c) (here :: outer) .none rest
    | '\x7d' =>
      match outer with
      | [] => .error .unopenedChoice
      | above :: outer => readPieces n (some c) outer (above.push here.piece) rest
    | ',' =>
      if outer.isEmpty then readPieces n (some c) outer (here.push (.literal ',')) rest
      else readPieces n (some c) outer here.next rest
    | '\\' =>
      match rest with
      | [] => .error .danglingEscape
      | d :: rest => readPieces n (some d) outer (here.push (.literal d)) rest
    | _ => readPieces n (some c) outer (here.push (.literal c)) rest

/-- Read a glob. -/
def parse (text : String) : Except GlobProblem Glob :=
  let cs := text.toList
  (readPieces (cs.length + 1) none [] .none cs).map fun pieces => ⟨text, pieces⟩

end Glob

end CodeSurvey
