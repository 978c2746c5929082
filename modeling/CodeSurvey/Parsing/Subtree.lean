import CodeSurvey.Parsing.Token

/-! # Subtrees

A subtree is what the parser has made of a stretch of text: a token, a finished
construct, or text that fits no construct.  It carries what the comparison of
different readings needs: its `cost`, which is zero without errors, and its `weight`,
the sum of the weights of the rules in it.

Hidden constructs are subtrees like any others; they disappear only when the tree is
read off. -/

namespace CodeSurvey

/-- What a subtree is. -/
inductive Label where
  | symbol (s : Nat)
  /-- Text that fits no construct. -/
  | error
  /-- A part of such text while it is being collected. -/
  | skipped
deriving DecidableEq, Repr, Inhabited

/-- A subtree.  `padding` is where the blank space before it begins. -/
structure Subtree where
  label : Label
  padding : Nat
  start : Nat
  stop : Nat
  children : List Subtree
  /-- The finished item that built the subtree; none for a token and for an error. -/
  item : Option Nat
  cost : Nat
  weight : Int
  /-- Whether the subtree shows in the tree. -/
  visible : Bool
  /-- How many subtrees show below it. -/
  descendants : Nat
  /-- How many subtrees show directly below it. -/
  parts : Nat
  /-- Whether it may stand between any two tokens. -/
  extra : Bool
  /-- Whether it is a token that the text lacks. -/
  missing : Bool
  /-- Whether it spells a keyword. -/
  keyword : Bool
deriving Inhabited

/-- The costs of errors. -/
structure ErrorCosts where
  recovery : Nat
  missing : Nat
  skippedTree : Nat
  skippedLine : Nat
  skippedByte : Nat

namespace ErrorCosts

/-- A recovery weighs more than a missing token, that more than a skipped one, and that
more than its lines and bytes. -/
def standard : ErrorCosts := ⟨500, 110, 100, 30, 1⟩

end ErrorCosts

namespace Subtree

/-- Whether the subtree is a finished error. -/
def isError (t : Subtree) : Bool := t.label == .error

/-- How many subtrees it adds to the count of a stack: skipped text counts as one. -/
def count (t : Subtree) : Nat :=
  t.descendants + (if t.visible then 1 else 0) + (if t.label == .skipped then 1 else 0)

/-- The number of bytes between two points of a source. -/
def bytesBetween (s : Source) (start stop : Nat) : Nat := (s.place stop).byte - (s.place start).byte

/-- The number of rows between two points of a source. -/
def rowsBetween (s : Source) (start stop : Nat) : Nat := (s.place stop).row - (s.place start).row

/-- A token as a subtree. -/
def ofToken (v : Vocabulary) (t : Token) : Subtree :=
  { label := match t.symbol with
      | some s => .symbol s
      | none => .error
    padding := t.padding, start := t.start, stop := t.stop
    children := [], item := none, cost := 0, weight := 0
    visible := match t.symbol with
      | some s => v.visibility s != .hidden
      | none => true
    descendants := 0, parts := 0
    extra := t.symbol == some v.endSymbol
    missing := false, keyword := t.keyword }

/-- A token that the text lacks at index `i`. -/
def lacking (v : Vocabulary) (symbol i : Nat) : Subtree :=
  { ofToken v ⟨some symbol, i, i, i, false⟩ with
    missing := true
    cost := ErrorCosts.standard.missing + ErrorCosts.standard.recovery }

/-- What a child adds to the cost of the error that it is part of. -/
def skippedCost (c : Subtree) : Nat :=
  if c.extra || (c.isError && c.children.isEmpty) then 0
  else if c.visible then ErrorCosts.standard.skippedTree
  else ErrorCosts.standard.skippedTree * c.parts

/-- The sums over the children of a construct: cost, weight, visible subtrees below and
directly below.  `steps` are the steps of its production; extras take none. -/
def tally : List Subtree → List Step → Nat × Int × Nat × Nat
  | [], _ => (0, 0, 0, 0)
  | c :: rest, steps =>
    let here := if c.extra then none else steps.head?
    let (cost, weight, below, direct) := tally rest (if c.extra then steps else steps.tail)
    let shown := c.visible || (here.bind (·.rename)).isSome
    ((if c.label == .skipped then 0 else c.cost) + cost, c.weight + weight,
      c.descendants + (if shown then 1 else 0) + below,
      (if shown then 1 else c.parts) + direct)

/-- Where the children begin and end; an empty list of children lies at `i`. -/
def extent (i : Nat) : List Subtree → Nat × Nat × Nat
  | [] => (i, i, i)
  | c :: rest => (c.padding, c.start, ((c :: rest).getLast (by simp)).stop)

/-- A finished construct at index `i`. -/
def build (t : ItemTable) (symbol : Nat) (item : Option Nat) (i : Nat) (children : List Subtree) :
    Subtree :=
  let steps := match item with
    | some k => (t.item k).production.steps
    | none => []
  let (cost, weight, descendants, parts) := tally children steps
  let (padding, start, stop) := extent i children
  { label := .symbol symbol, padding, start, stop, children, item, cost, weight
    visible := t.vocabulary.visibility symbol == .named
    descendants, parts, extra := false, missing := false, keyword := false }

/-- Text that fits no construct. -/
def buildError (s : Source) (label : Label) (i : Nat) (children : List Subtree) : Subtree :=
  let (cost, weight, descendants, parts) := tally children []
  let (padding, start, stop) := extent i children
  let costs := ErrorCosts.standard
  let skipped := children.foldl (fun n c => n + skippedCost c) 0
  { label, padding, start, stop, children, item := none
    cost := cost + skipped + costs.recovery + costs.skippedByte * bytesBetween s start stop
      + costs.skippedLine * rowsBetween s start stop
    weight, visible := label == .error, descendants, parts
    extra := false, missing := false, keyword := false }

/-- The place of a label in the order that decides between equal readings: names come
first, then the symbols by number, then errors. -/
def labelRank (l : Language) : Label → Nat
  | .symbol s => if s = l.name then 0 else s + 1
  | .error => 1000000
  | .skipped => 999999

mutual

/-- Compare two readings: by label, then by the number of children, then by the
children in order. -/
def order (l : Language) : Subtree → Subtree → Ordering
  | ⟨la, _, _, _, as, _, _, _, _, _, _, _, _, _⟩, ⟨lb, _, _, _, bs, _, _, _, _, _, _, _, _, _⟩ =>
    (compare (labelRank l la) (labelRank l lb)).then
      ((compare as.length bs.length).then (orderAll l as bs))

/-- Compare two lists of children of one length. -/
def orderAll (l : Language) : List Subtree → List Subtree → Ordering
  | [], _ => .eq
  | _, [] => .eq
  | a :: as, b :: bs =>
    match order l a b with
    | .eq => orderAll l as bs
    | o => o

end

/-- Whether `b` is taken rather than `a` as the reading of the same text: for its lower
cost, else for its higher weight; with errors in both the later is taken, and without
errors the one that comes first in order. -/
def yieldsTo (l : Language) (a b : Subtree) : Bool :=
  if b.cost < a.cost then true
  else if a.cost < b.cost then false
  else if a.weight < b.weight then true
  else if b.weight < a.weight then false
  else if 0 < a.cost then true
  else order l a b == .gt

/-- Whether two subtrees are readings of the same text by the same symbol. -/
def sameReading (a b : Subtree) : Bool :=
  a.label == b.label &&
    ((0 < a.cost && 0 < b.cost) ||
      (a.start - a.padding == b.start - b.padding && a.stop - a.start == b.stop - b.start
        && a.children.length == b.children.length && a.extra == b.extra))

/-- Split off the extras at the end of a list of subtrees. -/
def splitTrailing (ts : List Subtree) : List Subtree × List Subtree :=
  let extras := (ts.reverse.takeWhile (·.extra)).reverse
  (ts.take (ts.length - extras.length), extras)

end Subtree

end CodeSurvey
