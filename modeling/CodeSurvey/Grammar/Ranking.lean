import CodeSurvey.Grammar.Item

/-! # Settling conflicts by rank

Where a parser state allows several actions on one token, the marks of the rules
settle what they can.  Among finished items those of the highest rank stay.  Between
going on and finishing, the higher rank wins; at equal rank the side decides, if all
finished items agree on it.  What is still open after that stays open: the parser
follows every action that is left. -/

namespace CodeSurvey

/-- Whether an entry of an order speaks of an item with this rank and these owners. -/
def RankEntry.covers (e : RankEntry) (rank : Option Rank) (owners : List String) : Bool :=
  match e with
  | .rank name => rank == some (.named name)
  | .construct name => owners.contains name

/-- One side of a comparison: a rank, and the names of the constructs that have it. -/
structure Contender where
  rank : Option Rank
  owners : List String
deriving Inhabited

namespace Contender

/-- Compare by one order, if it names both; the tighter is the greater.  `sawA` and
`sawB` tell whether one of the earlier entries named the first or the second. -/
def compareBy (a b : Contender) : Bool → Bool → List RankEntry → Option Ordering
  | _, _, [] => none
  | sawA, sawB, e :: rest =>
    if e.covers a.rank a.owners then
      if sawB then some .lt else compareBy a b true sawB rest
    else if e.covers b.rank b.owners then
      if sawA then some .gt else compareBy a b sawA true rest
    else compareBy a b sawA sawB rest

/-- The number of a rank that is a number; no rank at all counts as zero. -/
def level? : Option Rank → Option Int
  | none => some 0
  | some (.level n) => some n
  | some (.named _) => none

/-- Compare two contenders: by number if one has a number other than zero, else by the
first order that names both. -/
def compare (orders : List (List RankEntry)) (a b : Contender) : Ordering :=
  let byOrder := (orders.findSome? (compareBy a b false false)).getD .eq
  match level? a.rank, level? b.rank with
  | some m, some n => if m = 0 ∧ n = 0 then byOrder else Ord.compare m n
  | _, _ => byOrder

end Contender

/-- The finished items of one cell that have not been outranked. -/
structure Finishers where
  /-- In the order in which they were met, the last first. -/
  items : List Nat
  /-- The variables of all finished items, outranked or not. -/
  owners : List Nat
  contender : Contender
  left : Bool
  right : Bool
  neither : Bool
deriving Inhabited

namespace Finishers

/-- No finished item. -/
def none : Finishers := ⟨[], [], ⟨.none, []⟩, false, false, false⟩

/-- Take in a finished item, which may be outranked, or outrank those before it. -/
def add (t : ItemTable) (f : Finishers) (i : Nat) : Finishers :=
  let it := t.item i
  let owner := t.vocabulary.nameOf it.owner
  let joined (f : Finishers) : Finishers :=
    { items := i :: f.items
      owners := f.owners
      contender :=
        ⟨it.rank, if f.contender.owners.contains owner then f.contender.owners
          else owner :: f.contender.owners⟩
      left := f.left || it.side == some .left
      right := f.right || it.side == some .right
      neither := f.neither || it.side == .none }
  let f := { f with owners := it.owner :: f.owners }
  if f.items.isEmpty then joined f
  else
    match Contender.compare t.orders ⟨it.rank, [owner]⟩ f.contender with
    | .gt => joined { none with owners := f.owners }
    | .eq => joined f
    | .lt => f

end Finishers

/-- What remains of a conflict between going on and finishing. -/
inductive Settled where
  /-- Only going on. -/
  | goOn
  /-- Only finishing. -/
  | finish
  /-- Both. -/
  | both
  /-- Finishing, and going on only to read further members of a repetition, which
  finishing does as well. -/
  | repetition
deriving DecidableEq, Repr

/-- Settle a conflict on a token between the items that go on with it and the items
that finish before it. -/
def settle (t : ItemTable) (goingOn : List Nat) (f : Finishers) : Settled :=
  let owners := (goingOn.map fun i => (t.item i).owner) ++ f.owners
  let sameRepetition :=
    match owners with
    | [] => false
    | o :: rest => rest.all (· == o) && (t.vocabulary.variableOf o).repetition
  if sameRepetition then .repetition
  else
    let compared := goingOn.map fun i =>
      Contender.compare t.orders ⟨(t.item i).rank, [t.vocabulary.nameOf (t.item i).owner]⟩ f.contender
    let more := compared.contains .gt
    let less := compared.contains .lt
    if more && !less then .goOn
    else if less && !more then .finish
    else if more && less then .both
    else if f.left && !f.right && !f.neither then .finish
    else if f.right && !f.left && !f.neither then .goOn
    else .both

end CodeSurvey
