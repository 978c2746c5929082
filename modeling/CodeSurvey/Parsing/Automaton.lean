import CodeSurvey.Grammar.Ranking
import CodeSurvey.Parsing.Language

/-! # The parser automaton

A state of the parser is a set of items, each with the tokens that may follow it:
what the text read so far may be the beginning of.

`Kernel.outline` says for one state what it does on each token and where it goes after
each variable, and `Language.row` puts that into the form in which the parser uses it.
Rows are worth remembering: a text enters few of the states, and those often. -/

namespace CodeSurvey

open Std (HashMap)

/-- The items of a state that have been read in part, by item number, each with the
tokens that may follow it. -/
abbrev Kernel := Array (Nat × TokenSet)

/-- A state of the parser.  The fingerprint of its kernel tells most states apart. -/
structure State where
  fingerprint : UInt64
  kernel : Kernel
deriving DecidableEq, Repr, Inhabited

instance : Hashable State := ⟨State.fingerprint⟩

/-- The state with a kernel. -/
def State.ofKernel (k : Kernel) : State := ⟨hash k, k⟩

/-- What to do on a token. -/
inductive Action where
  /-- Read the token. -/
  | shift (target : State)
  /-- Read the token as a further member of a repetition; another action of the same
  cell comes to the same. -/
  | shiftAgain (target : State)
  /-- Finish the production of an item. -/
  | reduce (item : Nat)
  /-- The text is complete. -/
  | accept
deriving DecidableEq, Repr, Inhabited

/-- The actions of a state by token, its targets by variable, and the tokens to look
for, keywords left out: they are looked for as names. -/
structure Row where
  actions : Array (List Action)
  gotos : HashMap Nat State
  lexemes : List Nat
deriving Inhabited

/-- What a state does, with its targets as kernels. -/
structure Outline where
  finishers : Array Finishers
  /-- After each symbol the items that go on with it. -/
  successors : List (Nat × Kernel)
  /-- The partly read items that go on, with the tokens that they can go on with. -/
  goingOn : List (Nat × TokenSet)
  /-- The tokens after which the text is complete. -/
  accepts : TokenSet

namespace Kernel

/-- A kernel in its normal order. -/
def ofList (xs : List (Nat × TokenSet)) : Kernel :=
  (xs.mergeSort fun a b => a.1 ≤ b.1).toArray

/-- All items of a state: those of the kernel, and the openings of what they expect. -/
def closure (t : ItemTable) (k : Kernel) : HashMap Nat TokenSet :=
  k.foldl
    (fun acc entry =>
      let it := t.item entry.1
      match it.next with
      | none => acc
      | some s =>
        let after : TokenSet := match it.following with
          | some f => t.first.getD f 0
          | none => entry.2
        (t.openingsOfSymbol s).foldl
          (fun acc o =>
            let followers := if o.ends then o.followers ||| after else o.followers
            acc.alter o.item fun old => some (old.getD 0 ||| followers))
          acc)
    (HashMap.ofList k.toList)

/-- Finished items come in the order of their length, then of their variable. -/
def finishedBefore (t : ItemTable) (a b : Nat × TokenSet) : Bool :=
  let x := t.item a.1
  let y := t.item b.1
  compareLex (compareOn (·.dot)) (compareOn fun it : Item => it.owner) x y
    |>.then (compare x.production.weight y.production.weight)
    |>.then (compare a.1 b.1)
    |>.isLE

/-- The outline of a state. -/
def outline (t : ItemTable) (k : Kernel) : Outline :=
  let count := t.vocabulary.terminalCount
  let all := (closure t k).toList
  let finished := (all.filter fun e => (t.item e.1).next.isNone).mergeSort (finishedBefore t)
  let whole := (t.item t.goal).owner
  let (complete, ordinary) := finished.partition fun e => (t.item e.1).owner == whole
  let finishers := ordinary.foldl
    (fun acc e =>
      (TokenSet.members e.2 count).foldl (fun acc s => acc.modify s fun f => f.add t e.1) acc)
    (Array.replicate count Finishers.none)
  let successors := all.foldl
    (fun (acc : HashMap Nat (HashMap Nat TokenSet)) e =>
      let it := t.item e.1
      match it.next with
      | none => acc
      | some s =>
        acc.alter s fun old => some <|
          (old.getD {}).alter it.advanced fun f => some (f.getD 0 ||| e.2))
    {}
  { finishers
    successors := successors.toList.map fun e => (e.1, ofList e.2.toList)
    goingOn := k.toList.filterMap fun e =>
      let it := t.item e.1
      match it.next with
      | some s => if it.dot = 0 then none else some (e.1, t.first.getD s 0)
      | none => none
    accepts := complete.foldl (fun s e => s ||| e.2) 0 }

end Kernel

/-- The actions of a cell, given the target on its token. -/
def Outline.cell (o : Outline) (t : ItemTable) (token : Nat) (target : Option State) : List Action :=
  let f := o.finishers.getD token Finishers.none
  let reductions := f.items.reverse.map Action.reduce
  let finishing := if o.accepts.mem token then reductions ++ [.accept] else reductions
  match target with
  | none => finishing
  | some n =>
    if reductions.isEmpty then finishing ++ [.shift n]
    else
      let goingOn := (o.goingOn.filter fun e => e.2.mem token).map (·.1)
      match settle t goingOn f with
      | .goOn => [.shift n]
      | .finish => finishing
      | .both => finishing ++ [.shift n]
      | .repetition => finishing ++ [.shiftAgain n]

namespace Language

/-- The tokens to look for in a state with these actions. -/
def lexemesOf (l : Language) (actions : Array (List Action)) : List Nat :=
  let expected := (List.range actions.size).filter fun s => !(actions.getD s []).isEmpty
  let proper := expected.filter fun s => (l.lexeme? s).isSome && !l.isKeyword.getD s false
  let extras := l.extras.filter fun s => (l.lexeme? s).isSome && !proper.contains s
  let named := proper ++ extras
  if expected.any (fun s => l.isKeyword.getD s false) && !named.contains l.name then
    named ++ [l.name]
  else named

/-- The state before any text. -/
def initial (l : Language) : State :=
  .ofKernel #[(l.table.goal, TokenSet.single l.vocabulary.endSymbol)]

/-- The row of a state. -/
def row (l : Language) (s : State) : Row :=
  let o := Kernel.outline l.table s.kernel
  let count := l.vocabulary.terminalCount
  let targets : HashMap Nat State :=
    HashMap.ofList (o.successors.map fun e => (e.1, State.ofKernel e.2))
  let actions := (Array.range count).map fun t => o.cell l.table t targets[t]?
  ⟨actions, targets.filter fun t _ => count ≤ t, l.lexemesOf actions⟩

end Language

end CodeSurvey
