import CodeSurvey.Grammar.Production

/-! # Items

An item is a production with a dot in it: the part before the dot has been read, the
part after it is still expected.  Items that expect the same, of the same variable,
and whose read parts show in the same way, are one item here; their number is small
enough for a table.

The table also holds what the construction of parser states needs again and again:

* `first`: the tokens with which a symbol can begin;
* `openings`: for each variable, the items at the start of all productions with which
  a text of that variable can begin, each with the tokens that may follow it. -/

namespace CodeSurvey

open Std (HashMap)

/-! ### Sets of tokens -/

/-- A set of terminals, one bit each. -/
abbrev TokenSet := Nat

namespace TokenSet

/-- The set with one member. -/
def single (t : Nat) : TokenSet := 1 <<< t

/-- Membership. -/
def mem (s : TokenSet) (t : Nat) : Bool := s.testBit t

/-- The members below a bound, in order. -/
def members (s : TokenSet) (bound : Nat) : List Nat := (List.range bound).filter s.mem

end TokenSet

/-! ### The table of items -/

/-- An item. -/
structure Item where
  owner : Nat
  production : Production
  dot : Nat
  /-- The symbol after the dot, if the production goes on. -/
  next : Option Nat
  /-- The symbol after that. -/
  following : Option Nat
  /-- The item with the dot one step further; itself, if it is finished. -/
  advanced : Nat
  /-- The rank of the last step that was read. -/
  rank : Option Rank
  /-- The side of the last step that was read. -/
  side : Option Side
deriving Inhabited

/-- What makes two items the same. -/
structure ItemKey where
  owner : Nat
  dot : Nat
  length : Nat
  weight : Int
  rank : Option Rank
  side : Option Side
  /-- How the read part shows; the symbols count only after a hidden part with fields. -/
  read : List (Option Rename × Option String × Option Nat)
  expected : List Step
deriving BEq, Hashable

/-- The start of a production, the tokens that may follow it, and whether what follows
the whole variable may follow it too. -/
structure Opening where
  item : Nat
  followers : TokenSet
  ends : Bool
deriving Inhabited

/-- A vocabulary with its items. -/
structure ItemTable where
  vocabulary : Vocabulary
  orders : List (List RankEntry)
  items : Array Item
  /-- The item that expects a whole text. -/
  goal : Nat
  first : Array TokenSet
  openings : Array (Array Opening)

namespace ItemTable

/-! ### First tokens -/

/-- One round: add to each variable the first tokens of its productions. -/
def firstRound (v : Vocabulary) (first : Array TokenSet) : Array TokenSet :=
  (List.range v.constructs.size).foldl
    (fun acc i =>
      let all := (v.constructs.getD i default).productions.foldl
        (fun s p =>
          match p.steps with
          | [] => s
          | step :: _ => s ||| acc.getD step.symbol 0)
        (acc.getD (v.terminalCount + i) 0)
      acc.setIfInBounds (v.terminalCount + i) all)
    first

/-- Rounds until nothing changes. -/
def firstFixed (v : Vocabulary) : Nat → Array TokenSet → Array TokenSet
  | 0, first => first
  | n + 1, first =>
    let next := firstRound v first
    if next == first then first else firstFixed v n next

/-- The tokens with which each symbol can begin. -/
def firstSets (v : Vocabulary) : Array TokenSet :=
  let tokens := (Array.range v.terminalCount).map TokenSet.single
  firstFixed v (v.constructs.size + 1) (tokens ++ Array.replicate v.constructs.size 0)

/-! ### Hidden parts with fields -/

/-- Whether a step is a hidden part that holds fields. -/
def stepHidesField (v : Vocabulary) (fielded : Array Bool) (s : Step) : Bool :=
  !v.isTerminal s.symbol && v.visibility s.symbol != .named
    && fielded.getD (s.symbol - v.terminalCount) false

/-- Whether a step gives its parent a field, itself or through its hidden parts. -/
def stepHasField (v : Vocabulary) (fielded : Array Bool) (s : Step) : Bool :=
  s.field.isSome || stepHidesField v fielded s

/-- Rounds until nothing changes. -/
def fieldedFixed (v : Vocabulary) : Nat → Array Bool → Array Bool
  | 0, fielded => fielded
  | n + 1, fielded =>
    let next := v.constructs.map fun x =>
      x.productions.any fun p => p.steps.any (stepHasField v fielded)
    if next == fielded then fielded else fieldedFixed v n next

/-- Which variables hold fields. -/
def fieldedVariables (v : Vocabulary) : Array Bool :=
  fieldedFixed v (v.constructs.size + 1) (v.constructs.map fun _ => false)

/-! ### Numbering the items -/

/-- The items met so far and their numbers. -/
structure Numbered where
  items : Array Item
  known : HashMap ItemKey Nat

/-- Number the items of a production from its end to the dot after `read`.  `inherits`
says whether a hidden part with fields has been read. -/
def numberFrom (v : Vocabulary) (fielded : Array Bool) (owner : Nat) (p : Production)
    (length : Nat) (read : List Step) (inherits : Bool) :
    List Step → Numbered → Nat × Numbered
  | expected, n =>
    let last := read.head?
    let key : ItemKey :=
      { owner, dot := read.length, length, weight := p.weight
        rank := last.bind (·.rank), side := last.bind (·.side)
        read := read.map fun s => (s.rename, s.field, if inherits then some s.symbol else none)
        expected }
    match n.known[key]? with
    | some i => (i, n)
    | none =>
      match expected with
      | [] =>
        let i := n.items.size
        (i, { items := n.items.push
                { owner, production := p, dot := read.length, next := none, following := none
                  advanced := i, rank := key.rank, side := key.side }
              known := n.known.insert key i })
      | s :: rest =>
        let (advanced, n) := numberFrom v fielded owner p length (s :: read)
          (inherits || stepHidesField v fielded s) rest n
        let i := n.items.size
        (i, { items := n.items.push
                { owner, production := p, dot := read.length, next := some s.symbol
                  following := rest.head?.map (·.symbol), advanced
                  rank := key.rank, side := key.side }
              known := n.known.insert key i })

/-! ### Openings -/

/-- What is known about a variable at the beginning of another: the tokens that may
follow it there, and whether it may end the other. -/
abbrev Leading := HashMap Nat (TokenSet × Bool)

/-- Extend `known` by the variables on the list and those with which they begin. -/
def leadingFrom (v : Vocabulary) (first : Array TokenSet) :
    Nat → List (Nat × TokenSet × Bool) → Leading → Leading
  | 0, _, known => known
  | _, [], known => known
  | fuel + 1, (x, followers, ends) :: rest, known =>
    let old := known.getD x (0, false)
    let now := (old.1 ||| followers, old.2 || ends)
    if known.contains x && now == old then leadingFrom v first fuel rest known
    else
      let more := (v.variableOf x).productions.filterMap fun p =>
        match p.steps with
        | [] => none
        | [s] => if v.isTerminal s.symbol then none else some (s.symbol, now.1, ends)
        | s :: t :: _ =>
          if v.isTerminal s.symbol then none else some (s.symbol, first.getD t.symbol 0, false)
      leadingFrom v first fuel (more ++ rest) (known.insert x now)

/-- A bound on the work list that no grammar of ordinary size reaches. -/
def leadingFuel (v : Vocabulary) : Nat := (v.constructs.size + 1) * 10000

/-- The openings of a variable, in the order of the variables. -/
def openingsOf (v : Vocabulary) (first : Array TokenSet) (starts : Array (List Nat)) (i : Nat) :
    Array Opening :=
  let x := v.terminalCount + i
  let known := leadingFrom v first (leadingFuel v) [(x, 0, true)] {}
  (List.range v.constructs.size).foldl
    (fun acc j =>
      match known[v.terminalCount + j]? with
      | none => acc
      | some (followers, ends) =>
        (starts.getD j []).foldl (fun acc item => acc.push ⟨item, followers, ends⟩) acc)
    #[]

/-! ### Building the table -/

/-- The table of a grammar. -/
def ofGrammar (g : Grammar) : ItemTable :=
  let v := Vocabulary.ofGrammar g
  let first := firstSets v
  let fielded := fieldedVariables v
  let whole := v.terminalCount + v.constructs.size
  let start := match g.rules with
    | [] => v.endSymbol
    | entry :: _ => v.number entry.1
  let goalProduction : Production := ⟨[⟨start, none, none, none, none⟩], 0⟩
  let (goal, numbered) :=
    numberFrom v fielded whole goalProduction 1 [] false goalProduction.steps ⟨#[], {}⟩
  let (starts, numbered) := (List.range v.constructs.size).foldl
    (fun (acc : Array (List Nat) × Numbered) i =>
      let (ids, n) := (v.constructs.getD i default).productions.foldl
        (fun (acc : List Nat × Numbered) p =>
          let (id, n) := numberFrom v fielded (v.terminalCount + i) p p.steps.length [] false
            p.steps acc.2
          (id :: acc.1, n))
        ([], acc.2)
      (acc.1.push (distinct ids.reverse), n))
    (#[], numbered)
  { vocabulary := v
    orders := g.orders
    items := numbered.items
    goal
    first
    openings := (Array.range v.constructs.size).map (openingsOf v first starts) }

/-- The item of a number. -/
def item (t : ItemTable) (i : Nat) : Item := t.items.getD i default

/-- The openings of a symbol; a terminal has none. -/
def openingsOfSymbol (t : ItemTable) (s : Nat) : Array Opening :=
  if t.vocabulary.isTerminal s then #[] else t.openings.getD (s - t.vocabulary.terminalCount) #[]

end ItemTable

end CodeSurvey
