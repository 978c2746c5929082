import CodeSurvey.Memo
import CodeSurvey.Parsing.Stacks

/-! # The run of the parser

All stacks advance side by side, each by one token at a time; where a cell of the
automaton holds several actions, a stack splits.  After every round the stacks are
compared, merged and pruned (`condense`).  If no stack can read its token, the best of
them recovers from the error: it supplies a missing token, goes back to a state that
can read the token and makes an error of what lies between, or skips the token.

A run ends with the finished reading of the lowest cost.  It never fails: text that
fits nothing becomes one error.

All loops are bounded by fuel that a text cannot use up (`Run.fuel`). -/

namespace CodeSurvey

/-- The rows of a language that are known. -/
abbrev Language.Rows (l : Language) := Table l.row

/-- How far a run has come. -/
structure Run where
  graph : Stacks
  finished : Option Subtree
  /-- How many readings have been finished. -/
  accepted : Nat

/-- A step of a run over a source. -/
abbrev Parse (l : Language) := ReaderT Source (StateT Run (Memo l.Rows))

namespace Parse

variable {l : Language}

/-! ### Access -/

/-- Change the stacks. -/
def onStacks (f : Stacks → Stacks) : Parse l Unit :=
  modify fun r => { r with graph := f r.graph }

/-- Ask the stacks. -/
def ask (f : Stacks → α) : Parse l α := return f (← get).graph

/-- The row of a state. -/
def rowOf (s : State) : Parse l Row := (Table.get l.row s : Memo l.Rows Row)

/-- What a stack does on a token. -/
inductive Move where
  | act (a : Action)
  /-- Read a token that may stand anywhere. -/
  | pass
  /-- Recover from an error. -/
  | recover
deriving DecidableEq

/-- The moves on a token in a state; no token of the language has none. -/
def movesOn (state : Option State) (symbol : Option Nat) : Parse l (List Move) := do
  match state, symbol with
  | none, some t => return if l.isExtra t then [.pass] else [.recover]
  | none, none => return [.recover]
  | some _, none => return []
  | some s, some t =>
    let row ← rowOf s
    let acts := (row.actions.getD t []).map Move.act
    return if l.isExtra t then acts ++ [.pass] else acts

/-- Where a state goes after a symbol, if anywhere. -/
def targetAfter (state : Option State) (symbol : Nat) : Parse l (Option (Option State)) := do
  match state with
  | none => return if l.vocabulary.isTerminal symbol && !l.isExtra symbol then none else some none
  | some s =>
    let row ← rowOf s
    if l.vocabulary.isTerminal symbol then
      match (row.actions.getD symbol []).getLast? with
      | some (.shift n) => return some (some n)
      | some (.shiftAgain n) => return some (some n)
      | _ => return if l.isExtra symbol then some (some s) else none
    else return (row.gotos[symbol]?).map some

/-- The symbol of a token. -/
def symbolOf (t : Subtree) : Option Nat :=
  match t.label with
  | .symbol s => some s
  | _ => none

/-! ### Bounds -/

/-- How many stacks outlast a round. -/
def maxStacks : Nat := 6

/-- How many more there may be within a round. -/
def overflow : Nat := 4

/-- From this product of cost difference and progress on, the worse stack is given up. -/
def maxCostDifference : Nat := 18 * ErrorCosts.standard.skippedTree

/-- Enough fuel for a source: no text needs as many steps. -/
def fuel (s : Source) : Nat := (s.size + 10) * 10000

/-! ### Reductions -/

/-- Merge stack `v` into the first stack before it that has come to the same, leaving
out stack `except`. -/
def mergeEarlier (v except : Nat) : Parse l Bool := do
  let s ← ask id
  match (List.range v).find? fun j => j != except && s.canMerge j v with
  | none => return false
  | some j =>
    modify fun r => { r with graph := (r.graph.merge? j v).getD r.graph }
    return true

/-- Finish the production of an item on stack `v`.  Each way back over its parts gives a
new stack; ways that reach the same vertex give one, with the better reading.  The
answer is the first new stack, if there is one. -/
def reduce (v item : Nat) : Parse l (Option Nat) := do
  let it := l.table.item item
  let initial ← ask (·.heads.size)
  let halted ← ask fun s => s.heads.foldl (fun n h => if h.status.isHalted then n + 1 else n) 0
  let groups ← ask (·.waysOver v it.dot)
  onStacks fun s => groups.foldl (fun s g => s.addAt v g.1) s
  let mut removed := 0
  for (group, k) in groups.zipIdx do
    let w := initial + k - removed
    if maxStacks + overflow + halted < w then
      onStacks (·.remove w)
      removed := removed + 1
    else
      let position ← ask fun s => (s.top w).position
      let readings := group.2.map fun trees =>
        let (children, extras) := Subtree.splitTrailing trees
        (Subtree.build l.table it.owner (some item) position children, extras)
      let best := readings.tail.foldl
        (fun best r => if best.1.yieldsTo l r.1 then r else best)
        (readings.headD (default, []))
      let state ← ask fun s => (s.top w).state
      let target := (← targetAfter state it.owner).getD none
      let tree := { best.1 with weight := best.1.weight + it.production.weight }
      onStacks fun s =>
        best.2.foldl (fun s e => s.push w (some e) target) (s.push w (some tree) target)
      if ← mergeEarlier w v then
        removed := removed + 1
  let count ← ask (·.heads.size)
  return if initial < count then some initial else none

/-! ### Comparing stacks -/

/-- What stacks are compared by. -/
structure Standing where
  cost : Nat
  count : Nat
  weight : Int
  inError : Bool

/-- The outcome of a comparison. -/
inductive Verdict where
  /-- The second is given up. -/
  | first
  | preferFirst
  | neither
  | preferSecond
  /-- The first is given up. -/
  | second
deriving DecidableEq

/-- Compare two stacks: one without an error stands before one with an error; else the
lower cost is better, and much better if progress was made since; else the weight
decides. -/
def Standing.compare (a b : Standing) : Verdict :=
  if !a.inError && b.inError then (if a.cost < b.cost then .first else .preferFirst)
  else if a.inError && !b.inError then (if b.cost < a.cost then .second else .preferSecond)
  else if a.cost < b.cost then
    if maxCostDifference < (b.cost - a.cost) * (1 + a.count) then .first else .preferFirst
  else if b.cost < a.cost then
    if maxCostDifference < (a.cost - b.cost) * (1 + b.count) then .second else .preferSecond
  else if b.weight < a.weight then .preferFirst
  else if a.weight < b.weight then .preferSecond
  else .neither

/-- The standing of a stack. -/
def standing (s : Stacks) (v : Nat) : Standing :=
  let paused := (s.head v).status.isPaused
  { cost := s.errorCost v + if paused then ErrorCosts.standard.skippedTree else 0
    count := s.countSinceError v
    weight := (s.top v).weight
    inError := paused || (s.top v).state.isNone }

/-- Whether a stack with another cost would stand back behind a finished reading or
another stack. -/
def betterExists (v : Nat) (cost : Nat) : Parse l Bool := do
  let r ← get
  if (r.finished.map fun t => decide (t.cost ≤ cost)).getD false then return true
  let s := r.graph
  let mine : Standing :=
    { cost, count := s.countSinceError v, weight := (s.top v).weight, inError := false }
  return (List.range s.heads.size).any fun i =>
    i != v && (s.head i).status.isActive && (s.top v).position ≤ (s.top i).position &&
      match mine.compare (standing s i) with
      | .second => true
      | .preferSecond => s.canMerge i v
      | _ => false

/-! ### The end of the text -/

/-- Finish the readings of stack `v`, which has come to the end of the text.  Extras
before and after the text belong to its tree, and so does the end. -/
def accept (v : Nat) (ending : Subtree) : Parse l Unit := do
  let source ← read
  let ways ← ask (·.wholeWays v)
  for trees in ways do
    let (main, extras) := Subtree.splitTrailing trees
    match main.reverse with
    | [] => pure ()
    | whole :: before =>
      let children := before.reverse ++ whole.children ++ extras ++ [ending]
      let root := match whole.label with
        | .symbol s => Subtree.build l.table s whole.item 0 children
        | label => Subtree.buildError source label 0 children
      modify fun r =>
        { r with
          accepted := r.accepted + 1
          finished := match r.finished with
            | none => some root
            | some t => if t.yieldsTo l root then some root else some t }
  onStacks (·.halt v)

/-! ### Recovery -/

/-- All terminals but the end of the text, names first. -/
def allTokens (l : Language) : List Nat :=
  l.name :: (List.range l.vocabulary.terminalCount).filter fun t =>
    t != l.name && t != l.vocabulary.endSymbol

/-- Do all reductions that are possible on some of the tokens, from stack `start` on,
and report whether one of the stacks can then read one of them.  With `only` set,
stacks that cannot are removed. -/
def allReductions (start : Nat) (tokens : List Nat) (only : Bool) : Parse l Bool := do
  let initial ← ask (·.heads.size)
  let rec loop : Nat → Nat → Nat → Bool → Parse l Bool
    | 0, _, _, can => return can
    | fuel + 1, i, v, can => do
      let count ← ask (·.heads.size)
      if count ≤ v then return can
      let s ← ask id
      match (List.range v).find? fun j => initial ≤ j && s.canMerge j v with
      | some j =>
        modify fun r => { r with graph := (r.graph.merge? j v).getD r.graph }
        loop fuel (i + 1) v can
      | none =>
        let state ← ask fun s => (s.top v).state
        let mut shifts := false
        let mut items : List Nat := []
        for t in tokens do
          for m in ← movesOn state (some t) do
            match m with
            | .recover => shifts := true
            | .act (.shift _) => shifts := true
            | .act (.reduce item) => do
              let table := l.table
              let it := table.item item
              let known := items.any fun j =>
                (table.item j).owner == it.owner && (table.item j).dot == it.dot
              if 0 < it.dot && !known then items := items ++ [item]
            | _ => pure ()
        let mut last : Option Nat := none
        for item in items do
          last := ← reduce v item
        let next := if v = start then count else v + 1
        match shifts, last with
        | true, _ => loop fuel (i + 1) next true
        | false, some w =>
          if i < maxStacks then
            onStacks (·.replace w v)
            loop fuel (i + 1) v can
          else do
            if only then onStacks (·.remove v)
            loop fuel (i + 1) next can
        | false, none =>
          if only then onStacks (·.remove v)
          loop fuel (i + 1) next can
  loop (fuel (← read)) 0 start false

/-- Whether a state can finish something on a token. -/
def canReduce (state : Option State) (symbol : Option Nat) : Parse l Bool := do
  let moves ← movesOn state symbol
  return moves.any fun
    | .act (.reduce _) => true
    | _ => false

/-- Try to supply a missing token on a copy of stack `v`, so that its lookahead can be
read after it.  The first token that helps is taken. -/
def supplyMissing (v : Nat) (lookahead : Nat) : List Nat → Parse l Bool
  | [] => return false
  | t :: rest => do
    let state ← ask fun s => (s.top v).state
    let some (some after) ← targetAfter state t | supplyMissing v lookahead rest
    if some after == state || !(← canReduce (some after) (some lookahead)) then
      supplyMissing v lookahead rest
    else
      let position ← ask fun s => (s.top v).position
      let copy ← ask (·.heads.size)
      onStacks fun s => { s with heads := s.heads.push { s.head v with passed := none } }
      onStacks (·.push copy (some (Subtree.lacking l.vocabulary t position)) (some after))
      let atEnd := lookahead == l.vocabulary.endSymbol
      if ← allReductions copy (if atEnd then allTokens l else [lookahead]) (!atEnd) then
        return true
      else supplyMissing v lookahead rest

/-- Go back over `depth` subtrees to a state, and make an error of them. -/
def recoverTo (v depth : Nat) (goal : Option State) : Parse l Bool := do
  let source ← read
  let initial ← ask (·.heads.size)
  let groups ← ask (·.waysOver v depth)
  onStacks fun s => groups.foldl (fun s g => s.addAt v g.1) s
  let mut found := false
  for (group, k) in groups.zipIdx do
    let w := initial + k
    let state ← ask fun s => (s.top w).state
    if state != goal then
      onStacks (·.halt w)
    else
      let position ← ask fun s => (s.top w).position
      let trees := group.2.headD []
      let link ← ask fun s => (s.top w).links.find? fun e =>
        (e.tree.map (·.isError)).getD false
      let trees ← match link with
        | some ⟨target, some error⟩ =>
          onStacks fun s => s.modifyHead w fun h => { h with top := target }
          pure (error.children ++ trees)
        | _ => pure trees
      let (inner, extras) := Subtree.splitTrailing trees
      if !inner.isEmpty then
        let error := { Subtree.buildError source .error position inner with extra := true }
        onStacks (·.push w (some error) goal)
      onStacks fun s => extras.foldl (fun s e => s.push w (some e) goal) s
      found := true
  return found

/-- Go back to a state recorded before the error that can read the token. -/
def returnToPassed (v : Nat) (lookahead : Subtree) (count cost previous : Nat) :
    List Passed → Parse l Bool
  | [] => return false
  | p :: rest => do
    let source ← read
    let s ← ask id
    let position := (s.top v).position
    let again := returnToPassed v lookahead count cost previous rest
    if p.state.isNone || p.position == position then again
    else if (List.range previous).any fun j =>
        (s.top j).state == p.state && (s.top j).position == position then again
    else
      let costs := ErrorCosts.standard
      let newCost := cost + p.depth * costs.skippedTree
        + Subtree.bytesBetween source p.position position * costs.skippedByte
        + Subtree.rowsBetween source p.position position * costs.skippedLine
      if ← betterExists v newCost then return false
      else if (← movesOn p.state (symbolOf lookahead)).isEmpty then again
      else if ← recoverTo v (if 0 < count then p.depth + 1 else p.depth) p.state then return true
      else again

/-- Recover stack `v` from an error: go back to a state that can read the token, and
also skip the token, unless that is clearly worse. -/
def recover (v : Nat) (lookahead : Subtree) : Parse l Unit := do
  let source ← read
  let previous ← ask (·.heads.size)
  let passed ← ask fun s => (s.head v).passed
  let count ← ask (·.countSinceError v)
  let cost ← ask (·.errorCost v)
  let position ← ask fun s => (s.top v).position
  let returned ← match passed, lookahead.isError with
    | some ps, false => returnToPassed v lookahead count cost previous ps
    | _, _ => pure false
  onStacks fun s =>
    { s with heads := (s.heads.toList.zipIdx.filter fun (h, i) =>
        i < previous || h.status.isActive).toArray.map (·.1) }
  if symbolOf lookahead == some l.vocabulary.endSymbol then
    onStacks (·.push v (some (Subtree.buildError source .error position [])) none)
    accept v lookahead
  else
    let tooMany ← ask fun s => decide (maxStacks < s.heads.size)
    let costs := ErrorCosts.standard
    let newCost := cost + costs.skippedTree
      + Subtree.bytesBetween source lookahead.padding lookahead.stop * costs.skippedByte
      + Subtree.rowsBetween source lookahead.padding lookahead.stop * costs.skippedLine
    if (returned && tooMany) || (← betterExists v newCost) then
      onStacks (·.halt v)
    else
      let isExtra := ((symbolOf lookahead).map l.isExtra).getD false
      let token := { lookahead with extra := lookahead.extra || isExtra }
      let one := Subtree.buildError source .skipped position [token]
      if 0 < count then
        let groups ← ask (·.waysOver v 1)
        match groups with
        | [] => onStacks (·.push v (some one) none)
        | group :: _ =>
          onStacks fun s => s.modifyHead v fun h => { h with top := group.1 }
          let both := group.2.headD [] ++ [one]
          onStacks (·.push v (some (Subtree.buildError source .skipped position both)) none)
      else
        onStacks (·.push v (some one) none)

/-- Handle an error on stack `v`, whose token no stack can read. -/
def handleError (v : Nat) (lookahead : Subtree) : Parse l Unit := do
  let previous ← ask (·.heads.size)
  let _ ← allReductions v (allTokens l) false
  let count ← ask (·.heads.size)
  let mut supplied := false
  for w in v :: (List.range count).filter (previous ≤ ·) do
    if !supplied then
      if let some t := symbolOf lookahead then
        supplied := ← supplyMissing w t (allTokens l)
    onStacks (·.push w none none)
  for _ in List.range (count - previous) do
    modify fun r => { r with graph := (r.graph.merge? v previous).getD r.graph }
  onStacks (·.recordPassed v)
  recover v lookahead

/-! ### Advancing -/

/-- The token that stack `v` reads next. -/
def tokenFor (v : Nat) : Parse l Subtree := do
  let source ← read
  let top ← ask (·.top v)
  let advanced ← ask (·.hasAdvanced v)
  let row ← match top.state with
    | none => pure none
    | some s => some <$> rowOf s
  let mayBeEmpty (t : Nat) : Bool :=
    match row with
    | none => false
    | some r => advanced && !(r.actions.getD t []).isEmpty
  return Subtree.ofToken l.vocabulary (l.nextToken source top.position row mayBeEmpty)

/-- Let stack `v` act on a token.  The reductions of a cell give further stacks; the
last of them goes on in the place of this one, unless it reads the token itself. -/
def act (v : Nat) : Nat → Subtree → List Move → Parse l Unit
  | 0, _, _ => onStacks (·.halt v)
  | fuel + 1, lookahead, moves => do
    let state ← ask fun s => (s.top v).state
    let mut last : Option Nat := none
    let mut reduced := false
    let mut done := false
    for m in moves do
      if !done then
        match m with
        | .act (.shift n) =>
          onStacks (·.push v (some { lookahead with extra := false }) (some n))
          done := true
        | .pass =>
          onStacks (·.push v (some { lookahead with extra := true }) state)
          done := true
        | .act (.shiftAgain _) => pure ()
        | .act (.reduce item) =>
          reduced := true
          if let some w := ← reduce v item then last := some w
        | .act .accept =>
          accept v lookahead
          done := true
        | .recover =>
          recover v lookahead
          done := true
    if done then return
    if let some w := last then
      onStacks (·.replace w v)
      let state ← ask fun s => (s.top v).state
      let moves ← movesOn state (symbolOf lookahead)
      act v fuel lookahead moves
    else if reduced then
      onStacks (·.halt v)
    else
      let asName ←
        if lookahead.keyword && symbolOf lookahead != some l.name then movesOn state (some l.name)
        else pure []
      if asName.isEmpty then
        onStacks fun s => s.modifyHead v fun h =>
          { h with status := .paused lookahead, countAtError := (s.top v).count }
      else
        act v fuel { lookahead with label := .symbol l.name, visible := true } asName

/-- Let stack `v` read one token, or fail on it. -/
def advance (v : Nat) : Parse l Unit := do
  let lookahead ← tokenFor v
  let state ← ask fun s => (s.top v).state
  let moves ← movesOn state (symbolOf lookahead)
  act v (fuel (← read)) lookahead moves

/-! ### Rounds -/

/-- Compare stack `i` with the stacks before it from `j` on.  The answer is the number
of the stack to go on with. -/
def compareFrom : Nat → Nat → Nat → Parse l Nat
  | 0, i, _ => return i + 1
  | fuel + 1, i, j => do
    if i ≤ j then return i + 1
    let s ← ask id
    let mergeInto : Parse l Bool := do
      match s.merge? j i with
      | some merged =>
        modify fun r => { r with graph := merged }
        return true
      | none => return false
    match (standing s j).compare (standing s i) with
    | .first =>
      onStacks (·.remove i)
      return i
    | .second =>
      onStacks (·.remove j)
      compareFrom fuel (i - 1) j
    | .preferSecond =>
      if ← mergeInto then return i
      else
        onStacks fun s =>
          { s with heads := (s.heads.setIfInBounds i (s.head j)).setIfInBounds j (s.head i) }
        compareFrom fuel i (j + 1)
    | _ => if ← mergeInto then return i else compareFrom fuel i (j + 1)

/-- Remove the stacks that were given up, compare the others pair by pair, and return
the least cost of those without an error. -/
def prune : Nat → Nat → Option Nat → Parse l (Option Nat)
  | 0, _, least => return least
  | fuel + 1, i, least => do
    let s ← ask id
    if s.heads.size ≤ i then return least
    if (s.head i).status.isHalted then
      onStacks (·.remove i)
      prune fuel i least
    else
      let mine := standing s i
      let least := if mine.inError then least
        else some (match least with
          | none => mine.cost
          | some c => min c mine.cost)
      let next ← compareFrom (s.heads.size * s.heads.size + 1) i 0
      prune fuel next least

/-- Let the best stack recover if it waits, and remove the other stacks that wait. -/
def wake : Nat → Nat → Bool → Option Nat → Parse l (Option Nat)
  | 0, _, _, least => return least
  | n + 1, i, going, least => do
    let s ← ask id
    match (s.head i).status with
    | .paused lookahead =>
      if !going && (← get).accepted < maxStacks then
        let cost := s.errorCost i
        onStacks fun s => s.modifyHead i fun h => { h with status := .active }
        handleError i lookahead
        wake n (i + 1) true (some cost)
      else
        onStacks (·.remove i)
        wake n i going least
    | _ => wake n (i + 1) true least

/-- Bring the stacks in order after a round. -/
def condense : Parse l (Option Nat) := do
  let least ← prune (fuel (← read)) 0 none
  onStacks (·.truncate maxStacks)
  let count ← ask (·.heads.size)
  wake count 0 false least

/-- Let stack `v` advance until it has come further than the stacks before it. -/
def advanceUntil (v : Nat) : Nat → Nat → Parse l Nat
  | 0, last => return last
  | fuel + 1, last => do
    if ← ask fun s => (s.head v).status.isActive then
      advance v
      let position ← ask fun s => (s.top v).position
      if last < position || (0 < v && position == last) then return position
      else advanceUntil v fuel last
    else return last

/-- Let every stack advance. -/
def advanceAll : Nat → Nat → Nat → Parse l Nat
  | 0, _, last => return last
  | fuel + 1, v, last => do
    if v < (← ask (·.heads.size)) then
      let last ← advanceUntil v (Parse.fuel (← read)) last
      advanceAll fuel (v + 1) last
    else return last

/-- Rounds, until no stack is left or a finished reading is better than all of them. -/
def rounds : Nat → Nat → Parse l Unit
  | 0, _ => return
  | fuel + 1, last => do
    let last ← advanceAll (Parse.fuel (← read)) 0 last
    let going ← ask fun s => !s.heads.isEmpty
    let least ← condense
    let cost := (← get).finished.map (·.cost)
    match cost, least with
    | some _, none => return
    | some c, some m => if c < m then return else if going then rounds fuel last
    | none, _ => if going then rounds fuel last

end Parse

/-- The best reading of a source. -/
def Language.parse (l : Language) (s : Source) : Memo l.Rows Subtree := do
  let (_, r) ← ((Parse.rounds (Parse.fuel s) 0).run s).run ⟨.start l.initial, none, 0⟩
  return r.finished.getD (Subtree.buildError s .error 0 [])

end CodeSurvey
