import CodeSurvey.Parsing.Subtree

/-! # Stacks that share their parts

Where a text can be read in several ways, the parser follows them side by side, each
on a stack of its own.  The stacks are paths in one graph: a vertex is a state that
was reached at a point of the text, and its links lead back to the vertices before it,
each with the subtree that was read in between.  Two stacks that reach the same state
at the same point with the same cost become one, whose top has several links back. -/

namespace CodeSurvey

/-- A step back in the graph; a link without a subtree marks an error. -/
structure Link where
  target : Nat
  tree : Option Subtree
deriving Inhabited

/-- A state reached at a point; no state is the state after an error. -/
structure Vertex where
  state : Option State
  links : List Link
  position : Nat
  cost : Nat
  weight : Int
  /-- The number of subtrees on the way here. -/
  count : Nat
deriving Inhabited

/-- A state that was passed before an error: at what depth, and where. -/
structure Passed where
  position : Nat
  depth : Nat
  state : Option State
deriving Repr, Inhabited

/-- What a stack is doing. -/
inductive Status where
  | active
  /-- Waiting with a token that it cannot read. -/
  | paused (lookahead : Subtree)
  | halted
deriving Inhabited

/-- A stack: its top, and what it remembers of the last error. -/
structure Head where
  top : Nat
  /-- The count of its top at the last error. -/
  countAtError : Nat
  status : Status
  passed : Option (List Passed)
deriving Inhabited

/-- The graph and the stacks in it. -/
structure Stacks where
  vertices : Array Vertex
  heads : Array Head
deriving Inhabited

namespace Status

/-- Whether the stack can go on. -/
def isActive : Status → Bool
  | active => true
  | _ => false

/-- Whether the stack waits. -/
def isPaused : Status → Bool
  | paused _ => true
  | _ => false

/-- Whether the stack is given up. -/
def isHalted : Status → Bool
  | halted => true
  | _ => false

end Status

namespace Stacks

/-- One stack in the initial state. -/
def start (state : State) : Stacks :=
  ⟨#[⟨some state, [], 0, 0, 0, 0⟩], #[⟨0, 0, .active, none⟩]⟩

/-- The vertex of a number. -/
def vertex (s : Stacks) (i : Nat) : Vertex := s.vertices.getD i default

/-- The stack of a number. -/
def head (s : Stacks) (v : Nat) : Head := s.heads.getD v default

/-- The top of a stack. -/
def top (s : Stacks) (v : Nat) : Vertex := s.vertex (s.head v).top

/-- Change a stack. -/
def modifyHead (s : Stacks) (v : Nat) (f : Head → Head) : Stacks :=
  { s with heads := s.heads.modify v f }

/-- Remove a stack. -/
def remove (s : Stacks) (v : Nat) : Stacks := { s with heads := s.heads.eraseIdxIfInBounds v }

/-- Remove the last of the stacks until `n` are left. -/
def truncate (s : Stacks) (n : Nat) : Stacks := { s with heads := s.heads.take n }

/-- Give up a stack. -/
def halt (s : Stacks) (v : Nat) : Stacks := s.modifyHead v fun h => { h with status := .halted }

/-- The vertex that follows another by a subtree. -/
def Vertex.next (from_ : Vertex) (number : Nat) (tree : Option Subtree) (state : Option State) :
    Vertex :=
  let base : Vertex := { from_ with state, links := [⟨number, tree⟩] }
  match tree with
  | none => base
  | some t =>
    { base with
      position := max from_.position t.stop
      cost := from_.cost + t.cost
      weight := from_.weight + t.weight
      count := from_.count + t.count }

/-- Push a subtree and enter a state; without a subtree this marks an error. -/
def push (s : Stacks) (v : Nat) (tree : Option Subtree) (state : Option State) : Stacks :=
  let number := (s.head v).top
  let next := Vertex.next (s.vertex number) number tree state
  let i := s.vertices.size
  let s := { s with vertices := s.vertices.push next }
  s.modifyHead v fun h =>
    { h with top := i, countAtError := if tree.isNone then next.count else h.countAtError }

/-- A new stack that shares its memory with stack `v` and has another top. -/
def addAt (s : Stacks) (v : Nat) (top : Nat) : Stacks :=
  { s with heads := s.heads.push ⟨top, (s.head v).countAtError, .active, none⟩ }

/-- Put stack `a` in the place of stack `b`; it keeps the record of `b` if it has none. -/
def replace (s : Stacks) (a b : Nat) : Stacks :=
  if a = b then s
  else
    let source := s.head a
    let target := s.head b
    let moved := { source with passed := source.passed <|> target.passed }
    { s with heads := (s.heads.setIfInBounds b moved).eraseIdxIfInBounds a }

/-! ### Ways back -/

/-- A way back: the vertex it has reached, the subtrees passed, the first read first,
and how many of them are no extras. -/
structure Way where
  at_ : Nat
  trees : List Subtree
  depth : Nat
deriving Inhabited

/-- What to do with a way: whether it is complete, and whether it ends here. -/
structure Verdict where
  complete : Bool
  ends : Bool

/-- A bound on the number of ways that are followed at once. -/
def maxWays : Nat := 64

/-- One way a link further. -/
def Way.along (w : Way) (l : Link) : Way :=
  match l.tree with
  | none => ⟨l.target, w.trees, w.depth + 1⟩
  | some t => ⟨l.target, t :: w.trees, if t.extra then w.depth else w.depth + 1⟩

/-- Follow all ways one link further: the complete ones, and those to follow next.  The
first link takes the place of the way; ways along the other links come last. -/
def followOnce (s : Stacks) (judge : Way → Verdict) (ways : List Way) : List Way × List Way :=
  let step (acc : List Way × List Way × List Way × Nat) (w : Way) :=
    let (complete, kept, added, total) := acc
    let verdict := judge w
    let complete := if verdict.complete then w :: complete else complete
    match (s.vertex w.at_).links with
    | [] => (complete, kept, added, total - 1)
    | l :: others =>
      if verdict.ends then (complete, kept, added, total - 1)
      else
        let room := others.take (maxWays - total)
        (complete, w.along l :: kept, (room.map w.along).reverse ++ added, total + room.length)
  let (complete, kept, added, _) := ways.foldl step ([], [], [], ways.length)
  (complete.reverse, kept.reverse ++ added.reverse)

/-- Follow ways until none is left; a way can be no longer than the graph. -/
def follow (s : Stacks) (judge : Way → Verdict) : Nat → List Way → List Way
  | 0, _ => []
  | _, [] => []
  | fuel + 1, ways =>
    let (complete, next) := s.followOnce judge ways
    complete ++ s.follow judge fuel next

/-- All complete ways back from the top of a stack. -/
def waysFrom (s : Stacks) (v : Nat) (judge : Way → Verdict) : List Way :=
  s.follow judge (s.vertices.size + 1) [⟨(s.head v).top, [], 0⟩]

/-- The ways over `n` subtrees that are no extras, grouped by the vertex they reach, in
the order of their first members. -/
def waysOver (s : Stacks) (v n : Nat) : List (Nat × List (List Subtree)) :=
  let ways := s.waysFrom v fun w => if w.depth = n then ⟨true, true⟩ else ⟨false, false⟩
  ways.foldl
    (fun acc w =>
      if acc.any fun g => g.1 == w.at_ then
        acc.map fun g => if g.1 == w.at_ then (g.1, g.2 ++ [w.trees]) else g
      else acc ++ [(w.at_, [w.trees])])
    []

/-- The subtrees of all ways back to the beginning. -/
def wholeWays (s : Stacks) (v : Nat) : List (List Subtree) :=
  (s.waysFrom v fun w => ⟨(s.vertex w.at_).links.isEmpty, false⟩).map (·.trees)

/-! ### Merging -/

/-- Give vertex `i` one more link, unless it has it already.  Where the link reads the
same text by the same symbol as one that is there, and both lead to vertices of the
same state, point and cost, those two are merged instead. -/
def addLink : Nat → Stacks → Nat → Link → Stacks
  | 0, s, _, _ => s
  | fuel + 1, s, i, link =>
    if link.target = i then s
    else
      let here := s.vertex i
      let there := s.vertex link.target
      let weight := there.weight + (link.tree.map (·.weight)).getD 0
      let alike (e : Link) : Bool :=
        match e.tree, link.tree with
        | some a, some b => a.sameReading b
        | none, none => true
        | _, _ => false
      let joins (e : Link) : Bool :=
        let v := s.vertex e.target
        e.target == link.target ||
          (v.state == there.state && v.position == there.position && v.cost == there.cost)
      let setVertex (s : Stacks) (f : Vertex → Vertex) : Stacks :=
        { s with vertices := s.vertices.modify i f }
      match here.links.findIdx? fun e => alike e && joins e with
      | some k =>
        let e := here.links.getD k default
        if e.target = link.target then
          if (e.tree.map (·.weight)).getD 0 < (link.tree.map (·.weight)).getD 0 then
            setVertex s fun v =>
              { v with links := v.links.set k { e with tree := link.tree }, weight }
          else s
        else
          let s := there.links.foldl (fun s l => addLink fuel s e.target l) s
          setVertex s fun v => { v with weight := max v.weight weight }
      | none =>
        if here.links.length = 8 then s
        else
          let count := there.count + (link.tree.map (·.count)).getD 0
          setVertex s fun v =>
            { v with links := v.links ++ [link], count := max v.count count
                     weight := max v.weight weight }

/-- Whether two stacks have come to the same. -/
def canMerge (s : Stacks) (a b : Nat) : Bool :=
  let x := s.top a
  let y := s.top b
  (s.head a).status.isActive && (s.head b).status.isActive && x.state == y.state
    && x.position == y.position && x.cost == y.cost

/-- Merge stack `b` into stack `a`, if they have come to the same. -/
def merge? (s : Stacks) (a b : Nat) : Option Stacks :=
  if s.canMerge a b then
    let target := (s.head a).top
    let s := (s.top b).links.foldl (fun s l => addLink (s.vertices.size + 1) s target l) s
    let merged := s.vertex target
    let s := if merged.state.isNone then
        s.modifyHead a fun h => { h with countAtError := merged.count }
      else s
    some (s.remove b)
  else none

/-! ### Errors of a stack -/

/-- The number of subtrees since the last error. -/
def countSinceError (s : Stacks) (v : Nat) : Nat := (s.top v).count - (s.head v).countAtError

/-- The cost of a stack; one that waits or has just met an error counts a recovery. -/
def errorCost (s : Stacks) (v : Nat) : Nat :=
  let top := s.top v
  let fresh := top.state.isNone && (top.links.head?.map (·.tree.isNone)).getD false
  top.cost + if (s.head v).status.isPaused || fresh then ErrorCosts.standard.recovery else 0

/-- Whether text was read after the last error, from vertex `i` on. -/
def advancedFrom (s : Stacks) (countAtError : Nat) : Nat → Nat → Bool
  | 0, _ => false
  | fuel + 1, i =>
    let here := s.vertex i
    match here.links with
    | ⟨target, some t⟩ :: _ =>
      if t.padding < t.stop then true
      else if countAtError < here.count && t.cost = 0 then
        s.advancedFrom countAtError fuel target
      else false
    | _ => false

/-- Whether a stack has read text since its last error. -/
def hasAdvanced (s : Stacks) (v : Nat) : Bool :=
  (s.top v).cost = 0 ||
    s.advancedFrom (s.head v).countAtError (s.vertices.size + 1) (s.head v).top

/-- How far back the states before an error are recorded. -/
def maxDepth : Nat := 16

/-- The states passed on the ways back, the nearest first, each depth and state once. -/
def passedFrom (s : Stacks) : Nat → List Way → List Passed → List Passed
  | 0, _, seen => seen
  | _, [], seen => seen
  | fuel + 1, ways, seen =>
    let seen := ways.foldl
      (fun (seen : List Passed) w =>
        let v := s.vertex w.at_
        if maxDepth < w.depth then seen
        else if seen.any fun p => p.depth == w.depth && p.state == v.state then seen
        else seen ++ [⟨v.position, w.depth, v.state⟩])
      seen
    let (_, next) := s.followOnce (fun w => ⟨false, decide (maxDepth < w.depth)⟩) ways
    s.passedFrom fuel next seen

/-- Record the states that a stack passed before an error. -/
def recordPassed (s : Stacks) (v : Nat) : Stacks :=
  let passed := s.passedFrom (s.vertices.size + 1) [⟨(s.head v).top, [], 0⟩] []
  s.modifyHead v fun h => { h with passed := some passed }

end Stacks

end CodeSurvey
