import CodeSurvey.Syntax.Node

/-! # Nodes with their surroundings

A `Site` is a node together with the way to it: its parent, and the siblings before
it.  `Node.sites` lists the named nodes of a tree in pre-order, each before its
children, the children from left to right. -/

namespace CodeSurvey

/-- A node of a tree and the way to it. -/
inductive Site where
  | root (node : Node)
  /-- A child, with the siblings before it, the nearest first. -/
  | child (parent : Site) (before : List Node) (node : Node)
deriving Repr, Inhabited

namespace Site

/-- The node at the site. -/
def node : Site → Node
  | root n => n
  | child _ _ n => n

/-- The site of the parent. -/
def parent? : Site → Option Site
  | root _ => none
  | child p _ _ => some p

/-- The siblings before the node, the nearest first. -/
def before : Site → List Node
  | root _ => []
  | child _ b _ => b

/-- The sites of siblings, after the siblings `before`. -/
def among (parent : Site) (before : List Node) : List Node → List Site
  | [] => []
  | c :: rest => .child parent before c :: among parent (c :: before) rest

/-- The sites of the children. -/
def children (s : Site) : List Site := among s [] s.node.children

/-- The sites of the children that are no plain words or signs. -/
def namedChildren (s : Site) : List Site := s.children.filter (·.node.named)

/-- The site of the child that plays a part. -/
def part? (s : Site) (field : String) : Option Site :=
  s.children.find? fun c => c.node.field == some field

end Site

namespace Node

mutual

/-- The site of a node and those below it. -/
def sitesAt (site : Site) : Node → List Site
  | ⟨_, _, _, _, _, _, _, children⟩ => site :: sitesAmong site [] children

/-- The sites of the named nodes among siblings and below, after the siblings `before`. -/
def sitesAmong (parent : Site) (before : List Node) : List Node → List Site
  | [] => []
  | c :: rest =>
    if c.named then
      sitesAt (.child parent before c) c ++ sitesAmong parent (c :: before) rest
    else sitesAmong parent (c :: before) rest

end

/-- The sites of a node and of the named nodes below it, in pre-order. -/
def sites (n : Node) : List Site := sitesAt (.root n) n

/-- A node and the named nodes below it, in pre-order. -/
def descendants (n : Node) : List Node := n.sites.map (·.node)

end Node

end CodeSurvey
