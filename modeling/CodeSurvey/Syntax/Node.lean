import CodeSurvey.Source

/-! # Syntax trees

A syntax tree is a source text with the constructs found in it.  A `Node` is one
construct or one token, with the nodes that it consists of in the order of the text.
A node may play a part in its parent, as the name or the body of a declaration does;
`Node.part?` finds it by that part.

Comments may stand between any two nodes.  They play no part, and they are named. -/

namespace CodeSurvey

/-- A construct or token of a source text. -/
structure Node where
  kind : String
  /-- Whether it is a construct or a token of a class, not a plain word or sign. -/
  named : Bool
  /-- The part that it plays in its parent. -/
  field : Option String
  start : Place
  stop : Place
  /-- Whether it is a token that the text lacks. -/
  missing : Bool
  /-- Whether there is an error in it. -/
  faulty : Bool
  children : List Node
deriving Repr, Inhabited

namespace Node

/-- The kind of text that fits no construct. -/
def errorKind : String := "ERROR"

/-- Whether the node is an error itself: text that fits nothing, or a lacking token. -/
def isFault (n : Node) : Bool := n.kind == errorKind || n.missing

/-- The children that are no plain words or signs. -/
def namedChildren (n : Node) : List Node := n.children.filter (·.named)

/-- The named children that are no comments. -/
def constituents (n : Node) : List Node := n.namedChildren.filter (·.kind != "comment")

/-- The child that plays a part. -/
def part? (n : Node) (field : String) : Option Node :=
  n.children.find? fun c => c.field == some field

theorem sizeOf_lt_of_mem_constituents {c n : Node} (h : c ∈ n.constituents) :
    sizeOf c < sizeOf n := by
  have hc : c ∈ n.children := (List.mem_filter.1 (List.mem_filter.1 h).1).1
  have := List.sizeOf_lt_of_mem hc
  cases n
  simp only [Node.mk.sizeOf_spec]
  simp only at this
  omega

/-- Whether a plain word is among the children. -/
def hasWord (n : Node) (word : String) : Bool :=
  n.children.any fun c => !c.named && c.kind == word

end Node

/-- A source text and its outermost construct. -/
structure Tree where
  source : Source
  root : Node

namespace Tree

/-- The text of a node; empty if its bytes are not well-formed. -/
def text (t : Tree) (n : Node) : String := (t.source.slice? n.start.byte n.stop.byte).getD ""

end Tree

end CodeSurvey
