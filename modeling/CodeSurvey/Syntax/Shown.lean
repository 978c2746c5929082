import CodeSurvey.Parsing.Subtree
import CodeSurvey.Syntax.Node

/-! # Reading off the tree

The parser's subtrees hold hidden constructs and repetitions.  In the tree their
children take their place.  A part that a hidden construct plays goes over to the
first of them. -/

namespace CodeSurvey
namespace Subtree

/-- The kind of a subtree, and whether it is named. -/
def shownKind (v : Vocabulary) (label : Label) (rename : Option Rename) : String × Bool :=
  match rename, label with
  | some r, _ => (r.kind, r.named)
  | none, .symbol s => (v.nameOf s, v.visibility s == .named)
  | none, _ => (Node.errorKind, true)

/-- Let the first node of a list play a part. -/
def givePart (field : String) : List Node → List Node
  | [] => []
  | n :: rest => { n with field := some field } :: rest

mutual

/-- The nodes of a subtree, before those of `rest`. -/
def shown (l : Language) (s : Source) (rename : Option Rename) (field : Option String) :
    Subtree → List Node → List Node
  | ⟨label, _, start, stop, children, item, cost, _, visible, _, _, _, missing, _⟩, rest =>
    let steps := match item with
      | some k => (l.table.item k).production.steps
      | none => []
    if visible || rename.isSome then
      let (kind, named) := shownKind l.vocabulary label rename
      { kind, named, field, start := s.place start, stop := s.place stop, missing
        faulty := decide (0 < cost), children := shownAll l s steps children [] } :: rest
    else
      match field with
      | none => shownAll l s steps children rest
      | some f => givePart f (shownAll l s steps children []) ++ rest

/-- The nodes of the children of a production, before those of `rest`; extras take no
step. -/
def shownAll (l : Language) (s : Source) : List Step → List Subtree → List Node → List Node
  | _, [], rest => rest
  | steps, c :: cs, rest =>
    if c.extra then shown l s none none c (shownAll l s steps cs rest)
    else
      let step := steps.head?
      shown l s (step.bind (·.rename)) (step.bind (·.field)) c (shownAll l s steps.tail cs rest)

end

/-- The tree of a whole source. -/
def toTree (l : Language) (s : Source) (t : Subtree) : Tree :=
  ⟨s, (shown l s none none { t with visible := true } []).headD default⟩

end Subtree
end CodeSurvey
