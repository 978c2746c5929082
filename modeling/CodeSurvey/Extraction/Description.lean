import CodeSurvey.Syntax.Site
import CodeSurvey.Text.Blank

/-! # Descriptions

A declaration is described by the documentation comment right above it, or above the
export of which it is a part.  Decorators may stand in between. -/

namespace CodeSurvey.Description

/-- A text without a given beginning. -/
def dropStart? (beginning : List Char) (cs : List Char) : Option (List Char) :=
  if beginning.isPrefixOf cs then some (cs.drop beginning.length) else none

/-- A text without a given ending. -/
def dropEnd? (ending : List Char) (cs : List Char) : Option (List Char) :=
  if ending.isSuffixOf cs then some (cs.take (cs.length - ending.length)) else none

/-- A line of a comment without the blanks and asterisks around it. -/
def cleanLine (line : List Char) : List Char :=
  Text.trim ((Text.trim line).dropWhile (· == '*'))

/-- The description that a documentation comment gives: its lines up to the first tag,
without empty lines, joined by blanks. -/
def ofComment? (comment : String) : Option String :=
  (dropStart? ['/', '*', '*'] comment.toList).bind fun opened =>
    (dropEnd? ['*', '/'] opened).bind fun body =>
      let lines := ((Text.lines body).map cleanLine).takeWhile (·.head? != some '@')
      match lines.filter (!·.isEmpty) with
      | [] => none
      | kept => some (" ".intercalate (kept.map String.ofList))

/-- The site whose surroundings describe a declaration. -/
def anchor (s : Site) : Site :=
  match s.parent? with
  | some p => if p.node.kind = "export_statement" then p else s
  | none => s

/-- The comment above a declaration, if nothing but decorators and at most one line
break comes between. -/
def comment? (s : Site) : Option Node :=
  let a := anchor s
  let decorators := a.before.takeWhile (·.kind == "decorator")
  let below := decorators.getLast?.getD a.node
  (a.before.drop decorators.length).head?.filter fun c =>
    c.kind == "comment" && below.start.row ≤ c.stop.row + 1

/-- The description of a declaration. -/
def ofSite? (t : Tree) (s : Site) : Option String := (comment? s).bind fun c => ofComment? (t.text c)

end CodeSurvey.Description
