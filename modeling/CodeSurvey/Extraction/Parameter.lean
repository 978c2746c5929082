import CodeSurvey.Extraction.Literal
import CodeSurvey.Extraction.TypeText
import CodeSurvey.Records.Declaration

/-! # Parameters

Every parameter of a declaration gets a record.  A parameter that binds no plain name is
recorded as a placeholder, without a type and a default. -/

namespace CodeSurvey

/-- The text of a default value that is a simple literal or a name; of a string literal
the decoded value in double quotes. -/
def defaultText? (t : Tree) (value : Node) : Option String :=
  let text := t.text value
  match value.kind with
  | "string" =>
    some ("\"" ++ String.ofList (Literal.unescape (Literal.inside text.toList)) ++ "\"")
  | "number" => some (Literal.numberText text)
  | "true" | "false" | "identifier" | "undefined" => some text
  | "null" => some "null"
  | _ => none

namespace ParameterRecord

/-- The record of a parameter that binds no plain name. -/
def placeholder : ParameterRecord := ⟨"param", none, false, none⟩

/-- The kinds of declared parameters. -/
def kinds : List String := ["required_parameter", "optional_parameter"]

/-- The record of a parameter. -/
def ofNode (t : Tree) (p : Node) : ParameterRecord :=
  let typeText := TypeText.ofPart? t p "type"
  let value := p.part? "value"
  match (p.part? "pattern").filter fun _ => p.kind ∈ kinds with
  | none => placeholder
  | some pattern =>
    if pattern.kind ∈ ["identifier", "this"] then
      { name := t.text pattern
        typeText
        isOptional := value.isSome || p.kind == "optional_parameter"
        defaultText := value.bind (defaultText? t) }
    else if pattern.kind = "rest_pattern" ∧ value.isNone then
      match pattern.namedChildren.head?.filter (·.kind == "identifier") with
      | some name => ⟨"..." ++ t.text name, typeText, false, none⟩
      | none => placeholder
    else placeholder

/-- The records of the parameters of a declaration. -/
def ofDeclaration (t : Tree) (n : Node) : List ParameterRecord :=
  match n.part? "parameters" with
  | none => []
  | some ps => ps.constituents.map (ofNode t)

end ParameterRecord

end CodeSurvey
