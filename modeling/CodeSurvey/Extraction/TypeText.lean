import CodeSurvey.Syntax.Node

/-! # Texts of types

A type is recorded by a simple text: a name without its arguments, an element type with
brackets, the members of a union with bars between them.  Parentheses and comments do
not show, and a type of any other shape is `unknown`. -/

namespace CodeSurvey.TypeText

/-- The text of a type that has no simple text. -/
def unknown : String := "unknown"

/-- The built-in types that are recorded by their name. -/
def builtIn : List String :=
  ["string", "number", "boolean", "void", "any", "unknown", "null", "undefined"]

/-- The texts of the members of a type; a type that is no union is its only member. -/
def memberTexts (t : Tree) (n : Node) : List String :=
  match n.kind with
  | "union_type" =>
    n.constituents.attach.flatMap fun ⟨c, h⟩ =>
      have := Node.sizeOf_lt_of_mem_constituents h
      memberTexts t c
  | "predefined_type" => [if t.text n ∈ builtIn then t.text n else unknown]
  | "literal_type" =>
    match n.constituents.head? with
    | some c => [if c.kind ∈ ["null", "undefined"] then c.kind else unknown]
    | none => [unknown]
  | "type_identifier" => [t.text n]
  | "generic_type" =>
    match n.part? "name" with
    | some c => [if c.kind = "type_identifier" then t.text c else unknown]
    | none => [unknown]
  | "array_type" =>
    match h : n.constituents.head? with
    | some c =>
      have := Node.sizeOf_lt_of_mem_constituents (List.mem_of_head? h)
      [" | ".intercalate (memberTexts t c) ++ "[]"]
    | none => [unknown]
  | "function_type" => ["Function"]
  | "parenthesized_type" =>
    match h : n.constituents.head? with
    | some c =>
      have := Node.sizeOf_lt_of_mem_constituents (List.mem_of_head? h)
      [" | ".intercalate (memberTexts t c)]
    | none => [unknown]
  | _ => [unknown]
termination_by sizeOf n

/-- The text of a type. -/
def ofType (t : Tree) (n : Node) : String := " | ".intercalate (memberTexts t n)

/-- The text of the type in an annotation; an annotation that says something else about
its subject than a type is unknown. -/
def annotated (t : Tree) (n : Node) : String :=
  if n.kind = "type_annotation" then (n.constituents.head?.map (ofType t)).getD unknown
  else unknown

/-- The text of the annotation of a node, if it has one. -/
def ofPart? (t : Tree) (n : Node) (field : String) : Option String :=
  (n.part? field).map (annotated t)

end CodeSurvey.TypeText
