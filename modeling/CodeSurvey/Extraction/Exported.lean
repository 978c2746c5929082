import CodeSurvey.Syntax.Site

/-! # Exported names

A name is exported by a statement that declares it after the word `export`.  Default
exports, export lists, and exported interfaces and types export no name here. -/

namespace CodeSurvey.Exported

/-- The kinds of declarations of functions and classes. -/
def namedKinds : List String :=
  ["function_declaration", "generator_function_declaration", "class_declaration",
    "abstract_class_declaration"]

/-- The kinds of declarations of variables. -/
def variableKinds : List String := ["lexical_declaration", "variable_declaration"]

/-- The names that a declaration binds; of the variables only those that are bound by a
plain name. -/
def namesOf (t : Tree) (declaration : Node) : List String :=
  if declaration.kind ∈ namedKinds then ((declaration.part? "name").map t.text).toList
  else if declaration.kind ∈ variableKinds then
    (declaration.namedChildren.filter (·.kind == "variable_declarator")).filterMap fun d =>
      ((d.part? "name").filter (·.kind == "identifier")).map t.text
  else []

/-- The declarations of an export statement. -/
def declarationsOf (statement : Node) : List Node :=
  if statement.kind = "export_statement" ∧ !statement.hasWord "default" then
    statement.namedChildren.filter (·.field == some "declaration")
  else []

/-- The names that a source exports. -/
def names (t : Tree) : List String :=
  (t.root.descendants.flatMap declarationsOf).flatMap (namesOf t)

end CodeSurvey.Exported
