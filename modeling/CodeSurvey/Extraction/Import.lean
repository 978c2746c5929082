import CodeSurvey.Extraction.Literal
import CodeSurvey.Records.Declaration
import CodeSurvey.Syntax.Site

/-! # Imports

Every import statement with a module to import from gets a record. -/

namespace CodeSurvey.ImportRecord

/-- The text of a name; of a string literal what stands between the quotes. -/
def nameText (t : Tree) (n : Node) : String :=
  if n.kind = "string" then String.ofList (Literal.inside (t.text n).toList) else t.text n

/-- The names that a binding of an import clause binds. -/
def namesOf (t : Tree) (binding : Node) : List String :=
  match binding.kind with
  | "identifier" => [t.text binding]
  | "namespace_import" =>
    ((binding.namedChildren.find? (·.kind == "identifier")).map t.text).toList
  | "named_imports" =>
    (binding.namedChildren.filter (·.kind == "import_specifier")).filterMap fun s =>
      ((s.part? "alias").or (s.part? "name")).map (nameText t)
  | _ => []

/-- The bindings of an import statement. -/
def bindings (statement : Node) : List Node :=
  match statement.namedChildren.find? (·.kind == "import_clause") with
  | none => []
  | some clause => clause.namedChildren

/-- The records of an import statement: one for the module that it names. -/
def ofStatement (t : Tree) (statement : Node) : List ImportRecord :=
  if statement.kind = "import_statement" then
    (statement.namedChildren.filter fun c => c.field == some "source" && c.kind == "string").map
      fun source =>
        { source := nameText t source
          names := (bindings statement).flatMap (namesOf t)
          isDefault := (bindings statement).any (·.kind == "identifier") }
  else []

/-- The imports of a source. -/
def ofTree (t : Tree) : List ImportRecord := t.root.descendants.flatMap (ofStatement t)

end CodeSurvey.ImportRecord
