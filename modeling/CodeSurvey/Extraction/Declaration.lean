import CodeSurvey.Extraction.Description
import CodeSurvey.Extraction.Exported
import CodeSurvey.Extraction.Import
import CodeSurvey.Extraction.Parameter
import CodeSurvey.Records.File

/-! # Reading declarations off a tree

`FileRecord.ofTree` records the functions, classes, interfaces and type aliases of a
source, at any depth and in the order of the text, and its imports. -/

namespace CodeSurvey

/-- Whether a name is private by convention. -/
def isPrivateName (name : String) : Bool := name.startsWith "_" || name.startsWith "#"

/-- Whether a member is marked as private. -/
def isPrivateMember (t : Tree) (n : Node) : Bool :=
  n.namedChildren.any fun c => c.kind == "accessibility_modifier" && t.text c == "private"

/-- The name of a member; a computed or quoted name is none. -/
def memberName? (t : Tree) (n : Node) : Option String :=
  ((n.part? "name").filter fun k =>
    k.kind == "property_identifier" || k.kind == "private_property_identifier").map t.text

namespace FunctionRecord

/-- The record of a function or method of a given name. -/
def ofSite (t : Tree) (s : Site) (name : String) (isExported isPrivate : Bool) :
    FunctionRecord :=
  { name
    parameters := ParameterRecord.ofDeclaration t s.node
    returnType := TypeText.ofPart? t s.node "return_type"
    description := Description.ofSite? t s
    isExported
    isAsync := s.node.hasWord "async"
    isPrivate }

/-- The record of a function declaration. -/
def ofDeclaration? (t : Tree) (exported : List String) (s : Site) : Option FunctionRecord :=
  if s.node.kind ∈ ["function_declaration", "generator_function_declaration"] then
    (s.node.part? "name").map fun n =>
      let name := t.text n
      ofSite t s name (exported.contains name) (isPrivateName name)
  else none

/-- The record of a member of a class that is a method, but no constructor. -/
def ofMember? (t : Tree) (s : Site) : Option FunctionRecord :=
  if s.node.kind = "method_definition" then
    ((memberName? t s.node).filter (· != "constructor")).map fun name =>
      ofSite t s name true (isPrivateName name || isPrivateMember t s.node)
  else none

end FunctionRecord

namespace PropertyRecord

/-- The record of a member of a class that is a field. -/
def ofMember? (t : Tree) (s : Site) : Option PropertyRecord :=
  if s.node.kind = "public_field_definition" then
    (memberName? t s.node).map fun name =>
      { name
        typeText := TypeText.ofPart? t s.node "type"
        isStatic := s.node.hasWord "static"
        isPrivate := isPrivateName name || isPrivateMember t s.node }
  else none

/-- The record of a member of an interface that is a property with a plain name. -/
def ofSignature? (t : Tree) (n : Node) : Option PropertyRecord :=
  if n.kind = "property_signature" then
    ((n.part? "name").filter (·.kind == "property_identifier")).map fun name =>
      ⟨t.text name, TypeText.ofPart? t n "type", false, false⟩
  else none

end PropertyRecord

namespace ClassRecord

/-- The clauses of a class about other classes and interfaces. -/
def heritage (n : Node) : List Node :=
  match n.namedChildren.find? (·.kind == "class_heritage") with
  | none => []
  | some h => h.namedChildren

/-- The class that a class extends, if a plain name gives it. -/
def base? (t : Tree) (n : Node) : Option String :=
  ((heritage n).filter (·.kind == "extends_clause")).getLast?.bind fun clause =>
    ((clause.part? "value").filter (·.kind == "identifier")).map t.text

/-- The name of an implemented interface, without its arguments. -/
def interfaceName? (t : Tree) (n : Node) : Option String :=
  match n.kind with
  | "type_identifier" => some (t.text n)
  | "generic_type" => ((n.part? "name").filter (·.kind == "type_identifier")).map t.text
  | _ => none

/-- The names of the interfaces that a class implements. -/
def interfaceNames (t : Tree) (n : Node) : List String :=
  ((heritage n).filter (·.kind == "implements_clause")).flatMap fun clause =>
    clause.namedChildren.filterMap (interfaceName? t)

/-- The members of a class. -/
def members (s : Site) : List Site :=
  match s.part? "body" with
  | none => []
  | some body => body.namedChildren

/-- The record of a class declaration. -/
def ofDeclaration? (t : Tree) (exported : List String) (s : Site) : Option ClassRecord :=
  if s.node.kind ∈ ["class_declaration", "abstract_class_declaration"] then
    (s.node.part? "name").map fun n =>
      let name := t.text n
      { name
        methods := (members s).filterMap (FunctionRecord.ofMember? t)
        properties := (members s).filterMap (PropertyRecord.ofMember? t)
        description := Description.ofSite? t s
        isExported := exported.contains name
        base := base? t s.node
        interfaces := match interfaceNames t s.node with
          | [] => none
          | names => some names }
  else none

end ClassRecord

/-- The record of an interface declaration. -/
def InterfaceRecord.ofDeclaration? (t : Tree) (exported : List String) (n : Node) :
    Option InterfaceRecord :=
  if n.kind = "interface_declaration" then
    (n.part? "name").map fun k =>
      let name := t.text k
      let members := ((n.part? "body").map (·.namedChildren)).getD []
      ⟨name, members.filterMap (PropertyRecord.ofSignature? t), exported.contains name⟩
  else none

/-- The record of the declaration of a type alias. -/
def AliasRecord.ofDeclaration? (t : Tree) (exported : List String) (n : Node) :
    Option AliasRecord :=
  if n.kind = "type_alias_declaration" then
    (n.part? "name").map fun k => ⟨t.text k, exported.contains (t.text k)⟩
  else none

/-- The record of a source file. -/
def FileRecord.ofTree (path relativePath : String) (t : Tree) : FileRecord :=
  let exported := Exported.names t
  let sites := t.root.sites
  { path, relativePath
    functions := sites.filterMap (FunctionRecord.ofDeclaration? t exported)
    classes := sites.filterMap (ClassRecord.ofDeclaration? t exported)
    imports := ImportRecord.ofTree t
    interfaces := sites.filterMap fun s => InterfaceRecord.ofDeclaration? t exported s.node
    aliases := sites.filterMap fun s => AliasRecord.ofDeclaration? t exported s.node }

end CodeSurvey
