import CodeSurvey.Json.Form
import CodeSurvey.Records.Codebase

/-! # Records as JSON

Every record has a value in JSON, with its fields in a fixed order.  A field without a
value is left out, so that it differs from an empty text and from an empty list. -/

namespace CodeSurvey

namespace Json

/-- A field that is left out if it has no value. -/
def optionalField {α : Type} (name : String) (encode : α → Json) : Option α → List (String × Json)
  | none => []
  | some a => [(name, encode a)]

/-- A list of texts. -/
def ofStrings (xs : List String) : Json := .array (xs.map .string)

/-- A dictionary of texts. -/
def ofDict (d : Dict String) : Json := .object (d.entries.map fun e => (e.1, .string e.2))

end Json

open Json

namespace ParameterRecord

/-- A parameter in JSON. -/
def toJson (p : ParameterRecord) : Json :=
  .object <|
    [("name", .string p.name)] ++ optionalField "type" .string p.typeText
      ++ [("isOptional", .bool p.isOptional)]
      ++ optionalField "defaultValue" .string p.defaultText

end ParameterRecord

namespace FunctionRecord

/-- A function in JSON. -/
def toJson (f : FunctionRecord) : Json :=
  .object <|
    [("name", .string f.name), ("params", .array (f.parameters.map (·.toJson)))]
      ++ optionalField "returnType" .string f.returnType
      ++ optionalField "description" .string f.description
      ++ [("isExported", .bool f.isExported), ("isAsync", .bool f.isAsync),
        ("isPrivate", .bool f.isPrivate)]

end FunctionRecord

namespace PropertyRecord

/-- A property in JSON. -/
def toJson (p : PropertyRecord) : Json :=
  .object <|
    [("name", .string p.name)] ++ optionalField "type" .string p.typeText
      ++ [("isStatic", .bool p.isStatic), ("isPrivate", .bool p.isPrivate)]

end PropertyRecord

namespace ClassRecord

/-- A class in JSON. -/
def toJson (c : ClassRecord) : Json :=
  .object <|
    [("name", .string c.name), ("methods", .array (c.methods.map (·.toJson))),
      ("properties", .array (c.properties.map (·.toJson)))]
      ++ optionalField "description" .string c.description
      ++ [("isExported", .bool c.isExported)]
      ++ optionalField "extends" .string c.base
      ++ optionalField "implements" ofStrings c.interfaces

end ClassRecord

/-- An interface in JSON. -/
def InterfaceRecord.toJson (i : InterfaceRecord) : Json :=
  .object [("name", .string i.name), ("properties", .array (i.properties.map (·.toJson))),
    ("isExported", .bool i.isExported)]

/-- A type alias in JSON. -/
def AliasRecord.toJson (a : AliasRecord) : Json :=
  .object [("name", .string a.name), ("isExported", .bool a.isExported)]

/-- An import in JSON. -/
def ImportRecord.toJson (i : ImportRecord) : Json :=
  .object [("source", .string i.source), ("specifiers", ofStrings i.names),
    ("isDefault", .bool i.isDefault)]

/-- An export in JSON. -/
def ExportRecord.toJson (e : ExportRecord) : Json :=
  .object <|
    [("name", .string e.name), ("type", .string e.kind.word), ("file", .string e.file)]
      ++ optionalField "description" .string e.description

/-- A file in JSON. -/
def FileRecord.toJson (f : FileRecord) : Json :=
  .object [("path", .string f.path), ("relativePath", .string f.relativePath),
    ("functions", .array (f.functions.map (·.toJson))),
    ("classes", .array (f.classes.map (·.toJson))),
    ("imports", .array (f.imports.map (·.toJson))),
    ("interfaces", .array (f.interfaces.map (·.toJson))),
    ("types", .array (f.aliases.map (·.toJson)))]

/-- Dependencies in JSON. -/
def Dependencies.toJson (d : Dependencies) : Json :=
  .object [("production", ofDict d.production), ("dev", ofDict d.development),
    ("peer", ofDict d.peer)]

/-- A framework in JSON. -/
def DetectedFramework.toJson (f : DetectedFramework) : Json :=
  .object <|
    [("name", .string f.name)] ++ optionalField "version" .string f.version
      ++ [("category", .string f.category.word), ("confidence", .number (.real f.confidence))]

/-- A package in JSON. -/
def PackageRecord.toJson (p : PackageRecord) : Json :=
  .object <|
    [("name", .string p.name), ("version", .string p.version)]
      ++ optionalField "description" .string p.description
      ++ optionalField "license" .string p.license
      ++ optionalField "author" .string p.author
      ++ optionalField "repository" .string p.repository
      ++ optionalField "homepage" .string p.homepage
      ++ optionalField "keywords" ofStrings p.keywords
      ++ optionalField "main" .string p.main
      ++ optionalField "bin" ofDict p.bin
      ++ optionalField "scripts" ofDict p.scripts
      ++ optionalField "private" .bool p.isPrivate

/-- A codebase in JSON. -/
def Codebase.toJson (c : Codebase) : Json :=
  .object <|
    [("files", .array (c.files.map (·.toJson))), ("dependencies", c.dependencies.toJson),
      ("exports", .array (c.exports.map (·.toJson))),
      ("frameworks", .array (c.frameworks.map (·.toJson)))]
      ++ optionalField "packageInfo" PackageRecord.toJson c.package

end CodeSurvey
