import CodeSurvey.Records.Encoding

/-! # Records from JSON

`Codebase.ofJson` reads what `Codebase.toJson` writes.  Each record has a `Form` with
its fields in the order in which they are written. -/

namespace CodeSurvey

open Json Json.Form

namespace Json

/-- A field that may be lacking or null. -/
def optional {α : Type} (name : String) (decode : Json → Decoded α) : Form (Option α) :=
  field name (decodeOption decode) (some none)

/-- Read a dictionary of texts. -/
def decodeDict : Json → Decoded (Dict String)
  | .object fields => (decodeEntries fields).map Dict.ofList
  | v => .error (.wrongType v "a map")

end Json

/-- The fields of a parameter. -/
def ParameterRecord.form : Form ParameterRecord :=
  (Form.pure ParameterRecord.mk).with_ (required "name" decodeString)
    |>.with_ (optional "type" decodeString)
    |>.with_ (required "isOptional" decodeBool)
    |>.with_ (optional "defaultValue" decodeString)

/-- The fields of a function. -/
def FunctionRecord.form : Form FunctionRecord :=
  (Form.pure FunctionRecord.mk).with_ (required "name" decodeString)
    |>.with_ (required "params" (decodeList (ParameterRecord.form.decode "struct ParamInfo")))
    |>.with_ (optional "returnType" decodeString)
    |>.with_ (optional "description" decodeString)
    |>.with_ (required "isExported" decodeBool)
    |>.with_ (required "isAsync" decodeBool)
    |>.with_ (required "isPrivate" decodeBool)

/-- Read a function. -/
def FunctionRecord.ofJson : Json → Decoded FunctionRecord :=
  FunctionRecord.form.decode "struct FunctionInfo"

/-- The fields of a property. -/
def PropertyRecord.form : Form PropertyRecord :=
  (Form.pure PropertyRecord.mk).with_ (required "name" decodeString)
    |>.with_ (optional "type" decodeString)
    |>.with_ (required "isStatic" decodeBool)
    |>.with_ (required "isPrivate" decodeBool)

/-- Read a property. -/
def PropertyRecord.ofJson : Json → Decoded PropertyRecord :=
  PropertyRecord.form.decode "struct PropertyInfo"

/-- The fields of a class. -/
def ClassRecord.form : Form ClassRecord :=
  (Form.pure ClassRecord.mk).with_ (required "name" decodeString)
    |>.with_ (required "methods" (decodeList FunctionRecord.ofJson))
    |>.with_ (required "properties" (decodeList PropertyRecord.ofJson))
    |>.with_ (optional "description" decodeString)
    |>.with_ (required "isExported" decodeBool)
    |>.with_ (optional "extends" decodeString)
    |>.with_ (optional "implements" (decodeList decodeString))

/-- The fields of an interface. -/
def InterfaceRecord.form : Form InterfaceRecord :=
  (Form.pure InterfaceRecord.mk).with_ (required "name" decodeString)
    |>.with_ (required "properties" (decodeList PropertyRecord.ofJson))
    |>.with_ (required "isExported" decodeBool)

/-- The fields of a type alias. -/
def AliasRecord.form : Form AliasRecord :=
  (Form.pure AliasRecord.mk).with_ (required "name" decodeString)
    |>.with_ (required "isExported" decodeBool)

/-- The fields of an import. -/
def ImportRecord.form : Form ImportRecord :=
  (Form.pure ImportRecord.mk).with_ (required "source" decodeString)
    |>.with_ (required "specifiers" (decodeList decodeString))
    |>.with_ (required "isDefault" decodeBool)

/-- The kinds of exports by their words. -/
def ExportKind.words : List (String × ExportKind) :=
  [.function, .classType, .constant, .interface, .type].map fun k => (k.word, k)

/-- The fields of an export. -/
def ExportRecord.form : Form ExportRecord :=
  (Form.pure ExportRecord.mk).with_ (required "name" decodeString)
    |>.with_ (required "type" (decodeWord ExportKind.words))
    |>.with_ (required "file" decodeString)
    |>.with_ (optional "description" decodeString)

/-- The fields of a file. -/
def FileRecord.form : Form FileRecord :=
  (Form.pure FileRecord.mk).with_ (required "path" decodeString)
    |>.with_ (required "relativePath" decodeString)
    |>.with_ (required "functions" (decodeList FunctionRecord.ofJson))
    |>.with_ (required "classes" (decodeList (ClassRecord.form.decode "struct ClassInfo")))
    |>.with_ (required "imports" (decodeList (ImportRecord.form.decode "struct ImportInfo")))
    |>.with_ (required "interfaces"
      (decodeList (InterfaceRecord.form.decode "struct InterfaceInfo")))
    |>.with_ (required "types" (decodeList (AliasRecord.form.decode "struct TypeInfo")))

/-- The fields of dependencies. -/
def Dependencies.form : Form Dependencies :=
  (Form.pure Dependencies.mk).with_ (required "production" decodeDict)
    |>.with_ (required "dev" decodeDict)
    |>.with_ (required "peer" decodeDict)

/-- The categories of frameworks by their words. -/
def FrameworkCategory.words : List (String × FrameworkCategory) :=
  [.frontend, .backend, .testing, .build, .utility].map fun c => (c.word, c)

/-- The fields of a framework. -/
def DetectedFramework.form : Form DetectedFramework :=
  (Form.pure DetectedFramework.mk).with_ (required "name" decodeString)
    |>.with_ (optional "version" decodeString)
    |>.with_ (required "category" (decodeWord FrameworkCategory.words))
    |>.with_ (required "confidence" decodeReal)

/-- The fields of a package. -/
def PackageRecord.form : Form PackageRecord :=
  (Form.pure PackageRecord.mk).with_ (required "name" decodeString)
    |>.with_ (required "version" decodeString)
    |>.with_ (optional "description" decodeString)
    |>.with_ (optional "license" decodeString)
    |>.with_ (optional "author" decodeString)
    |>.with_ (optional "repository" decodeString)
    |>.with_ (optional "homepage" decodeString)
    |>.with_ (optional "keywords" (decodeList decodeString))
    |>.with_ (optional "main" decodeString)
    |>.with_ (optional "bin" decodeDict)
    |>.with_ (optional "scripts" decodeDict)
    |>.with_ (optional "private" decodeBool)

/-- The fields of a codebase. -/
def Codebase.form : Form Codebase :=
  (Form.pure Codebase.mk).with_
      (required "files" (decodeList (FileRecord.form.decode "struct ParsedFile")))
    |>.with_ (required "dependencies" (Dependencies.form.decode "struct DependencyInfo"))
    |>.with_ (required "exports" (decodeList (ExportRecord.form.decode "struct ExportInfo")))
    |>.with_ (required "frameworks"
      (decodeList (DetectedFramework.form.decode "struct FrameworkInfo")))
    |>.with_ (optional "packageInfo" (PackageRecord.form.decode "struct PackageInfo"))

/-- Read a codebase. -/
def Codebase.ofJson : Json → Decoded Codebase := Codebase.form.decode "struct CodeStructure"

end CodeSurvey
