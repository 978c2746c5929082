import CodeSurvey.Records.Declaration

/-! # Source files

A `FileRecord` holds the declarations of one source file.  `FileRecord.exports` lists
what the file exports, and `FileRecord.withoutPrivate` leaves out what is private. -/

namespace CodeSurvey

/-- Leave out the private methods and properties of a class. -/
def ClassRecord.withoutPrivate (c : ClassRecord) : ClassRecord :=
  { c with
    methods := c.methods.filter fun m => !m.isPrivate
    properties := c.properties.filter fun p => !p.isPrivate }

/-- The declarations of a source file. -/
structure FileRecord where
  path : String
  /-- The path from the root of the survey. -/
  relativePath : String
  functions : List FunctionRecord
  classes : List ClassRecord
  imports : List ImportRecord
  interfaces : List InterfaceRecord
  aliases : List AliasRecord
deriving DecidableEq, Repr, Inhabited

namespace FileRecord

/-- The exported functions, then the exported classes, then the exported interfaces. -/
def exports (f : FileRecord) : List ExportRecord :=
  let functions := (f.functions.filter (·.isExported)).map fun x =>
    ⟨x.name, .function, f.relativePath, x.description⟩
  let classes := (f.classes.filter (·.isExported)).map fun x =>
    ⟨x.name, .classType, f.relativePath, x.description⟩
  let interfaces := (f.interfaces.filter (·.isExported)).map fun x =>
    ⟨x.name, .interface, f.relativePath, none⟩
  functions ++ classes ++ interfaces

/-- The first function of a name. -/
def function? (f : FileRecord) (name : String) : Option FunctionRecord :=
  f.functions.find? (·.name == name)

/-- The first class of a name. -/
def class? (f : FileRecord) (name : String) : Option ClassRecord :=
  f.classes.find? (·.name == name)

/-- The first interface of a name. -/
def interface? (f : FileRecord) (name : String) : Option InterfaceRecord :=
  f.interfaces.find? (·.name == name)

/-- Leave out private functions, and private methods and properties of classes. -/
def withoutPrivate (f : FileRecord) : FileRecord :=
  { f with
    functions := f.functions.filter fun x => !x.isPrivate
    classes := f.classes.map ClassRecord.withoutPrivate }

end FileRecord

end CodeSurvey
