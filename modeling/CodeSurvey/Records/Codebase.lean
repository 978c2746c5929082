import CodeSurvey.Records.File
import CodeSurvey.Records.Package

/-! # Codebases

A `Codebase` is the outcome of a survey. -/

namespace CodeSurvey

/-- What a survey finds out about a codebase. -/
structure Codebase where
  /-- The files that could be read, in the order of their discovery. -/
  files : List FileRecord
  dependencies : Dependencies
  /-- What the files export. -/
  exports : List ExportRecord
  /-- The frameworks in use, the surest first. -/
  frameworks : List DetectedFramework
  package : Option PackageRecord
deriving DecidableEq, Repr, Inhabited

namespace Codebase

/-- The number of functions in all files; methods are not counted. -/
def functionCount (c : Codebase) : Nat := (c.files.flatMap (·.functions)).length

/-- The number of classes in all files. -/
def classCount (c : Codebase) : Nat := (c.files.flatMap (·.classes)).length

/-- The first file with a path from the root. -/
def file? (c : Codebase) (relativePath : String) : Option FileRecord :=
  c.files.find? (·.relativePath == relativePath)

/-- Whether the function that an export names is in the first file of its path. -/
def declares (files : List FileRecord) (e : ExportRecord) : Bool :=
  match files.find? (·.relativePath == e.file) with
  | none => false
  | some f => f.functions.any (·.name == e.name)

/-- Leave out what is private, and the exports of functions that are left out. -/
def withoutPrivate (c : Codebase) : Codebase :=
  let files := c.files.map FileRecord.withoutPrivate
  { c with
    files
    exports := c.exports.filter fun e => e.kind != .function || declares files e }

end Codebase

end CodeSurvey
