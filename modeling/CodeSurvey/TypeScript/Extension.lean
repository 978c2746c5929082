import CodeSurvey.TypeScript.Dialect

/-! # File name extensions

The extension of a file tells its dialect.  Sources without types are sources of the
dialect with markup. -/

namespace CodeSurvey.TypeScript.Dialect

/-- All dialects. -/
def all : List Dialect := [.plain, .markup]

/-- The name of a dialect. -/
def id : Dialect → String
  | .plain => "typescript"
  | .markup => "tsx"

/-- The extensions of files in a dialect, without the dot. -/
def extensions : Dialect → List String
  | .plain => ["ts"]
  | .markup => ["tsx", "js", "jsx"]

/-- The dialect of files with an extension. -/
def ofExtension? (extension : String) : Option Dialect :=
  all.find? fun d => d.extensions.contains extension

/-- The extensions of files in any dialect. -/
def allExtensions : List String := all.flatMap extensions

end CodeSurvey.TypeScript.Dialect
