import CodeSurvey.Extraction.Declaration
import CodeSurvey.Syntax.Fault
import CodeSurvey.TypeScript.Extension
import CodeSurvey.TypeScript.Parser

/-! # Reading source files

A source file without errors has a record.  Otherwise a `SourceFault` says why it has
none.  The tree of a file is made by a `SourceParser`: what a survey comes to is told by the
trees alone, whatever makes them. -/

namespace CodeSurvey

open TypeScript

/-- What makes trees of the bytes of source files. -/
class SourceParser where
  parse : Dialect → ByteArray → Memo ParserRows Tree

/-- The parser of the grammars of the dialects. -/
instance (priority := low) : SourceParser where
  parse d bytes := d.parse (.ofBytes bytes)

/-- Why a source file has no record. -/
inductive SourceFault where
  /-- It cannot be read; the cause is that of the file system. -/
  | unreadable (path cause : String)
  /-- Its extension tells no dialect. -/
  | noDialect (path : String)
  /-- It does not follow the grammar; line and column count from one, the column in
  bytes. -/
  | malformed (path : String) (line column : Nat)
deriving DecidableEq, Repr, Inhabited

/-- The wording of a fault. -/
def SourceFault.message : SourceFault → String
  | .unreadable path cause => "failed to read " ++ path ++ ": " ++ cause
  | .noDialect path => "no analyzer for " ++ path
  | .malformed path line column =>
    "syntax error in " ++ path ++ " at " ++ toString line ++ ":" ++ toString column

/-- The record of a tree, if there is no error in it. -/
def FileRecord.ofTree? (path relativePath : String) (t : Tree) : Except SourceFault FileRecord :=
  match t.root.firstFault? with
  | some n => .error (.malformed path (n.start.row + 1) (n.start.column + 1))
  | none => .ok (.ofTree path relativePath t)

/-- The record of a source. -/
def FileRecord.ofBytes? [SourceParser] (d : Dialect) (path relativePath : String)
    (bytes : ByteArray) : Memo ParserRows (Except SourceFault FileRecord) := do
  let t ← SourceParser.parse d bytes
  return ofTree? path relativePath t

end CodeSurvey
