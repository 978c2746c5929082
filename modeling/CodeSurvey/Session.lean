import CodeSurvey.Analysis

/-! # Sessions

What the program prints, and with which status it ends, when it is called with some
words. -/

namespace CodeSurvey

open TypeScript (ParserRows)

/-- What comes of a call of the program. -/
structure Session where
  status : Nat
  output : String
  errors : String
  files : FileSystem
deriving Inhabited

namespace Session

/-- Whether a notice is shown; the least important ones only on demand. -/
def shows (verbose : Bool) (n : Notice) : Bool := verbose || n.level != .debug

/-- The session of a command line that is not followed. -/
def ofRefusal (fs : FileSystem) (r : CommandLine.Refusal) : Session :=
  if r.isAnswer then ⟨0, r.message, "", fs⟩ else ⟨2, "", r.message, fs⟩

/-- The session of an analysis. -/
def ofOutcome (verbose : Bool) (o : AnalysisOutcome) : Session :=
  let notices := (o.notices.filter (shows verbose)).map Notice.line
  let fault := match o.fault with
    | some f => "Error: " ++ f.message ++ "\n"
    | none => ""
  ⟨o.status, o.printed, String.join notices ++ fault, o.files⟩

/-- Call the program. -/
def run [Glob.Compiler] [SourceParser] [ThreadPool] (fs : FileSystem) (colours : Bool)
    (words : List String) : Memo ParserRows Session :=
  match CommandLine.read words with
  | .error r => return ofRefusal fs r
  | .ok i => do
    let o ← Analysis.run fs colours i.arguments
    return ofOutcome i.verbose o

end Session

end CodeSurvey
