import CodeSurvey.CommandLine.Reader
import CodeSurvey.Settings
import CodeSurvey.Survey

/-! # Analyses

An analysis surveys a project as its arguments and a settings file say, and prints a
report or writes it to a file.  All that can go wrong is found out before anything is
printed or written. -/

namespace CodeSurvey

open CommandLine (AnalyzeArguments)
open TypeScript (ParserRows)

/-- Why an analysis has no report. -/
inductive AnalysisFault where
  | settings (fault : SettingsFault)
  | noAccess (path : String) (cause : FileFault)
  | noDirectory (path : String)
  | survey (fault : SurveyFault)
  | noOutput (path : String) (cause : FileFault)
deriving DecidableEq, Repr, Inhabited

namespace AnalysisFault

/-- The wording of a fault.  A fault of a settings file is followed by what lies behind
it. -/
def message : AnalysisFault → String
  | settings f => f.message ++ ": " ++ f.cause
  | noAccess path e => "cannot access path " ++ Text.quoted path ++ ": " ++ e.message
  | noDirectory path => Text.quoted path ++ " is not a directory"
  | survey f => f.message
  | noOutput path e => "cannot create output file " ++ path ++ ": " ++ e.message

/-- The exit status after a fault: a survey without an outcome has one of its own. -/
def status : AnalysisFault → Nat
  | survey _ => 1
  | _ => 2

end AnalysisFault

/-- What comes of an analysis. -/
structure AnalysisOutcome where
  fault : Option AnalysisFault
  /-- What is printed. -/
  printed : String
  /-- The file system after the analysis. -/
  files : FileSystem
  notices : List Notice
deriving Inhabited

namespace AnalysisOutcome

/-- The exit status of an analysis. -/
def status (o : AnalysisOutcome) : Nat := (o.fault.map AnalysisFault.status).getD 0

/-- An analysis that fails leaves everything as it was. -/
def failed (fs : FileSystem) (notices : List Notice) (fault : AnalysisFault) : AnalysisOutcome :=
  ⟨some fault, "", fs, notices⟩

end AnalysisOutcome

namespace Analysis

variable [Glob.Compiler] [SourceParser] [ThreadPool]

/-- What to survey. -/
def surveyOf (a : AnalyzeArguments) (s : Settings) : Survey where
  root := a.path
  excludes := s.excludePatterns ++ a.excludes
  jobs := a.jobs.orElse fun _ => s.jobs

/-- The form of the report. -/
def formatOf (a : AnalyzeArguments) (s : Settings) : ReportFormat :=
  (a.format.orElse fun _ => s.format).getD .pretty

/-- What of a codebase is reported. -/
def reported (a : AnalyzeArguments) (s : Settings) (c : Codebase) : Codebase :=
  if a.includePrivate || s.includePrivate then c else c.withoutPrivate

/-- Print a report, or write it to a file.  A file gets no colours. -/
def deliver (fs : FileSystem) (colours : Bool) (a : AnalyzeArguments) (s : Settings)
    (c : Codebase) (notices : List Notice) : AnalysisOutcome :=
  let report (colours : Bool) : String := Report.write (formatOf a s) colours a.path (reported a s c)
  match a.output with
  | none => ⟨none, report colours, fs, notices⟩
  | some path =>
    match fs.write path (report false).toUTF8 with
    | .error e => .failed fs notices (.noOutput path e)
    | .ok files => ⟨none, "", files, notices ++ [.reportWritten path]⟩

/-- Analyze with settings. -/
def runWith (fs : FileSystem) (colours : Bool) (a : AnalyzeArguments) (s : Settings) :
    Memo ParserRows AnalysisOutcome := do
  match fs.isDirectory a.path with
  | .error e => return .failed fs [] (.noAccess a.path e)
  | .ok false => return .failed fs [] (.noDirectory a.path)
  | .ok true =>
    let outcome ← (surveyOf a s).run fs
    match outcome.value with
    | .error fault => return .failed fs outcome.notices (.survey fault)
    | .ok c => return deliver fs colours a s c outcome.notices

/-- The settings that the arguments ask for. -/
def settingsFor (fs : FileSystem) (a : AnalyzeArguments) : Except SettingsFault Settings :=
  match a.settings with
  | none => .ok .default
  | some path => Settings.ofFile fs path

/-- Analyze. -/
def run (fs : FileSystem) (colours : Bool) (a : AnalyzeArguments) :
    Memo ParserRows AnalysisOutcome :=
  match settingsFor fs a with
  | .error fault => return .failed fs [] (.settings fault)
  | .ok s => runWith fs colours a s

end Analysis

end CodeSurvey
