import CodeSurvey.Discovery
import CodeSurvey.Frameworks
import CodeSurvey.Manifest
import CodeSurvey.Records.Codebase

/-! # Surveys

A survey of a project reads its manifest and all its source files.  A file that cannot
be read is left out, but there has to be one that can.

The files may be read by a number of threads of their own.  Whether there are such threads
is for the machine to say (`ThreadPool`); if not, that is told, and the files are read all
the same. -/

namespace CodeSurvey

open TypeScript (ParserRows)

/-- What to survey. -/
structure Survey where
  /-- The root of the project. -/
  root : RawText
  /-- Patterns of files that are left out, besides those that always are. -/
  excludes : List String
  /-- How many files may be read at once.  That makes no difference to the outcome. -/
  jobs : Option Nat
deriving DecidableEq, Repr, Inhabited

/-- What a machine says to a number of threads. -/
class ThreadPool where
  /-- Why there cannot be so many threads, if there cannot. -/
  fault? : Nat → Option String

/-- A machine with as many threads as are asked for. -/
instance (priority := low) : ThreadPool where
  fault? _ := none

/-- Why a survey has no outcome. -/
inductive SurveyFault where
  | noSources (root : RawText)
  | noneParsed (root : RawText) (attempted : Nat)
deriving DecidableEq, Repr, Inhabited

/-- The wording of a fault. -/
def SurveyFault.message : SurveyFault → String
  | noSources root => "no source files found in " ++ root.shown ++ " (check exclude patterns)"
  | noneParsed root attempted =>
    "none of the " ++ toString attempted ++ " source files in " ++ root.shown ++ " could be parsed"

/-- The record of a file, in the dialect that its extension tells. -/
def FileRecord.ofFile? [SourceParser] (fs : FileSystem) (path : RawText)
    (relativePath : String) : Memo ParserRows (Except SourceFault FileRecord) :=
  match TypeScript.Dialect.ofExtension? (Path.fileExtension path) with
  | none => return .error (.noDialect path.shown)
  | some dialect =>
    match fs.read path with
    | .error e => return .error (.unreadable path.shown e.message)
    | .ok bytes => FileRecord.ofBytes? dialect path.shown relativePath bytes

/-- The notice of a file that was read. -/
def FileRecord.notice (f : FileRecord) : Notice :=
  .fileRead f.relativePath f.functions.length f.classes.length f.imports.length

namespace Survey

/-- The records of files below a root, in order. -/
def readAll [SourceParser] (fs : FileSystem) (root : RawText) :
    List RawText → Memo ParserRows (List (String × Except SourceFault FileRecord))
  | [] => return []
  | relativePath :: rest => do
    let record ← FileRecord.ofFile? fs (Path.join root relativePath) (Path.normalize relativePath)
    let more ← readAll fs root rest
    return (Path.normalize relativePath, record) :: more

/-- The root without links; a root that is not there stays as it is. -/
def canonicalRoot (fs : FileSystem) (root : RawText) : RawText :=
  match fs.canonical root with
  | .ok path => path
  | .error _ => root

/-- Put the records together. -/
def assemble (root : RawText) (m : Manifest) (frameworks : List DetectedFramework)
    (results : List (String × Except SourceFault FileRecord)) :
    Logged (Except SurveyFault Codebase) := do
  let files := results.filterMap fun r => r.2.toOption
  Logged.tellAll (files.map FileRecord.notice)
  Logged.tellAll <| results.filterMap fun r =>
    match r.2 with
    | .ok _ => none
    | .error fault => some (.fileSkipped r.1 fault)
  if files.isEmpty then return .error (.noneParsed root results.length)
  let exports := files.flatMap FileRecord.exports
  Logged.tell (.surveyed files.length results.length exports.length)
  return .ok ⟨files, m.dependencies, exports, frameworks, m.package⟩

/-- What is told if there cannot be as many threads as are asked for. -/
def poolNotices [ThreadPool] (jobs : Option Nat) : List Notice :=
  (jobs.bind fun n => (ThreadPool.fault? n).map (.noThreads n ·)).toList

/-- Survey a project. -/
def run [Glob.Compiler] [SourceParser] [ThreadPool] (fs : FileSystem) (s : Survey) :
    Memo ParserRows (Logged (Except SurveyFault Codebase)) := do
  let root := canonicalRoot fs s.root
  let before : Logged (Manifest × List DetectedFramework × List RawText) := do
    let m ← Manifest.ofRoot fs root
    let frameworks := detectFrameworks m.dependencies
    Logged.tell (.frameworksFound frameworks.length)
    return (m, frameworks, ← discover fs root s.excludes)
  let (m, frameworks, sources) := before.value
  if sources.isEmpty then
    return before >>= fun _ => pure (.error (.noSources root))
  else
    let results ← readAll fs root sources
    return before >>= fun _ => do
      Logged.tell (.surveying sources.length root.shown)
      Logged.tellAll (poolNotices s.jobs)
      assemble root m frameworks results

end Survey

end CodeSurvey
