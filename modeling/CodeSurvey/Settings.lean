import CodeSurvey.Files.System
import CodeSurvey.Report.Format
import CodeSurvey.Text.Blank
import CodeSurvey.Yaml.Reading

/-! # Settings

The settings of a survey, as a settings file states them. -/

namespace CodeSurvey

/-- What a settings file states. -/
structure Settings where
  /-- Patterns of files that are left out, besides those that always are. -/
  excludePatterns : List String
  /-- Whether private declarations are reported. -/
  includePrivate : Bool
  /-- How many files are read at once. -/
  jobs : Option Nat
  format : Option ReportFormat
deriving DecidableEq, Repr, Inhabited

namespace Settings

/-- The settings without a file. -/
protected def default : Settings := ⟨[], false, none, none⟩

/-- The fields of settings that were read so far. -/
structure Draft where
  excludePatterns : Option (List String)
  includePrivate : Option Bool
  jobs : Option (Option Nat)
  format : Option (Option ReportFormat)

/-- The settings that a draft makes; what is not stated is as without a file. -/
def Draft.settings (d : Draft) : Settings where
  excludePatterns := d.excludePatterns.getD Settings.default.excludePatterns
  includePrivate := d.includePrivate.getD Settings.default.includePrivate
  jobs := d.jobs.getD Settings.default.jobs
  format := d.format.getD Settings.default.format

open Yaml in
/-- Read a field, and add it to a draft.  A field is stated at most once; a field that is
not known is passed over. -/
def Draft.readField (d : Draft) (name path : String) : Reading Draft := do
  if name = "exclude_patterns" ∨ name = "excludePatterns" then
    let patterns := Reading.list path fun path => Reading.text path "a string"
    return { d with excludePatterns := ← Reading.once "exclude_patterns" d.excludePatterns patterns }
  else if name = "include_private" ∨ name = "includePrivate" then
    let include_ := Reading.boolean path
    return { d with includePrivate := ← Reading.once "include_private" d.includePrivate include_ }
  else if name = "jobs" then
    let jobs := Reading.option (Reading.natural path)
    return { d with jobs := ← Reading.once "jobs" d.jobs jobs }
  else if name = "format" then
    let format := Reading.option (Reading.word path ReportFormat.words)
    return { d with format := ← Reading.once "format" d.format format }
  else
    Reading.skip
    return d

/-- The settings that a text states. -/
def parse (s : String) : Except Yaml.Failure Settings :=
  if s.toList.all Text.isBlank then .ok Settings.default
  else
    (Yaml.readAll s (Yaml.Reading.record ⟨none, none, none, none⟩ "Config" Draft.readField)).map
      Draft.settings

end Settings

/-- Why a settings file states nothing. -/
inductive SettingsFault where
  | unreadable (path : String) (cause : FileFault)
  | invalid (path : String) (cause : Yaml.Failure)
deriving DecidableEq, Repr, Inhabited

namespace SettingsFault

/-- The wording of what lies behind a fault. -/
def cause : SettingsFault → String
  | unreadable _ e => e.message
  | invalid _ f => f.message

/-- The wording of a fault. -/
def message : SettingsFault → String
  | unreadable path e => "failed to read config " ++ path ++ ": " ++ e.message
  | invalid path f => "invalid config " ++ path ++ ": " ++ f.message

end SettingsFault

/-- The settings that a file states. -/
def Settings.ofFile (fs : FileSystem) (path : RawText) : Except SettingsFault Settings :=
  match fs.readText path with
  | .error e => .error (.unreadable path.shown e)
  | .ok text => (Settings.parse text).mapError (.invalid path.shown)

end CodeSurvey
