import CodeSurvey.Records.Encoding
import CodeSurvey.Report.Summary

/-! # Report formats -/

namespace CodeSurvey

/-- In which form a codebase is reported. -/
inductive ReportFormat where
  /-- As a summary for the terminal. -/
  | pretty
  /-- In full, as JSON. -/
  | json
deriving DecidableEq, Repr, Inhabited

namespace ReportFormat

/-- The word for a format. -/
def word : ReportFormat → String
  | pretty => "pretty"
  | json => "json"

/-- The formats by their words. -/
def words : List (String × ReportFormat) := [pretty, json].map fun f => (f.word, f)

end ReportFormat

namespace Report

/-- A codebase in full, as JSON. -/
def full (c : Codebase) : String := c.toJson.pretty ++ "\n"

/-- A report in a format. -/
def write (format : ReportFormat) (colours : Bool) (root : String) (c : Codebase) : String :=
  match format with
  | .pretty => summary colours root c
  | .json => full c

end Report

end CodeSurvey
