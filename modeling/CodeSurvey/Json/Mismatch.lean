import CodeSurvey.Json.Writer
import CodeSurvey.Text.Quoted

/-! # Values that do not fit

A `Mismatch` is the reason why a JSON value is not what was expected. -/

namespace CodeSurvey.Json

/-- Why a value is not what was expected. -/
inductive Mismatch where
  | wrongType (found : Json) (expected : String)
  | lackingField (name : String)
  | unknownWord (found : String) (known : List String)
  | wrongLength (found : Nat) (expected : String)
  | wrongObject (expected : String)
deriving Repr, Inhabited

/-- What a value is, in words. -/
def describe : Json → String
  | .null => "null"
  | .bool b => "boolean `" ++ toString b ++ "`"
  | .number (.real x) => "floating point `" ++ (JsonNumber.real x).write ++ "`"
  | .number n => "integer `" ++ n.write ++ "`"
  | .string s => "string " ++ Text.quoted s
  | .array _ => "sequence"
  | .object _ => "map"

/-- A word between marks. -/
def marked (s : String) : String := "`" ++ s ++ "`"

/-- The wording of a mismatch. -/
def Mismatch.message : Mismatch → String
  | .wrongType v expected => "invalid type: " ++ describe v ++ ", expected " ++ expected
  | .lackingField name => "missing field " ++ marked name
  | .unknownWord found known =>
    "unknown variant " ++ marked found ++ ", expected one of "
      ++ ", ".intercalate (known.map marked)
  | .wrongLength n expected => "invalid length " ++ toString n ++ ", expected " ++ expected
  | .wrongObject expected => "invalid value: map, expected " ++ expected

end CodeSurvey.Json
