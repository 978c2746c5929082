/-! # The program

How the program names itself. -/

namespace CodeSurvey.Program

/-- The name of the program. -/
def name : String := "docgen"

/-- The version of the program. -/
def version : String := "0.1.0"

end CodeSurvey.Program
