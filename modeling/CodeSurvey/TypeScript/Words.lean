import CodeSurvey.Grammar.Rule

/-! # Shorthand for the rules of TypeScript -/

namespace CodeSurvey.TypeScript

/-- The construct of the given name. -/
def the (name : String) : Rule := .ref name

/-- The opening brace. -/
def lbrace : Rule := .word "\x7b"

/-- The closing brace. -/
def rbrace : Rule := .word "\x7d"

end CodeSurvey.TypeScript
