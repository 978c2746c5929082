import CodeSurvey.TypeScript.Modules
import CodeSurvey.TypeScript.Statements
import CodeSurvey.TypeScript.Expressions
import CodeSurvey.TypeScript.Markup
import CodeSurvey.TypeScript.Functions
import CodeSurvey.TypeScript.Literals
import CodeSurvey.TypeScript.Members
import CodeSurvey.TypeScript.Types
import CodeSurvey.TypeScript.Ranks

/-! # The two dialects

TypeScript comes in two dialects.  The plain one has type assertions in angle
brackets; the other has markup elements in their place. -/

namespace CodeSurvey.TypeScript

/-- A dialect of TypeScript. -/
inductive Dialect where
  /-- With type assertions, without markup. -/
  | plain
  /-- With markup, without type assertions. -/
  | markup
deriving DecidableEq, Repr, Inhabited

/-- A type assertion in angle brackets. -/
def assertionRules : List (String × Rule) := [
  ("type_assertion", .bindLeft "unary" (.chain [the "type_arguments", the "expression"]))
]

/-- Constructs whose parts take their place wherever they occur. -/
def inlined : List String :=
  ["_expressions", "_semicolon", "_identifier", "_reserved_identifier", "_jsx_attribute",
    "_jsx_element_name", "_jsx_child", "_jsx_element", "_jsx_attribute_name",
    "_jsx_attribute_value", "_jsx_identifier", "_lhs_expression", "_type_identifier",
    "_jsx_start_opening_element"]

/-- Constructs that stand for a choice. -/
def classes : List String :=
  ["statement", "declaration", "expression", "primary_expression", "pattern", "type", "primary_type"]

/-- Tokens that depend on their surroundings. -/
def layout : List String :=
  ["_automatic_semicolon", "_template_chars", "_ternary_qmark", "html_comment", "jsx_text",
    "_function_signature_automatic_semicolon"]

/-- Tokens that occur only inside literals and tags. -/
def inner : List String :=
  ["unescaped_double_string_fragment", "unescaped_single_string_fragment", "regex_pattern",
    "regex_end", "regex_flags", "unescaped_double_jsx_string_fragment",
    "unescaped_single_jsx_string_fragment", "jsx_identifier"]

/-- The rules of a dialect. -/
def Dialect.rules : Dialect → List (String × Rule)
  | .plain =>
    moduleRules ++ statementRules ++ expressionRules "type_assertion" ++ functionRules ++
      literalRules ++ memberRules ++ typeRules ++ assertionRules
  | .markup =>
    moduleRules ++ statementRules ++ expressionRules "_jsx_element" ++ markupRules ++
      functionRules ++ literalRules ++ memberRules ++ typeRules

/-- The grammar of a dialect. -/
def Dialect.grammar (d : Dialect) : Grammar where
  rules := d.rules
  inlined
  orders := rankOrders
  name := "identifier"
  blanks := Lexemes.blanks
  extras := ["comment", "html_comment"]
  layout
  inner
  classes

end CodeSurvey.TypeScript
