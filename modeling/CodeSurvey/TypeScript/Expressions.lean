import CodeSurvey.TypeScript.Words

/-! # Expressions: primary expressions and patterns

The rules for expressions as a class, for object and array literals, and for the
patterns that have the same shape. -/

namespace CodeSurvey.TypeScript

open Rule (chain oneOf optional many repeated separated listed field rename bind bindLeft bindRight
  toLeft toRight ranked weighted)

/-- The rules for primary expressions and patterns; `special` is what only one dialect
counts among the expressions. -/
def expressionRules (special : String) : List (String × Rule) := [
  ("parenthesized_expression",
    chain ["(",
      oneOf [chain [the "expression", field "type" (optional (the "type_annotation"))],
        the "sequence_expression"], ")"]),
  ("_expressions", oneOf [the "expression", the "sequence_expression"]),
  ("expression",
    oneOf [the "as_expression", the "satisfies_expression", the "instantiation_expression",
      the "internal_module", the special, the "primary_expression",
      the "assignment_expression", the "augmented_assignment_expression", the "await_expression",
      the "unary_expression", the "binary_expression", the "ternary_expression",
      the "update_expression", the "new_expression", the "yield_expression"]),
  ("primary_expression",
    oneOf [oneOf [the "subscript_expression", the "member_expression",
        the "parenthesized_expression", the "_identifier",
        Rule.as "identifier" (the "_reserved_identifier"), the "this", the "super", the "number",
        the "string", the "template_string", the "regex", the "true", the "false", the "null",
        the "object", the "array", the "function_expression", the "arrow_function",
        the "generator_function", the "class", the "meta_property", the "call_expression"],
      the "non_null_expression"]),
  ("yield_expression",
    toRight (chain ["yield", oneOf [chain ["*", the "expression"], optional (the "expression")]])),
  ("object",
    bind "object" (chain [lbrace,
      optional (listed (optional (oneOf [the "pair", the "spread_element",
        the "method_definition",
        Rule.as "shorthand_property_identifier" (oneOf [the "identifier",
          the "_reserved_identifier"])]))), rbrace])),
  ("object_pattern",
    bind "object" (chain [lbrace,
      optional (listed (optional (oneOf [the "pair_pattern", the "rest_pattern",
        the "object_assignment_pattern",
        Rule.as "shorthand_property_identifier_pattern" (oneOf [the "identifier",
          the "_reserved_identifier"])]))), rbrace])),
  ("assignment_pattern",
    chain [field "left" (the "pattern"), "=", field "right" (the "expression")]),
  ("object_assignment_pattern",
    chain [field "left" (oneOf [Rule.as "shorthand_property_identifier_pattern" (oneOf [the "_reserved_identifier",
          the "identifier"]), the "_destructuring_pattern"]), "=",
      field "right" (the "expression")]),
  ("array",
    chain ["[", optional (listed (optional (oneOf [the "expression", the "spread_element"]))),
      "]"]),
  ("array_pattern",
    chain ["[", optional (listed (optional (oneOf [the "pattern", the "assignment_pattern"]))),
      "]"])
]

end CodeSurvey.TypeScript
