import CodeSurvey.TypeScript.Words

/-! # Members

The rules for arguments, parameters, decorators, and the members of classes and objects. -/

namespace CodeSurvey.TypeScript

open Rule (chain oneOf optional many repeated separated listed field rename bind bindLeft bindRight
  toLeft toRight ranked weighted)

/-- The rules for members. -/
def memberRules : List (String × Rule) := [
  ("arguments",
    chain ["(", optional (listed (optional (oneOf [the "expression", the "spread_element"]))),
      ")"]),
  ("decorator",
    chain ["@",
      oneOf [the "identifier", Rule.as "member_expression" (the "decorator_member_expression"),
        Rule.as "call_expression" (the "decorator_call_expression"),
        Rule.as "parenthesized_expression" (the "decorator_parenthesized_expression")]]),
  ("decorator_member_expression",
    bind "member" (chain [field "object" (oneOf [the "identifier",
        Rule.as "member_expression" (the "decorator_member_expression")]), ".",
      field "property" (Rule.as "property_identifier" (the "identifier"))])),
  ("decorator_call_expression",
    bind "call" (chain [field "function" (oneOf [the "identifier",
        Rule.as "member_expression" (the "decorator_member_expression")]),
      optional (field "type_arguments" (the "type_arguments")),
      field "arguments" (the "arguments")])),
  ("class_body",
    chain [lbrace,
      many (oneOf [chain [many (field "decorator" (the "decorator")), the "method_definition",
          optional (the "_semicolon")],
        chain [the "method_signature", oneOf [the "_function_signature_automatic_semicolon", ","]],
        the "class_static_block",
        chain [oneOf [the "abstract_method_signature", the "index_signature",
            the "method_signature", the "public_field_definition"], oneOf [the "_semicolon", ","]],
        ";"]), rbrace]),
  ("formal_parameters",
    chain ["(", optional (chain [listed (the "_formal_parameter"), optional ","]), ")"]),
  ("class_static_block",
    chain ["static", optional (the "_automatic_semicolon"), field "body" (the "statement_block")]),
  ("pattern", weighted (-1) (oneOf [the "_lhs_expression", the "rest_pattern"])),
  ("rest_pattern", toRight (chain ["...", the "_lhs_expression"])),
  ("method_definition",
    toLeft (chain [optional (the "accessibility_modifier"), optional "static",
      optional (the "override_modifier"), optional "readonly", optional "async",
      optional (oneOf ["get", "set", "*"]), field "name" (the "_property_name"), optional "?",
      the "_call_signature", field "body" (the "statement_block")])),
  ("pair", chain [field "key" (the "_property_name"), ":", field "value" (the "expression")]),
  ("pair_pattern",
    chain [field "key" (the "_property_name"), ":",
      field "value" (oneOf [the "pattern", the "assignment_pattern"])]),
  ("_property_name",
    oneOf [Rule.as "property_identifier" (oneOf [the "identifier", the "_reserved_identifier"]),
      the "private_property_identifier", the "string", the "number", the "computed_property_name"]),
  ("computed_property_name", chain ["[", the "expression", "]"]),
  ("_reserved_identifier",
    oneOf ["declare", "namespace", "type", "public", "private", "protected", "override",
      "readonly", "module", "any", "number", "boolean", "string", "symbol", "export", "object",
      "new", "readonly", oneOf ["get", "set", "async", "static", "export", "let"]]),
  ("_semicolon", oneOf [the "_automatic_semicolon", ";"])
]

end CodeSurvey.TypeScript
