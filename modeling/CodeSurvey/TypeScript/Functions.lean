import CodeSurvey.TypeScript.Words

/-! # Classes, functions and operators

The rules for classes and functions, as declarations and as expressions, for calls
and member access, and for operators. -/

namespace CodeSurvey.TypeScript

open Rule (chain oneOf optional many repeated separated listed field rename bind bindLeft bindRight
  toLeft toRight ranked weighted)

/-- The signs of assignments that combine. -/
def augmentingSigns : List String :=
  ["+=", "-=", "*=", "/=", "%=", "^=", "&=", "|=", ">>=", ">>>=", "<<=", "**=", "&&=", "||=", "??="]

/-- The signs of binary operators, each with the rank that it binds by. -/
def binarySigns : List (String × String) :=
  [("&&", "logical_and"), ("||", "logical_or"), (">>", "binary_shift"), (">>>", "binary_shift"),
    ("<<", "binary_shift"), ("&", "bitwise_and"), ("^", "bitwise_xor"), ("|", "bitwise_or"),
    ("+", "binary_plus"), ("-", "binary_plus"), ("*", "binary_times"), ("/", "binary_times"),
    ("%", "binary_times"), ("**", "binary_exp"), ("<", "binary_relation"),
    ("<=", "binary_relation"), ("==", "binary_equality"), ("===", "binary_equality"),
    ("!=", "binary_equality"), ("!==", "binary_equality"), (">=", "binary_relation"),
    (">", "binary_relation"), ("??", "ternary"), ("instanceof", "binary_relation"),
    ("in", "binary_relation")]

/-- The rule of a binary operator.  Powers group to the right, all else to the left; the
left operand of `in` may be the name of a private member. -/
def binary (op : String × String) : Rule :=
  let left := if op.1 == "in" then oneOf [the "expression", the "private_property_identifier"]
    else the "expression"
  ranked (.named op.2) (if op.1 == "**" then Side.right else Side.left)
    (chain [field "left" left, field "operator" (.word op.1), field "right" (the "expression")])

/-- The rules for classes, functions and operators. -/
def functionRules : List (String × Rule) := [
  ("nested_identifier",
    bind "member" (chain [field "object" (oneOf [the "identifier",
        Rule.as "member_expression" (the "nested_identifier")]), ".",
      field "property" (Rule.as "property_identifier" (the "identifier"))])),
  ("class",
    bind "literal" (chain [many (field "decorator" (the "decorator")), "class",
      field "name" (optional (the "_type_identifier")),
      field "type_parameters" (optional (the "type_parameters")), optional (the "class_heritage"),
      field "body" (the "class_body")])),
  ("class_declaration",
    bindLeft "declare" (chain [many (field "decorator" (the "decorator")), "class",
      field "name" (the "_type_identifier"),
      field "type_parameters" (optional (the "type_parameters")), optional (the "class_heritage"),
      field "body" (the "class_body"), optional (the "_automatic_semicolon")])),
  ("class_heritage",
    oneOf [chain [the "extends_clause", optional (the "implements_clause")],
      the "implements_clause"]),
  ("function_expression",
    bind "literal" (chain [optional "async", "function",
      field "name" (optional (the "identifier")), the "_call_signature",
      field "body" (the "statement_block")])),
  ("function_declaration",
    bindRight "declare" (chain [optional "async", "function", field "name" (the "identifier"),
      the "_call_signature", field "body" (the "statement_block"),
      optional (the "_automatic_semicolon")])),
  ("generator_function",
    bind "literal" (chain [optional "async", "function", "*",
      field "name" (optional (the "identifier")), the "_call_signature",
      field "body" (the "statement_block")])),
  ("generator_function_declaration",
    bindRight "declare" (chain [optional "async", "function", "*",
      field "name" (the "identifier"), the "_call_signature",
      field "body" (the "statement_block"), optional (the "_automatic_semicolon")])),
  ("arrow_function",
    chain [optional "async",
      oneOf [field "parameter" (oneOf [Rule.as "identifier" (the "_reserved_identifier"),
          the "identifier"]), the "_call_signature"], "=>",
      field "body" (oneOf [the "expression", the "statement_block"])]),
  ("_call_signature",
    chain [field "type_parameters" (optional (the "type_parameters")),
      field "parameters" (the "formal_parameters"),
      field "return_type" (optional (oneOf [the "type_annotation", the "asserts_annotation",
        the "type_predicate_annotation"]))]),
  ("_formal_parameter", oneOf [the "required_parameter", the "optional_parameter"]),
  ("optional_chain", "?."),
  ("call_expression",
    oneOf [bind "call" (chain [field "function" (oneOf [the "expression", the "import"]),
        field "type_arguments" (optional (the "type_arguments")),
        field "arguments" (the "arguments")]),
      bind "template_call" (chain [field "function" (oneOf [the "primary_expression",
          the "new_expression"]), field "arguments" (the "template_string")]),
      bind "member" (chain [field "function" (the "primary_expression"), "?.",
        field "type_arguments" (optional (the "type_arguments")),
        field "arguments" (the "arguments")])]),
  ("new_expression",
    bindRight "new" (chain ["new", field "constructor" (the "primary_expression"),
      field "type_arguments" (optional (the "type_arguments")),
      field "arguments" (optional (the "arguments"))])),
  ("await_expression", bind "unary_void" (chain ["await", the "expression"])),
  ("member_expression",
    bind "member" (chain [field "object" (oneOf [the "expression", the "primary_expression",
        the "import"]), oneOf [".", field "optional_chain" (the "optional_chain")],
      field "property" (oneOf [the "private_property_identifier",
        Rule.as "property_identifier" (the "identifier")])])),
  ("subscript_expression",
    bindRight "member" (chain [field "object" (oneOf [the "expression", the "primary_expression"]),
      optional (field "optional_chain" (the "optional_chain")), "[",
      field "index" (the "_expressions"), "]"])),
  ("_lhs_expression",
    oneOf [oneOf [the "member_expression", the "subscript_expression", the "_identifier",
        Rule.as "identifier" (the "_reserved_identifier"), the "_destructuring_pattern"],
      the "non_null_expression"]),
  ("assignment_expression",
    bindRight "assign" (chain [optional "using",
      field "left" (oneOf [the "parenthesized_expression", the "_lhs_expression"]), "=",
      field "right" (the "expression")])),
  ("_augmented_assignment_lhs",
    oneOf [oneOf [the "member_expression", the "subscript_expression",
        Rule.as "identifier" (the "_reserved_identifier"), the "identifier",
        the "parenthesized_expression"], the "non_null_expression"]),
  ("augmented_assignment_expression",
    bindRight "assign" (chain [field "left" (the "_augmented_assignment_lhs"),
      field "operator" (oneOf (augmentingSigns.map Rule.word)), field "right" (the "expression")])),
  ("_initializer", chain ["=", field "value" (the "expression")]),
  ("_destructuring_pattern", oneOf [the "object_pattern", the "array_pattern"]),
  ("spread_element", chain ["...", the "expression"]),
  ("ternary_expression",
    bindRight "ternary" (chain [field "condition" (the "expression"),
      rename ⟨"?", false⟩ (the "_ternary_qmark"), field "consequence" (the "expression"), ":",
      field "alternative" (the "expression")])),
  ("binary_expression", oneOf (binarySigns.map binary)),
  ("unary_expression",
    bindLeft "unary_void" (chain [field "operator" (oneOf ["!", "~", "-", "+", "typeof", "void",
        "delete"]), field "argument" (the "expression")])),
  ("update_expression",
    toLeft (oneOf [chain [field "argument" (the "expression"),
        field "operator" (oneOf ["++", "--"])],
      chain [field "operator" (oneOf ["++", "--"]), field "argument" (the "expression")]])),
  ("sequence_expression", toRight (listed (the "expression")))
]

end CodeSurvey.TypeScript
