import CodeSurvey.TypeScript.Words

/-! # Types and typed declarations

The rules for types, type parameters and type annotations, for the declarations that
declare types only, and for expressions that mention a type. -/

namespace CodeSurvey.TypeScript

open Rule (chain oneOf optional many repeated separated listed field rename bind bindLeft bindRight
  toLeft toRight ranked weighted)

/-- The rules for types and typed declarations. -/
def typeRules : List (String × Rule) := [
  ("public_field_definition",
    chain [many (field "decorator" (the "decorator")),
      optional (oneOf [chain ["declare", optional (the "accessibility_modifier")],
        chain [the "accessibility_modifier", optional "declare"]]),
      oneOf [chain [optional "static", optional (the "override_modifier"), optional "readonly"],
        chain [optional "abstract", optional "readonly"],
        chain [optional "readonly", optional "abstract"], optional "accessor"],
      field "name" (the "_property_name"), optional (oneOf ["?", "!"]),
      field "type" (optional (the "type_annotation")), optional (the "_initializer")]),
  ("_import_identifier", oneOf [the "identifier", Rule.as "identifier" "type"]),
  ("non_null_expression", bindLeft "unary" (chain [the "expression", "!"])),
  ("method_signature",
    chain [optional (the "accessibility_modifier"), optional "static",
      optional (the "override_modifier"), optional "readonly", optional "async",
      optional (oneOf ["get", "set", "*"]), field "name" (the "_property_name"), optional "?",
      the "_call_signature"]),
  ("abstract_method_signature",
    chain [optional (the "accessibility_modifier"), "abstract",
      optional (the "override_modifier"), optional (oneOf ["get", "set", "*"]),
      field "name" (the "_property_name"), optional "?", the "_call_signature"]),
  ("function_signature",
    chain [optional "async", "function", field "name" (the "identifier"), the "_call_signature",
      oneOf [the "_semicolon", the "_function_signature_automatic_semicolon"]]),
  ("decorator_parenthesized_expression",
    chain ["(",
      oneOf [the "identifier", Rule.as "member_expression" (the "decorator_member_expression"),
        Rule.as "call_expression" (the "decorator_call_expression")], ")"]),
  ("as_expression",
    bindLeft "binary" (chain [the "expression", "as", oneOf ["const", the "type"]])),
  ("satisfies_expression", bindLeft "binary" (chain [the "expression", "satisfies", the "type"])),
  ("instantiation_expression",
    bind "instantiation" (chain [the "expression", field "type_arguments" (the "type_arguments")])),
  ("import_require_clause",
    chain [the "identifier", "=", "require", "(", field "source" (the "string"), ")"]),
  ("extends_clause", chain ["extends", listed (the "_extends_clause_single")]),
  ("_extends_clause_single",
    bind "extends" (chain [field "value" (the "expression"),
      field "type_arguments" (optional (the "type_arguments"))])),
  ("implements_clause", chain ["implements", listed (the "type")]),
  ("ambient_declaration",
    chain ["declare",
      oneOf [the "declaration", chain ["global", the "statement_block"],
        chain ["module", ".", Rule.as "property_identifier" (the "identifier"), ":", the "type",
          the "_semicolon"]]]),
  ("abstract_class_declaration",
    bind "declare" (chain [many (field "decorator" (the "decorator")), "abstract", "class",
      field "name" (the "_type_identifier"),
      field "type_parameters" (optional (the "type_parameters")), optional (the "class_heritage"),
      field "body" (the "class_body")])),
  ("module", chain ["module", the "_module"]),
  ("internal_module", chain ["namespace", the "_module"]),
  ("_module",
    toRight (chain [field "name" (oneOf [the "string", the "identifier", the "nested_identifier"]),
      field "body" (optional (the "statement_block"))])),
  ("import_alias",
    chain ["import", the "identifier", "=", oneOf [the "identifier", the "nested_identifier"],
      the "_semicolon"]),
  ("nested_type_identifier",
    bind "member" (chain [field "module" (oneOf [the "identifier", the "nested_identifier"]), ".",
      field "name" (the "_type_identifier")])),
  ("interface_declaration",
    chain ["interface", field "name" (the "_type_identifier"),
      field "type_parameters" (optional (the "type_parameters")),
      optional (the "extends_type_clause"),
      field "body" (Rule.as "interface_body" (the "object_type"))]),
  ("extends_type_clause",
    chain ["extends",
      listed (field "type" (oneOf [the "_type_identifier", the "nested_type_identifier",
        the "generic_type"]))]),
  ("enum_declaration",
    chain [optional "const", "enum", field "name" (the "identifier"),
      field "body" (the "enum_body")]),
  ("enum_body",
    chain [lbrace,
      optional (chain [listed (oneOf [field "name" (the "_property_name"), the "enum_assignment"]),
        optional ","]), rbrace]),
  ("enum_assignment", chain [field "name" (the "_property_name"), the "_initializer"]),
  ("type_alias_declaration",
    chain ["type", field "name" (the "_type_identifier"),
      field "type_parameters" (optional (the "type_parameters")), "=", field "value" (the "type"),
      the "_semicolon"]),
  ("accessibility_modifier", oneOf ["public", "private", "protected"]),
  ("override_modifier", "override"),
  ("required_parameter",
    chain [the "_parameter_name", field "type" (optional (the "type_annotation")),
      optional (the "_initializer")]),
  ("optional_parameter",
    chain [the "_parameter_name", "?", field "type" (optional (the "type_annotation")),
      optional (the "_initializer")]),
  ("_parameter_name",
    chain [many (field "decorator" (the "decorator")), optional (the "accessibility_modifier"),
      optional (the "override_modifier"), optional "readonly",
      field "pattern" (oneOf [the "pattern", the "this"])]),
  ("omitting_type_annotation", chain ["-?:", the "type"]),
  ("adding_type_annotation", chain ["+?:", the "type"]),
  ("opting_type_annotation", chain ["?:", the "type"]),
  ("type_annotation", chain [":", the "type"]),
  ("_type_query_member_expression_in_type_annotation",
    chain [field "object" (oneOf [the "import",
        Rule.as "member_expression" (the "_type_query_member_expression_in_type_annotation"),
        Rule.as "call_expression" (the "_type_query_call_expression_in_type_annotation")]), ".",
      field "property" (oneOf [the "private_property_identifier",
        Rule.as "property_identifier" (the "identifier")])]),
  ("_type_query_call_expression_in_type_annotation",
    chain [field "function" (oneOf [the "import",
        Rule.as "member_expression" (the "_type_query_member_expression_in_type_annotation")]),
      field "arguments" (the "arguments")]),
  ("asserts", chain ["asserts", oneOf [the "type_predicate", the "identifier", the "this"]]),
  ("asserts_annotation", chain [":", the "asserts"]),
  ("type",
    oneOf [the "primary_type", the "function_type", the "readonly_type", the "constructor_type",
      the "infer_type",
      ranked (.level (-1)) none (Rule.as "member_expression" (the "_type_query_member_expression_in_type_annotation")),
      ranked (.level (-1)) none (Rule.as "call_expression" (the "_type_query_call_expression_in_type_annotation"))]),
  ("tuple_parameter",
    chain [field "name" (oneOf [the "identifier", the "rest_pattern"]),
      field "type" (the "type_annotation")]),
  ("optional_tuple_parameter",
    chain [field "name" (the "identifier"), "?", field "type" (the "type_annotation")]),
  ("optional_type", chain [the "type", "?"]),
  ("rest_type", chain ["...", the "type"]),
  ("_tuple_type_member",
    oneOf [Rule.as "required_parameter" (the "tuple_parameter"),
      Rule.as "optional_parameter" (the "optional_tuple_parameter"), the "optional_type",
      the "rest_type", the "type"]),
  ("constructor_type",
    toLeft (chain [optional "abstract", "new",
      field "type_parameters" (optional (the "type_parameters")),
      field "parameters" (the "formal_parameters"), "=>", field "type" (the "type")])),
  ("primary_type",
    oneOf [the "parenthesized_type", the "predefined_type", the "_type_identifier",
      the "nested_type_identifier", the "generic_type", the "object_type", the "array_type",
      the "tuple_type", the "flow_maybe_type", the "type_query", the "index_type_query",
      Rule.as "this_type" (the "this"), the "existential_type", the "literal_type",
      the "lookup_type", the "conditional_type", the "template_literal_type",
      the "intersection_type", the "union_type", "const"]),
  ("template_type", chain ["$\x7b", oneOf [the "primary_type", the "infer_type"], rbrace]),
  ("template_literal_type",
    chain ["`",
      many (oneOf [Rule.as "string_fragment" (the "_template_chars"), the "template_type"]), "`"]),
  ("infer_type",
    toRight (chain ["infer", the "_type_identifier", optional (chain ["extends", the "type"])])),
  ("conditional_type",
    toRight (chain [field "left" (the "type"), "extends", field "right" (the "type"), "?",
      field "consequence" (the "type"), ":", field "alternative" (the "type")])),
  ("generic_type",
    bind "call" (chain [field "name" (oneOf [the "_type_identifier", the "nested_type_identifier"]),
      field "type_arguments" (the "type_arguments")])),
  ("type_predicate",
    chain [field "name" (oneOf [the "identifier", the "this",
        Rule.as "identifier" (the "predefined_type")]), "is", field "type" (the "type")]),
  ("type_predicate_annotation", chain [":", the "type_predicate"]),
  ("_type_query_member_expression",
    chain [field "object" (oneOf [the "identifier", the "this",
        Rule.as "subscript_expression" (the "_type_query_subscript_expression"),
        Rule.as "member_expression" (the "_type_query_member_expression"),
        Rule.as "call_expression" (the "_type_query_call_expression")]), oneOf [".", "?."],
      field "property" (oneOf [the "private_property_identifier",
        Rule.as "property_identifier" (the "identifier")])]),
  ("_type_query_subscript_expression",
    chain [field "object" (oneOf [the "identifier", the "this",
        Rule.as "subscript_expression" (the "_type_query_subscript_expression"),
        Rule.as "member_expression" (the "_type_query_member_expression"),
        Rule.as "call_expression" (the "_type_query_call_expression")]), optional "?.", "[",
      field "index" (oneOf [the "predefined_type", the "string", the "number"]), "]"]),
  ("_type_query_call_expression",
    chain [field "function" (oneOf [the "import", the "identifier",
        Rule.as "member_expression" (the "_type_query_member_expression"),
        Rule.as "subscript_expression" (the "_type_query_subscript_expression")]),
      field "arguments" (the "arguments")]),
  ("_type_query_instantiation_expression",
    chain [field "function" (oneOf [the "import", the "identifier",
        Rule.as "member_expression" (the "_type_query_member_expression"),
        Rule.as "subscript_expression" (the "_type_query_subscript_expression")]),
      field "type_arguments" (the "type_arguments")]),
  ("type_query",
    toRight (chain ["typeof",
      oneOf [Rule.as "subscript_expression" (the "_type_query_subscript_expression"),
        Rule.as "member_expression" (the "_type_query_member_expression"),
        Rule.as "call_expression" (the "_type_query_call_expression"),
        Rule.as "instantiation_expression" (the "_type_query_instantiation_expression"),
        the "identifier", the "this"]])),
  ("index_type_query", chain ["keyof", the "primary_type"]),
  ("lookup_type", chain [the "primary_type", "[", the "type", "]"]),
  ("mapped_type_clause",
    chain [field "name" (the "_type_identifier"), "in", field "type" (the "type"),
      optional (chain ["as", field "alias" (the "type")])]),
  ("literal_type",
    oneOf [Rule.as "unary_expression" (the "_number"), the "number", the "string", the "true",
      the "false", the "null", the "undefined"]),
  ("_number",
    ranked (.level 1) Side.left (chain [field "operator" (oneOf ["-", "+"]),
      field "argument" (the "number")])),
  ("existential_type", "*"),
  ("flow_maybe_type", toRight (chain ["?", the "primary_type"])),
  ("parenthesized_type", chain ["(", the "type", ")"]),
  ("predefined_type",
    oneOf ["any", "number", "boolean", "string", "symbol",
      rename ⟨"unique symbol", false⟩ (chain ["unique", "symbol"]), "void", "unknown", "string",
      "never", "object"]),
  ("type_arguments", chain ["<", listed (the "type"), optional ",", ">"]),
  ("object_type",
    chain [oneOf [lbrace, "\x7b|"],
      optional (chain [optional (oneOf [",", ";"]),
        separated (oneOf [",", the "_semicolon"]) (oneOf [the "export_statement",
          the "property_signature", the "call_signature", the "construct_signature",
          the "index_signature", the "method_signature"]),
        optional (oneOf [",", the "_semicolon"])]), oneOf [rbrace, "|\x7d"]]),
  ("call_signature", the "_call_signature"),
  ("property_signature",
    chain [optional (the "accessibility_modifier"), optional "static",
      optional (the "override_modifier"), optional "readonly",
      field "name" (the "_property_name"), optional "?",
      field "type" (optional (the "type_annotation"))]),
  ("type_parameters", chain ["<", listed (the "type_parameter"), optional ",", ">"]),
  ("type_parameter",
    chain [optional "const", field "name" (the "_type_identifier"),
      field "constraint" (optional (the "constraint")),
      field "value" (optional (the "default_type"))]),
  ("default_type", chain ["=", the "type"]),
  ("constraint", chain [oneOf ["extends", ":"], the "type"]),
  ("construct_signature",
    chain [optional "abstract", "new", field "type_parameters" (optional (the "type_parameters")),
      field "parameters" (the "formal_parameters"),
      field "type" (optional (the "type_annotation"))]),
  ("index_signature",
    chain [optional (chain [field "sign" (optional (oneOf ["-", "+"])), "readonly"]), "[",
      oneOf [chain [field "name" (oneOf [the "identifier",
            Rule.as "identifier" (the "_reserved_identifier")]), ":",
          field "index_type" (the "type")], the "mapped_type_clause"], "]",
      field "type" (oneOf [the "type_annotation", the "omitting_type_annotation",
        the "adding_type_annotation", the "opting_type_annotation"])]),
  ("array_type", chain [the "primary_type", "[", "]"]),
  ("tuple_type", chain ["[", optional (listed (the "_tuple_type_member")), optional ",", "]"]),
  ("readonly_type", chain ["readonly", the "type"]),
  ("union_type", toLeft (chain [optional (the "type"), "|", the "type"])),
  ("intersection_type", toLeft (chain [optional (the "type"), "&", the "type"])),
  ("function_type",
    toLeft (chain [field "type_parameters" (optional (the "type_parameters")),
      field "parameters" (the "formal_parameters"), "=>",
      field "return_type" (oneOf [the "type", the "asserts", the "type_predicate"])])),
  ("_type_identifier", Rule.as "type_identifier" (the "identifier"))
]

end CodeSurvey.TypeScript
