import CodeSurvey.Grammar.Rule

/-! # Orders of ranks

Each list orders some ranks and constructs from the tightest to the loosest.  Two
readings of the same words are compared by the first list that names both. -/

namespace CodeSurvey.TypeScript

/-- The orders by which competing readings are settled. -/
def rankOrders : List (List RankEntry) :=
  [
    [.rank "member", .rank "template_call", .rank "call", .construct "update_expression",
      .rank "unary_void", .rank "binary_exp", .rank "binary_times", .rank "binary_plus",
      .rank "binary_shift", .rank "binary_compare", .rank "binary_relation",
      .rank "binary_equality", .rank "bitwise_and", .rank "bitwise_xor", .rank "bitwise_or",
      .rank "logical_and", .rank "logical_or", .rank "ternary", .construct "sequence_expression",
      .construct "arrow_function"],
    [.rank "assign", .construct "primary_expression"],
    [.rank "member", .rank "template_call", .rank "new", .rank "call", .construct "expression"],
    [.rank "declare", .rank "literal"],
    [.construct "primary_expression", .construct "statement_block", .rank "object"],
    [.construct "meta_property", .construct "import"],
    [.construct "import_statement", .construct "import"],
    [.construct "export_statement", .construct "primary_expression"],
    [.construct "lexical_declaration", .construct "primary_expression"],
    [.rank "call", .rank "instantiation", .rank "unary", .rank "binary",
      .construct "await_expression", .construct "arrow_function"],
    [.rank "extends", .rank "instantiation"],
    [.construct "intersection_type", .construct "union_type", .construct "conditional_type",
      .construct "function_type", .rank "binary", .construct "type_predicate",
      .construct "readonly_type"],
    [.construct "mapped_type_clause", .construct "primary_expression"],
    [.construct "accessibility_modifier", .construct "primary_expression"],
    [.rank "unary_void", .construct "expression"],
    [.construct "extends_clause", .construct "primary_expression"],
    [.rank "unary", .rank "assign"],
    [.rank "declare", .construct "expression"],
    [.construct "predefined_type", .construct "unary_expression"],
    [.construct "type", .construct "flow_maybe_type"],
    [.construct "tuple_type", .construct "array_type", .construct "pattern", .construct "type"],
    [.construct "readonly_type", .construct "pattern"],
    [.construct "readonly_type", .construct "primary_expression"],
    [.construct "type_query", .construct "subscript_expression", .construct "expression"],
    [.construct "type_query", .construct "_type_query_subscript_expression"],
    [.construct "nested_type_identifier", .construct "generic_type", .construct "primary_type",
      .construct "lookup_type", .construct "index_type_query", .construct "type"],
    [.construct "as_expression", .construct "satisfies_expression", .construct "primary_type"],
    [.construct "_type_query_member_expression", .construct "member_expression"],
    [.construct "member_expression",
      .construct "_type_query_member_expression_in_type_annotation"],
    [.construct "_type_query_member_expression", .construct "primary_expression"],
    [.construct "_type_query_subscript_expression", .construct "subscript_expression"],
    [.construct "_type_query_subscript_expression", .construct "primary_expression"],
    [.construct "_type_query_call_expression", .construct "primary_expression"],
    [.construct "_type_query_instantiation_expression", .construct "primary_expression"],
    [.construct "type_query", .construct "primary_expression"],
    [.construct "override_modifier", .construct "primary_expression"],
    [.construct "decorator_call_expression", .construct "decorator"],
    [.construct "literal_type", .construct "pattern"],
    [.construct "predefined_type", .construct "pattern"],
    [.construct "call_expression", .construct "_type_query_call_expression"],
    [.construct "call_expression", .construct "_type_query_call_expression_in_type_annotation"],
    [.construct "new_expression", .construct "primary_expression"],
    [.construct "meta_property", .construct "primary_expression"],
    [.construct "construct_signature", .construct "_property_name"]
  ]

end CodeSurvey.TypeScript
