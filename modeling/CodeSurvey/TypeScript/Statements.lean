import CodeSurvey.TypeScript.Words

/-! # Statements

The rules for statements.  Where a semicolon may be left out, the rules name the
layout token `_automatic_semicolon`. -/

namespace CodeSurvey.TypeScript

open Rule (chain oneOf optional many repeated separated listed field rename bind bindLeft bindRight
  toLeft toRight ranked weighted)

/-- The rules for statements. -/
def statementRules : List (String × Rule) := [
  ("statement",
    oneOf [the "export_statement", the "import_statement", the "debugger_statement",
      the "expression_statement", the "declaration", the "statement_block", the "if_statement",
      the "switch_statement", the "for_statement", the "for_in_statement", the "while_statement",
      the "do_statement", the "try_statement", the "with_statement", the "break_statement",
      the "continue_statement", the "return_statement", the "throw_statement",
      the "empty_statement", the "labeled_statement"]),
  ("expression_statement", chain [the "_expressions", the "_semicolon"]),
  ("variable_declaration", chain ["var", listed (the "variable_declarator"), the "_semicolon"]),
  ("lexical_declaration",
    chain [field "kind" (oneOf ["let", "const"]), listed (the "variable_declarator"),
      the "_semicolon"]),
  ("variable_declarator",
    oneOf [chain [field "name" (oneOf [the "identifier", the "_destructuring_pattern"]),
        field "type" (optional (the "type_annotation")), optional (the "_initializer")],
      bind "declare" (chain [field "name" (the "identifier"), "!",
        field "type" (the "type_annotation")])]),
  ("statement_block",
    toRight (chain [lbrace, many (the "statement"), rbrace, optional (the "_automatic_semicolon")])),
  ("else_clause", chain ["else", the "statement"]),
  ("if_statement",
    toRight (chain ["if", field "condition" (the "parenthesized_expression"),
      field "consequence" (the "statement"), optional (field "alternative" (the "else_clause"))])),
  ("switch_statement",
    chain ["switch", field "value" (the "parenthesized_expression"),
      field "body" (the "switch_body")]),
  ("for_statement",
    chain ["for", "(",
      oneOf [field "initializer" (oneOf [the "lexical_declaration", the "variable_declaration"]),
        chain [field "initializer" (the "_expressions"), ";"],
        field "initializer" (the "empty_statement")],
      field "condition" (oneOf [chain [the "_expressions", ";"], the "empty_statement"]),
      field "increment" (optional (the "_expressions")), ")", field "body" (the "statement")]),
  ("for_in_statement",
    chain ["for", optional "await", the "_for_header", field "body" (the "statement")]),
  ("_for_header",
    chain ["(",
      oneOf [field "left" (oneOf [the "_lhs_expression", the "parenthesized_expression"]),
        chain [field "kind" "var",
          field "left" (oneOf [the "identifier", the "_destructuring_pattern"]),
          optional (the "_initializer")],
        chain [field "kind" (oneOf ["let", "const"]),
          field "left" (oneOf [the "identifier", the "_destructuring_pattern"]),
          optional (the "_automatic_semicolon")]], field "operator" (oneOf ["in", "of"]),
      field "right" (the "_expressions"), ")"]),
  ("while_statement",
    chain ["while", field "condition" (the "parenthesized_expression"),
      field "body" (the "statement")]),
  ("do_statement",
    toRight (chain ["do", field "body" (the "statement"), "while",
      field "condition" (the "parenthesized_expression"), optional (the "_semicolon")])),
  ("try_statement",
    chain ["try", field "body" (the "statement_block"),
      optional (field "handler" (the "catch_clause")),
      optional (field "finalizer" (the "finally_clause"))]),
  ("with_statement",
    chain ["with", field "object" (the "parenthesized_expression"),
      field "body" (the "statement")]),
  ("break_statement",
    chain ["break", field "label" (optional (Rule.as "statement_identifier" (the "identifier"))),
      the "_semicolon"]),
  ("continue_statement",
    chain ["continue",
      field "label" (optional (Rule.as "statement_identifier" (the "identifier"))),
      the "_semicolon"]),
  ("debugger_statement", chain ["debugger", the "_semicolon"]),
  ("return_statement", chain ["return", optional (the "_expressions"), the "_semicolon"]),
  ("throw_statement", chain ["throw", the "_expressions", the "_semicolon"]),
  ("empty_statement", ";"),
  ("labeled_statement",
    weighted (-1) (chain [field "label" (Rule.as "statement_identifier" (oneOf [the "identifier",
        the "_reserved_identifier"])), ":", field "body" (the "statement")])),
  ("switch_body", chain [lbrace, many (oneOf [the "switch_case", the "switch_default"]), rbrace]),
  ("switch_case",
    chain ["case", field "value" (the "_expressions"), ":", field "body" (many (the "statement"))]),
  ("switch_default", chain ["default", ":", field "body" (many (the "statement"))]),
  ("catch_clause",
    chain ["catch",
      optional (chain ["(",
        field "parameter" (oneOf [the "identifier", the "_destructuring_pattern"]),
        optional (field "type" (the "type_annotation")), ")"]),
      field "body" (the "statement_block")]),
  ("finally_clause", chain ["finally", field "body" (the "statement_block")])
]

end CodeSurvey.TypeScript
