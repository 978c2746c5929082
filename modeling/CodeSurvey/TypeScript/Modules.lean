import CodeSurvey.TypeScript.Words
import CodeSurvey.TypeScript.Lexemes

/-! # Modules: programs, exports and imports

The rules for a whole program, for export and import statements in all their forms,
and the class of declarations. -/

namespace CodeSurvey.TypeScript

open Rule (chain oneOf optional many repeated separated listed field rename bind bindLeft bindRight
  toLeft toRight ranked weighted)

/-- The rules for programs, exports and imports. -/
def moduleRules : List (String × Rule) := [
  ("program", chain [optional (the "hash_bang_line"), many (the "statement")]),
  ("hash_bang_line", .lexeme (.ofPattern Lexemes.hashBang)),
  ("export_statement",
    oneOf [oneOf [chain ["export",
          oneOf [chain ["*", the "_from_clause"],
            chain [the "namespace_export", the "_from_clause"],
            chain [the "export_clause", the "_from_clause"], the "export_clause"],
          the "_semicolon"],
        chain [many (field "decorator" (the "decorator")), "export",
          oneOf [field "declaration" (the "declaration"),
            chain ["default",
              oneOf [field "declaration" (the "declaration"),
                chain [field "value" (the "expression"), the "_semicolon"]]]]]],
      chain ["export", "type", the "export_clause", optional (the "_from_clause"),
        the "_semicolon"], chain ["export", "import", the "import_alias"],
      chain ["export", "=", the "expression", the "_semicolon"],
      chain ["export", "as", "namespace", the "identifier", the "_semicolon"]]),
  ("namespace_export", chain ["*", "as", the "_module_export_name"]),
  ("export_clause",
    chain [lbrace, optional (listed (the "export_specifier")), optional ",", rbrace]),
  ("export_specifier",
    chain [optional (oneOf ["type", "typeof"]),
      chain [field "name" (the "_module_export_name"),
        optional (chain ["as", field "alias" (the "_module_export_name")])]]),
  ("_module_export_name", oneOf [the "identifier", the "string"]),
  ("declaration",
    oneOf [oneOf [the "function_declaration", the "generator_function_declaration",
        the "class_declaration", the "lexical_declaration", the "variable_declaration"],
      the "function_signature", the "abstract_class_declaration", the "module",
      bind "declare" (the "internal_module"), the "type_alias_declaration",
      the "enum_declaration", the "interface_declaration", the "import_alias",
      the "ambient_declaration"]),
  ("import", "import"),
  ("import_statement",
    chain ["import", optional (oneOf ["type", "typeof"]),
      oneOf [chain [the "import_clause", the "_from_clause"], the "import_require_clause",
        field "source" (the "string")], optional (the "import_attribute"), the "_semicolon"]),
  ("import_clause",
    oneOf [the "namespace_import", the "named_imports",
      chain [the "_import_identifier",
        optional (chain [",", oneOf [the "namespace_import", the "named_imports"]])]]),
  ("_from_clause", chain ["from", field "source" (the "string")]),
  ("namespace_import", chain ["*", "as", the "identifier"]),
  ("named_imports",
    chain [lbrace, optional (listed (the "import_specifier")), optional ",", rbrace]),
  ("import_specifier",
    chain [optional (oneOf ["type", "typeof"]),
      oneOf [field "name" (the "_import_identifier"),
        chain [field "name" (oneOf [the "_module_export_name", Rule.as "identifier" "type"]),
          "as", field "alias" (the "_import_identifier")]]]),
  ("import_attribute", chain ["with", the "object"])
]

end CodeSurvey.TypeScript
