import CodeSurvey.TypeScript.Words
import CodeSurvey.TypeScript.Lexemes

/-! # Markup

The rules for markup elements inside expressions, which only one dialect has. -/

namespace CodeSurvey.TypeScript

open Rule (chain oneOf optional many repeated separated listed field rename bind bindLeft bindRight
  toLeft toRight ranked weighted)

/-- The rules for markup. -/
def markupRules : List (String × Rule) := [
  ("jsx_element",
    chain [field "open_tag" (the "jsx_opening_element"), many (the "_jsx_child"),
      field "close_tag" (the "jsx_closing_element")]),
  ("html_character_reference", .lexeme (.ofPattern Lexemes.characterReference)),
  ("jsx_expression",
    chain [lbrace,
      optional (oneOf [the "expression", the "sequence_expression", the "spread_element"]),
      rbrace]),
  ("_jsx_child",
    oneOf [the "jsx_text", the "html_character_reference", the "_jsx_element",
      the "jsx_expression"]),
  ("jsx_opening_element", weighted (-1) (chain [the "_jsx_start_opening_element", ">"])),
  ("jsx_identifier", .lexeme (.ofPattern Lexemes.hyphenatedName)),
  ("_jsx_identifier", oneOf [Rule.as "identifier" (the "jsx_identifier"), the "identifier"]),
  ("jsx_namespace_name", chain [the "_jsx_identifier", ":", the "_jsx_identifier"]),
  ("_jsx_element_name",
    oneOf [the "_jsx_identifier", Rule.as "member_expression" (the "nested_identifier"),
      the "jsx_namespace_name"]),
  ("jsx_closing_element", chain ["</", optional (field "name" (the "_jsx_element_name")), ">"]),
  ("jsx_self_closing_element", weighted (-1) (chain [the "_jsx_start_opening_element", "/>"])),
  ("_jsx_attribute", oneOf [the "jsx_attribute", the "jsx_expression"]),
  ("_jsx_attribute_name",
    oneOf [Rule.as "property_identifier" (the "_jsx_identifier"), the "jsx_namespace_name"]),
  ("jsx_attribute",
    chain [the "_jsx_attribute_name", optional (chain ["=", the "_jsx_attribute_value"])]),
  ("_jsx_string",
    oneOf [chain ["\"",
        many (oneOf [Rule.as "string_fragment" (the "unescaped_double_jsx_string_fragment"),
          the "html_character_reference"]), "\""],
      chain ["'",
        many (oneOf [Rule.as "string_fragment" (the "unescaped_single_jsx_string_fragment"),
          the "html_character_reference"]), "'"]]),
  ("unescaped_double_jsx_string_fragment", .lexeme (.adjoining (Lexemes.attributePart '"') 1)),
  ("unescaped_single_jsx_string_fragment", .lexeme (.adjoining (Lexemes.attributePart '\'') 1)),
  ("_jsx_attribute_value",
    oneOf [Rule.as "string" (the "_jsx_string"), the "jsx_expression", the "_jsx_element"]),
  ("_jsx_element", oneOf [the "jsx_element", the "jsx_self_closing_element"]),
  ("_jsx_start_opening_element",
    chain ["<",
      optional (chain [oneOf [field "name" (oneOf [the "_jsx_identifier",
            the "jsx_namespace_name"]),
          chain [field "name" (oneOf [the "identifier",
              Rule.as "member_expression" (the "nested_identifier")]),
            field "type_arguments" (optional (the "type_arguments"))]],
        many (field "attribute" (the "_jsx_attribute"))])])
]

end CodeSurvey.TypeScript
