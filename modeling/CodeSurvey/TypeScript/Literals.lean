import CodeSurvey.TypeScript.Words
import CodeSurvey.TypeScript.Lexemes

/-! # Literals and names

The rules for string, template, regular expression and number literals, for comments,
names and the words that are expressions of their own. -/

namespace CodeSurvey.TypeScript

open Rule (chain oneOf optional many repeated separated listed field rename bind bindLeft bindRight
  toLeft toRight ranked weighted)

/-- The rules for literals and names. -/
def literalRules : List (String × Rule) := [
  ("string",
    oneOf [chain ["\"",
        many (oneOf [Rule.as "string_fragment" (the "unescaped_double_string_fragment"),
          the "escape_sequence"]), "\""],
      chain ["'",
        many (oneOf [Rule.as "string_fragment" (the "unescaped_single_string_fragment"),
          the "escape_sequence"]), "'"]]),
  ("unescaped_double_string_fragment", .lexeme (.adjoining (Lexemes.stringPart '"') 1)),
  ("unescaped_single_string_fragment", .lexeme (.adjoining (Lexemes.stringPart '\'') 1)),
  ("escape_sequence", .lexeme (.adjoining Lexemes.escape 0)),
  ("comment", .lexeme (.ofPattern (.orP Lexemes.lineComment Lexemes.blockComment))),
  ("template_string",
    chain ["`",
      many (oneOf [Rule.as "string_fragment" (the "_template_chars"), the "escape_sequence",
        the "template_substitution"]), "`"]),
  ("template_substitution", chain ["$\x7b", the "_expressions", rbrace]),
  ("regex",
    chain ["/", field "pattern" (the "regex_pattern"), the "regex_end",
      optional (field "flags" (the "regex_flags"))]),
  ("regex_pattern", .lexeme (.adjoining Lexemes.regexBody (-1))),
  ("regex_end", .lexeme (.adjoiningText "/" 1)),
  ("regex_flags", .lexeme (.adjoining Lexemes.regexFlags 0)),
  ("number", .lexeme (.ofPattern Lexemes.number)),
  ("_identifier", oneOf [the "undefined", the "identifier"]),
  ("identifier", .lexeme (.ofPattern Lexemes.identifier)),
  ("private_property_identifier", .lexeme (.ofPattern Lexemes.privateName)),
  ("meta_property", oneOf [chain ["new", ".", "target"], chain ["import", ".", "meta"]]),
  ("this", .lexeme (.ofText "this")),
  ("super", .lexeme (.ofText "super")),
  ("true", .lexeme (.ofText "true")),
  ("false", .lexeme (.ofText "false")),
  ("null", .lexeme (.ofText "null")),
  ("undefined", .lexeme (.ofText "undefined"))
]

end CodeSurvey.TypeScript
