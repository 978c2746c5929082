import CodeSurvey.Parsing.Run
import CodeSurvey.Syntax.Shown
import CodeSurvey.TypeScript.Dialect
import CodeSurvey.TypeScript.Layout

/-! # Parsing TypeScript

`Dialect.parse` gives the tree of a source.  The parser rows of both dialects are
remembered from one source to the next (`ParserRows`); that does not change any tree. -/

namespace CodeSurvey.TypeScript

/-- The language of the plain dialect. -/
def plainLanguage : Language := Language.ofGrammar Dialect.plain.grammar Layout.find

/-- The language of the dialect with markup. -/
def markupLanguage : Language := Language.ofGrammar Dialect.markup.grammar Layout.find

/-- The parser rows that are known. -/
structure ParserRows where
  plain : plainLanguage.Rows
  markup : markupLanguage.Rows
deriving Inhabited

/-- The tree of a source. -/
def Dialect.parse : Dialect → Source → Memo ParserRows Tree
  | .plain, s => do
    let t ← (plainLanguage.parse s).within (·.plain) fun rows r => { rows with plain := r }
    return t.toTree plainLanguage s
  | .markup, s => do
    let t ← (markupLanguage.parse s).within (·.markup) fun rows r => { rows with markup := r }
    return t.toTree markupLanguage s

end CodeSurvey.TypeScript
