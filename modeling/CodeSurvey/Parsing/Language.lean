import CodeSurvey.Grammar.Item

/-! # Languages

A language is a grammar made ready for use: its table of items, what is needed to
read tokens, and the way to find the tokens that depend on their surroundings. -/

namespace CodeSurvey

open Std (HashMap)

/-- A token found by its surroundings. -/
structure LayoutMatch where
  token : String
  start : Nat
  stop : Nat
deriving DecidableEq, Repr, Inhabited

/-- Find a layout token at an index of a source, given which tokens are expected there. -/
abbrev LayoutFinder := Source → Nat → (String → Bool) → Option LayoutMatch

/-- A grammar ready for use. -/
structure Language where
  table : ItemTable
  /-- The token for names. -/
  name : Nat
  keywords : HashMap String Nat
  /-- By terminal: whether it is a keyword. -/
  isKeyword : Array Bool
  extras : List Nat
  blanks : GlyphSet
  layout : LayoutFinder
  /-- The tokens that are looked for where no expected one is found. -/
  anywhere : List Nat

namespace Language

/-- Make a grammar ready for use. -/
def ofGrammar (g : Grammar) (layout : LayoutFinder) : Language :=
  let table := ItemTable.ofGrammar g
  let v := table.vocabulary
  let terminals := v.terminals.toList.zipIdx
  let isKeyword := v.terminals.map fun t => (t.lexeme.map Lexeme.isKeyword).getD false
  { table
    name := v.number g.name
    keywords := HashMap.ofList <| terminals.filterMap fun (t, i) =>
      t.lexeme.bind fun l => if l.isKeyword then l.fixed.map fun s => (s, i) else none
    isKeyword
    extras := g.extras.map v.number
    blanks := g.blanks
    layout
    anywhere := terminals.filterMap fun (t, i) =>
      if t.lexeme.isSome && !isKeyword.getD i false && !g.inner.contains t.name then some i
      else none }

/-- The symbols of the language. -/
def vocabulary (l : Language) : Vocabulary := l.table.vocabulary

/-- The lexeme of a terminal. -/
def lexeme? (l : Language) (t : Nat) : Option Lexeme := (l.vocabulary.terminals.getD t default).lexeme

/-- Whether a token may stand between any two others. -/
def isExtra (l : Language) (t : Nat) : Bool := l.extras.contains t

end Language

end CodeSurvey
