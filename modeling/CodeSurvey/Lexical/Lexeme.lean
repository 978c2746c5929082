import CodeSurvey.Lexical.Pattern

/-! # Lexemes

A lexeme is a regular pattern together with what decides between several lexemes
that match at the same point: its priority, and whether it has to start exactly
where the text stands (`tight`) or may be preceded by blank space. -/

namespace CodeSurvey

/-- A class of tokens. -/
structure Lexeme where
  pattern : Pattern
  /-- A lexeme of higher priority wins, however long the others match. -/
  priority : Int
  /-- No blank space is skipped before the lexeme. -/
  tight : Bool
  /-- Between matches of equal priority and length the higher preference wins. -/
  preference : Nat
  /-- The text, if the lexeme has only one. -/
  fixed : Option String
deriving DecidableEq, Repr, Inhabited, Hashable

namespace Lexeme

/-- A lexeme given by a pattern. -/
def ofPattern (p : Pattern) : Lexeme := ⟨p, 0, false, 0, none⟩

/-- A fixed word or sign. -/
def ofText (s : String) : Lexeme := ⟨.text s, 0, false, 2, some s⟩

/-- A lexeme that follows its predecessor directly. -/
def adjoining (p : Pattern) (priority : Int) : Lexeme := ⟨p, priority, true, 1, none⟩

/-- A fixed sign that follows its predecessor directly. -/
def adjoiningText (s : String) (priority : Int) : Lexeme := ⟨.text s, priority, true, 3, some s⟩

/-- Whether the lexeme is a single word of letters. -/
def isKeyword (l : Lexeme) : Bool :=
  match l.fixed with
  | some s => !l.tight && s.toList.all fun c => c.isAlpha || c == '_'
  | none => false

end Lexeme

end CodeSurvey
