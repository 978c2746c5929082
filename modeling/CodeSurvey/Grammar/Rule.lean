import CodeSurvey.Lexical.Lexeme

/-! # Grammar rules

A grammar gives each construct of a language a rule.  Beside the usual operators
a rule may say how a part is called in the tree (`field`, `rename`) and how tightly
it binds (`ranked`, `weighted`); these marks settle ambiguities and do not change
what a rule derives.

* A `Rank` compares two ways to go on with the same words: by number, or by the
  place of a name in one of the grammar's orders.
* A `Side` says to which side a construct of equal rank groups.
* A weight compares finished trees of the same words. -/

namespace CodeSurvey

/-- How tightly a construct binds. -/
inductive Rank where
  | level (n : Int)
  | named (name : String)
deriving DecidableEq, Repr, Inhabited, Hashable

/-- To which side a construct groups among constructs of the same rank. -/
inductive Side where
  | left
  | right
deriving DecidableEq, Repr, Inhabited, Hashable

/-- Another kind under which a part appears in the tree. -/
structure Rename where
  kind : String
  /-- Whether the kind is that of a construct, or of a plain word. -/
  named : Bool
deriving DecidableEq, Repr, Inhabited, Hashable

/-- What a construct consists of. -/
inductive Rule where
  | blank
  /-- A word or sign. -/
  | word (text : String)
  /-- A token of a lexical class; the construct is that token. -/
  | lexeme (l : Lexeme)
  /-- Another construct. -/
  | ref (name : String)
  | seq (a b : Rule)
  | choice (a b : Rule)
  /-- One or more times. -/
  | repeated (r : Rule)
  | field (name : String) (r : Rule)
  | rename (shown : Rename) (r : Rule)
  | ranked (rank : Rank) (side : Option Side) (r : Rule)
  | weighted (n : Int) (r : Rule)
deriving DecidableEq, Repr, Inhabited, Hashable

namespace Rule

instance : Coe String Rule := ⟨Rule.word⟩

/-- The rules of a list, one after the other. -/
def chain : List Rule → Rule
  | [] => blank
  | [r] => r
  | r :: rs => seq r (chain rs)

/-- Any rule of a list. -/
def oneOf : List Rule → Rule
  | [] => blank
  | [r] => r
  | r :: rs => choice r (oneOf rs)

/-- The rule or nothing. -/
def optional (r : Rule) : Rule := choice r blank

/-- Any number of times. -/
def many (r : Rule) : Rule := choice (repeated r) blank

/-- One or more, separated by a rule. -/
def separated (sep r : Rule) : Rule := seq r (many (seq sep r))

/-- One or more, separated by commas. -/
def listed (r : Rule) : Rule := separated (word ",") r

/-- A construct under another kind. -/
def as (kind : String) (r : Rule) : Rule := rename ⟨kind, true⟩ r

/-- A rule with a named rank. -/
def bind (rank : String) (r : Rule) : Rule := ranked (.named rank) none r

/-- A rule with a named rank that groups to the left. -/
def bindLeft (rank : String) (r : Rule) : Rule := ranked (.named rank) Side.left r

/-- A rule with a named rank that groups to the right. -/
def bindRight (rank : String) (r : Rule) : Rule := ranked (.named rank) Side.right r

/-- A rule of no rank that groups to the left. -/
def toLeft (r : Rule) : Rule := ranked (.level 0) Side.left r

/-- A rule of no rank that groups to the right. -/
def toRight (r : Rule) : Rule := ranked (.level 0) Side.right r

end Rule

/-- An entry of an order of ranks: the name of a rank, or a construct. -/
inductive RankEntry where
  | rank (name : String)
  | construct (name : String)
deriving DecidableEq, Repr, Inhabited

/-- A grammar: its rules, the first of which is the start, and what surrounds them. -/
structure Grammar where
  rules : List (String × Rule)
  /-- Constructs whose parts take their place wherever they occur. -/
  inlined : List String
  /-- Orders of ranks, each from the tightest to the loosest. -/
  orders : List (List RankEntry)
  /-- The construct for names, which a keyword is whenever the grammar expects none. -/
  name : String
  /-- Blank space between tokens. -/
  blanks : GlyphSet
  /-- Tokens that may stand between any two others. -/
  extras : List String
  /-- Tokens that no pattern describes, since they depend on what surrounds them. -/
  layout : List String
  /-- Tokens that are looked for only where they are expected. -/
  inner : List String
  /-- Constructs that stand for a choice and never show in the tree. -/
  classes : List String

end CodeSurvey
