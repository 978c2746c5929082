import Std.Data.HashMap
import Std.Data.HashSet
import CodeSurvey.Grammar.Rule

/-! # From rules to productions

`Vocabulary.ofGrammar` turns the rules of a grammar into numbered symbols and
productions, which are plain sequences of steps:

* every word and every lexeme becomes a terminal, and so do the layout tokens and
  the end of the text;
* every other rule becomes a variable; a repetition becomes a variable of its own,
  which derives two of itself or its content;
* optional parts and choices are multiplied out (`Rule.alternatives`);
* the marks on a rule move to the steps that they enclose.

Symbols are numbered with the terminals first. -/

namespace CodeSurvey

open Std (HashMap HashSet)

/-- How a symbol shows in the tree. -/
inductive Visibility where
  /-- As a construct. -/
  | named
  /-- As a plain word. -/
  | plain
  /-- Not at all: its parts take its place. -/
  | hidden
deriving DecidableEq, Repr, Inhabited

/-- A terminal symbol; layout tokens and the end of the text have no lexeme. -/
structure Terminal where
  name : String
  visibility : Visibility
  lexeme : Option Lexeme
deriving Inhabited

/-- One symbol of a production with its marks. -/
structure Step where
  symbol : Nat
  rank : Option Rank
  side : Option Side
  rename : Option Rename
  field : Option String
deriving DecidableEq, Repr, Inhabited, Hashable

/-- A sequence of steps, with the weight of a tree built by it. -/
structure Production where
  steps : List Step
  weight : Int
deriving DecidableEq, Repr, Inhabited, Hashable

/-- A variable and its productions. -/
structure Variable where
  name : String
  visibility : Visibility
  /-- Whether the variable stands for a repetition. -/
  repetition : Bool
  productions : List Production
deriving Inhabited

/-! ### Numbering -/

/-- The numbers of words and of names. -/
structure Numbering where
  terminals : Array Terminal
  words : HashMap String Nat
  names : HashMap String Nat

namespace Numbering

/-- Number a word, unless it has a number. -/
def addWord (n : Numbering) (text : String) : Numbering :=
  if n.words.contains text then n
  else
    { n with
      terminals := n.terminals.push ⟨text, .plain, some (.ofText text)⟩
      words := n.words.insert text n.terminals.size }

/-- Number a token with a name. -/
def addToken (n : Numbering) (name : String) (visibility : Visibility) (lexeme : Option Lexeme) :
    Numbering :=
  { n with
    terminals := n.terminals.push ⟨name, visibility, lexeme⟩
    names := n.names.insert name n.terminals.size }

/-- Number the words that a rule holds, from left to right. -/
def addWordsOf (n : Numbering) : Rule → Numbering
  | .blank | .lexeme _ | .ref _ => n
  | .word text => n.addWord text
  | .seq a b | .choice a b => (n.addWordsOf a).addWordsOf b
  | .repeated r | .field _ r | .rename _ r | .ranked _ _ r | .weighted _ r => n.addWordsOf r

end Numbering

/-- A name that begins with a low line is not shown. -/
def visibilityOf (name : String) : Visibility :=
  if name.startsWith "_" then .hidden else .named

/-- The kind under which the end of the text counts as a token. -/
def endName : String := "end"

/-- The terminals of a grammar: words and lexemes in the order of the rules, then
the layout tokens, then the end of the text. -/
def Grammar.terminals (g : Grammar) : Numbering :=
  let add (n : Numbering) (entry : String × Rule) : Numbering :=
    match entry.2 with
    | .lexeme l => n.addToken entry.1 (visibilityOf entry.1) (some l)
    | r => n.addWordsOf r
  let ofRules := g.rules.foldl add ⟨#[], {}, {}⟩
  let withLayout := g.layout.foldl (fun n t => n.addToken t (visibilityOf t) none) ofRules
  withLayout.addToken endName .hidden none

/-! ### Repetitions -/

/-- The repetitions met so far, and the name of each. -/
structure Repetitions where
  known : HashMap Rule String
  found : Array (String × Rule)

/-- Replace every repetition in a rule by a reference to a variable; equal contents
share one. -/
def Rule.liftRepetitions (owner : String) : Rule → StateM Repetitions Rule
  | .seq a b => return .seq (← a.liftRepetitions owner) (← b.liftRepetitions owner)
  | .choice a b => return .choice (← a.liftRepetitions owner) (← b.liftRepetitions owner)
  | .field n r => return .field n (← r.liftRepetitions owner)
  | .rename n r => return .rename n (← r.liftRepetitions owner)
  | .ranked k s r => return .ranked k s (← r.liftRepetitions owner)
  | .weighted w r => return .weighted w (← r.liftRepetitions owner)
  | .repeated r => do
    let content ← r.liftRepetitions owner
    match (← get).known[content]? with
    | some name => return .ref name
    | none =>
      let name := owner ++ " repeated " ++ toString (← get).found.size
      let twice := Rule.seq (.ref name) (.ref name)
      modify fun s =>
        { known := s.known.insert content name, found := s.found.push (name, .choice twice content) }
      return .ref name
  | r => return r

/-! ### Multiplying out -/

/-- The marks that enclose a rule. -/
structure Marks where
  rank : Option Rank
  side : Option Side
  rename : Option Rename
  field : Option String

/-- The larger of two weights in absolute value; the first of two equal ones. -/
def heavier (a b : Int) : Int := if a.natAbs < b.natAbs then b else a

namespace Production

/-- One production after another. -/
def append (p q : Production) : Production := ⟨p.steps ++ q.steps, heavier p.weight q.weight⟩

/-- Change the last step, if there is one. -/
def mapLast (f : Step → Step) (p : Production) : Production :=
  match p.steps.reverse with
  | [] => p
  | s :: rest => { p with steps := (f s :: rest).reverse }

end Production

/-- The productions of a rule.  A rank reaches over all steps that it encloses, and
over the last of them only where the enclosing rule ends with it: what a finished
construct is ranked by is the rank of its last step. -/
def Rule.alternatives (n : Numbering) : Rule → Marks → Bool → List Production
  | .blank, _, _ => [⟨[], 0⟩]
  | .word text, m, _ =>
    [⟨[⟨n.words.getD text (n.terminals.size - 1), m.rank, m.side, m.rename, m.field⟩], 0⟩]
  | .ref name, m, _ =>
    [⟨[⟨n.names.getD name (n.terminals.size - 1), m.rank, m.side, m.rename, m.field⟩], 0⟩]
  | .lexeme _, _, _ => []
  | .seq a b, m, atEnd =>
    let rest := b.alternatives n m atEnd
    (a.alternatives n m false).flatMap fun p => rest.map p.append
  | .choice a b, m, atEnd => a.alternatives n m atEnd ++ b.alternatives n m atEnd
  | .repeated r, m, atEnd => r.alternatives n m atEnd
  | .field name r, m, atEnd => r.alternatives n { m with field := some name } atEnd
  | .rename shown r, m, atEnd => r.alternatives n { m with rename := some shown } atEnd
  | .ranked rank side r, m, atEnd =>
    let inner := r.alternatives n { m with rank := some rank, side := side <|> m.side } atEnd
    if atEnd then inner
    else inner.map <| Production.mapLast fun s =>
      { s with rank := m.rank, side := if side.isSome then m.side else s.side }
  | .weighted w r, m, atEnd =>
    (r.alternatives n m atEnd).map fun p => { p with weight := heavier w p.weight }

/-- The members of a list without repetition, in the order of their first occurrence. -/
def distinct {α : Type} [BEq α] [Hashable α] (xs : List α) : List α :=
  let keep (acc : Array α × HashSet α) (x : α) : Array α × HashSet α :=
    if acc.2.contains x then acc else (acc.1.push x, acc.2.insert x)
  (xs.foldl keep (#[], {})).1.toList

/-! ### Inlining -/

/-- Put a production in the place of a step.  The marks of the step go over to what
takes its place; its rank and side only to the last step, and only if that has none. -/
def Production.inPlaceOf (p : Production) (s : Step) : List Step :=
  let marked := p.steps.map fun t =>
    { t with rename := s.rename <|> t.rename, field := s.field <|> t.field }
  (Production.mapLast (fun t => { t with rank := t.rank <|> s.rank, side := t.side <|> s.side })
    ⟨marked, 0⟩).steps

/-- Replace the steps whose symbol is inlined, at most `depth` levels deep. -/
def Production.inline (bodies : HashMap Nat (List Production)) :
    Nat → Production → List Production
  | 0, p => [p]
  | depth + 1, p =>
    let expand (s : Step) : List Production :=
      match bodies[s.symbol]? with
      | none => [⟨[s], 0⟩]
      | some qs => qs.flatMap fun q => Production.inline bodies depth ⟨q.inPlaceOf s, q.weight⟩
    p.steps.foldr (fun s rest => (expand s).flatMap fun q => rest.map q.append) [⟨[], p.weight⟩]

/-! ### The vocabulary -/

/-- The numbered symbols of a grammar. -/
structure Vocabulary where
  terminals : Array Terminal
  constructs : Array Variable
  /-- The numbers of constructs and of tokens with a name. -/
  names : HashMap String Nat
  /-- The numbers of words and signs. -/
  words : HashMap String Nat

namespace Vocabulary

/-- The number of terminals, which is the number of the first variable. -/
def terminalCount (v : Vocabulary) : Nat := v.terminals.size

/-- The number of the end of the text. -/
def endSymbol (v : Vocabulary) : Nat := v.terminals.size - 1

/-- Whether a symbol is a terminal. -/
def isTerminal (v : Vocabulary) (s : Nat) : Bool := s < v.terminals.size

/-- The variable of a symbol. -/
def variableOf (v : Vocabulary) (s : Nat) : Variable := v.constructs.getD (s - v.terminals.size) default

/-- How a symbol shows in the tree. -/
def visibility (v : Vocabulary) (s : Nat) : Visibility :=
  if v.isTerminal s then (v.terminals.getD s default).visibility else (v.variableOf s).visibility

/-- The name of a symbol. -/
def nameOf (v : Vocabulary) (s : Nat) : String :=
  if v.isTerminal s then (v.terminals.getD s default).name else (v.variableOf s).name

/-- The number of a named construct or token; the end of the text for a foreign name. -/
def number (v : Vocabulary) (name : String) : Nat := v.names.getD name v.endSymbol

/-- The number of a token, by its name or by its text. -/
def token? (v : Vocabulary) (name : String) : Option Nat := v.names[name]? <|> v.words[name]?

/-- Number the symbols of a grammar and multiply out its rules. -/
def ofGrammar (g : Grammar) : Vocabulary :=
  let tokens := g.terminals
  let constructs := g.rules.filter fun entry =>
    match entry.2 with
    | .lexeme _ => false
    | _ => true
  let lift : StateM Repetitions (List (String × Rule)) :=
    constructs.mapM fun entry => return (entry.1, ← entry.2.liftRepetitions entry.1)
  let lifted := lift.run ⟨{}, #[]⟩
  let repeated := lifted.2.found.toList
  let all := lifted.1 ++ repeated
  let first := tokens.terminals.size
  let names := (all.zipIdx first).foldl (fun m entry => m.insert entry.1.1 entry.2) tokens.names
  let numbering : Numbering := { tokens with names }
  let productionsOf (r : Rule) : List Production :=
    distinct (r.alternatives numbering ⟨none, none, none, none⟩ true)
  let inlined := (all.filter fun entry => g.inlined.contains entry.1).map fun entry =>
    (names.getD entry.1 0, productionsOf entry.2)
  let bodies : HashMap Nat (List Production) := HashMap.ofList inlined
  let isRepeated : HashSet String := HashSet.ofList (repeated.map (·.1))
  let variableOfRule (entry : String × Rule) : Variable :=
    let repetition := isRepeated.contains entry.1
    { name := entry.1
      visibility :=
        if repetition || g.classes.contains entry.1 then .hidden else visibilityOf entry.1
      repetition
      productions :=
        if g.inlined.contains entry.1 then []
        else
          distinct ((productionsOf entry.2).flatMap
            (Production.inline bodies (g.inlined.length + 1))) }
  ⟨tokens.terminals, (all.map variableOfRule).toArray, names, tokens.words⟩

end Vocabulary

end CodeSurvey
