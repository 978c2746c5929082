import CodeSurvey.Parsing.Automaton

/-! # Reading tokens

Which token stands at a point depends on what the parser expects there.  A layout
token is tried first, then the expected lexemes: of those that match, the one of the
highest priority is taken, among those the longest.  A name that spells a keyword is
that keyword if the parser can do something with it, and a name otherwise.

Where nothing expected is found, every token of the language is tried; where even
that fails, the text up to the next readable token is one unreadable token. -/

namespace CodeSurvey

/-- A token of a source: `padding` is where the blank space before it begins. -/
structure Token where
  /-- None for text that is no token of the language. -/
  symbol : Option Nat
  padding : Nat
  start : Nat
  stop : Nat
  /-- Whether the token spells a keyword, be it read as one or not. -/
  keyword : Bool
deriving Repr, Inhabited

/-- What is looked for at a point. -/
structure Expectation where
  lexemes : List Nat
  /-- Whether a token is expected, by number. -/
  expects : Nat → Bool

namespace Language

/-- The first index from `i` on that is not blank. -/
def skipBlanks (l : Language) (s : Source) (i : Nat) : Nat :=
  if h : i < s.glyphs.size then
    if l.blanks.mem s.glyphs[i] then skipBlanks l s (i + 1) else i
  else i
termination_by s.glyphs.size - i

/-- A lexeme that matches at a point. -/
structure Candidate where
  symbol : Nat
  start : Nat
  stop : Nat
  lexeme : Lexeme

/-- Whether the first candidate is taken rather than the second, which was met before. -/
def Candidate.beats (a b : Candidate) : Bool :=
  compare a.lexeme.priority b.lexeme.priority
    |>.then (compare a.stop b.stop)
    |>.then (compare a.lexeme.preference b.lexeme.preference)
    |>.then (compare b.symbol a.symbol)
    |>.isGT

/-- The best match among some lexemes at index `i`, and how far any of them got. -/
def bestMatch (l : Language) (s : Source) (i : Nat) (lexemes : List Nat) :
    Option Candidate × Nat :=
  let afterBlanks := l.skipBlanks s i
  lexemes.foldl
    (fun acc t =>
      match l.lexeme? t with
      | none => acc
      | some lexeme =>
        let start := if lexeme.tight then i else afterBlanks
        let reach := lexeme.pattern.scan s start
        let viable := max acc.2 reach.viable
        match reach.matched with
        | none => (acc.1, viable)
        | some stop =>
          let c : Candidate := ⟨t, start, stop, lexeme⟩
          match acc.1 with
          | none => (some c, viable)
          | some b => (if c.beats b then some c else some b, viable))
    (none, afterBlanks)

/-- The expectation in a state; without a row, every token is looked for. -/
def expectation (l : Language) (row : Option Row) : Expectation :=
  match row with
  | some r => ⟨r.lexemes, fun t => !(r.actions.getD t []).isEmpty || l.isExtra t⟩
  | none => ⟨l.anywhere, fun _ => true⟩

/-- The layout token at index `i`, with its symbol. -/
def layoutAt (l : Language) (s : Source) (i : Nat) (e : Expectation) : Option (Nat × Nat × Nat) :=
  let expects (name : String) : Bool := ((l.vocabulary.token? name).map e.expects).getD false
  (l.layout s i expects).bind fun m =>
    (l.vocabulary.token? m.token).map fun t => (t, m.start, m.stop)

/-- A matched lexeme as a token.  `usable` tells which keywords the parser can use. -/
def tokenOf (l : Language) (s : Source) (padding : Nat) (usable : Nat → Bool) (c : Candidate) :
    Token :=
  let plain : Token := ⟨some c.symbol, padding, c.start, c.stop, false⟩
  if c.symbol != l.name then plain
  else
    let text := (s.slice? (s.place c.start).byte (s.place c.stop).byte).getD ""
    match l.keywords[text]? with
    | none => plain
    | some k => { plain with symbol := some (if usable k then k else c.symbol), keyword := true }

/-- An expected token at index `i`, or how far the search got.  An empty layout token
counts only where `mayBeEmpty` allows it. -/
def expectedToken (l : Language) (s : Source) (padding i : Nat) (e : Expectation)
    (usable : Nat → Bool) (mayBeEmpty : Nat → Bool) : Token ⊕ Nat :=
  match (l.layoutAt s i e).filter fun (t, _, stop) => padding < stop || mayBeEmpty t with
  | some (t, start, stop) => .inl ⟨some t, padding, start, stop, false⟩
  | none =>
    match l.bestMatch s i e.lexemes with
    | (some c, _) =>
      if c.start < c.stop then .inl (l.tokenOf s padding usable c) else .inr c.start
    | (none, viable) =>
      let j := l.skipBlanks s i
      if j = s.size && e.expects l.vocabulary.endSymbol then
        .inl ⟨some l.vocabulary.endSymbol, padding, j, j, false⟩
      else .inr viable

/-- The unreadable text from `start` on: it ends where a token of the language can be
read, or with the source.  `i` is how far it reaches already. -/
def unreadable (l : Language) (s : Source) (padding start : Nat) (e : Expectation) :
    Nat → Nat → Token
  | 0, i => ⟨none, padding, start, i, false⟩
  | fuel + 1, i =>
    let done : Token := ⟨none, padding, start, i, false⟩
    match l.expectedToken s i i e (fun _ => true) (fun _ => false) with
    | .inl _ => done
    | .inr viable =>
      let j := max viable (l.skipBlanks s i)
      if i < j then unreadable l s padding start e fuel j
      else if i < s.size then unreadable l s padding start e fuel (i + 1)
      else done

/-- The token at index `i` for a parser that expects what `row` says, or anything if it
has no row.  `mayBeEmpty` tells which layout tokens may be empty there. -/
def nextToken (l : Language) (s : Source) (i : Nat) (row : Option Row)
    (mayBeEmpty : Nat → Bool) : Token :=
  let byteOrderMark := i = 0 && s.glyph? 0 == some (.char '\uFEFF')
  let from_ := if byteOrderMark then 1 else i
  let e := l.expectation row
  match l.expectedToken s i from_ e e.expects mayBeEmpty with
  | .inl t => t
  | .inr _ =>
    let any := l.expectation none
    match l.expectedToken s i from_ any e.expects (fun _ => false) with
    | .inl t => t
    | .inr viable =>
      let start := l.skipBlanks s from_
      let reached := max viable start
      let first := if start < reached then reached else min (start + 1) s.size
      l.unreadable s i start any (s.size + 1) first

end Language

end CodeSurvey
