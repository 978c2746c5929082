import CodeSurvey.Parsing.Language

/-! # Layout tokens

Some tokens of TypeScript no pattern describes, since they depend on what surrounds
them:

* the semicolon that may be left out before a closing brace, at the end of the text,
  and at a line break that the statement cannot be read across;
* the question mark of a conditional expression, as against one that makes a
  parameter optional or a member access conditional;
* the plain parts of template literals and of markup;
* comments in the style of HTML.

`find` looks for the one that may stand at an index.  Here the NUL character counts as
the end of the text, and blank space is that of ASCII. -/

namespace CodeSurvey.TypeScript.Layout

/-- The glyph at an index; none at the end of the text and at NUL. -/
def peek (s : Source) (i : Nat) : Option Glyph :=
  match s.glyph? i with
  | some (.char c) => if c == '\x00' then none else some (.char c)
  | g => g

/-- Whether the character `c` stands at an index. -/
def isAt (s : Source) (i : Nat) (c : Char) : Bool := s.glyph? i == some (.char c)

/-- Whether one of the characters stands at an index. -/
def isOneOf (s : Source) (i : Nat) (cs : List Char) : Bool := cs.any (isAt s i)

/-- The first index from `i` on at which `p` fails, or at which the text ends. -/
def skipWhile (s : Source) (p : Glyph → Bool) (i : Nat) : Nat :=
  if _h : i < s.glyphs.size then
    match peek s i with
    | some g => if p g then skipWhile s p (i + 1) else i
    | none => i
  else i
termination_by s.glyphs.size - i

theorem le_skipWhile (s : Source) (p : Glyph → Bool) (i : Nat) : i ≤ skipWhile s p i := by
  fun_induction skipWhile s p i <;> omega

/-- The first index from `i` on that is not blank. -/
def skipBlanks (s : Source) (i : Nat) : Nat := skipWhile s Glyph.isAsciiBlank i

/-- Line and paragraph separators. -/
def isSeparator (g : Glyph) : Bool := g.is '\u2028' || g.is '\u2029'

/-! ### Comments and blank space -/

/-- The index after the comment that was opened before `i`, or the end of the text. -/
def afterBlockComment (s : Source) (i : Nat) : Nat :=
  if _h : i < s.glyphs.size then
    match peek s i with
    | none => i
    | some g =>
      if g.is '*' && isAt s (i + 1) '/' then i + 2 else afterBlockComment s (i + 1)
  else i
termination_by s.glyphs.size - i

theorem le_afterBlockComment (s : Source) (i : Nat) : i ≤ afterBlockComment s i := by
  fun_induction afterBlockComment s i <;> omega

/-- What lies between two tokens: where it ends, whether it is well-formed, and
whether a comment is part of it. -/
structure Gap where
  stop : Nat
  closed : Bool
  comment : Bool

/-- The blank space and the comments from index `i` on. -/
def gapFrom (s : Source) (i : Nat) (comment : Bool) : Gap :=
  let j := skipBlanks s i
  if _h : j < s.glyphs.size then
    if isAt s j '/' then
      if isAt s (j + 1) '/' then gapFrom s (skipWhile s (fun g => !g.is '\n') (j + 2)) true
      else if isAt s (j + 1) '*' then gapFrom s (afterBlockComment s (j + 2)) true
      else ⟨j + 1, false, comment⟩
    else ⟨j, true, comment⟩
  else ⟨j, true, comment⟩
termination_by s.glyphs.size - i
decreasing_by
  · have h1 : i ≤ skipBlanks s i := le_skipWhile s _ i
    have h2 := le_skipWhile s (fun g => !g.is '\n') (skipBlanks s i + 2)
    omega
  · have h1 : i ≤ skipBlanks s i := le_skipWhile s _ i
    have h2 := le_afterBlockComment s (skipBlanks s i + 2)
    omega

/-! ### Omitted semicolons -/

/-- The outcome of the search for an omitted semicolon: whether one may be supplied,
how far the search read, and whether it passed a comment. -/
structure SemicolonSearch where
  supplied : Bool
  stop : Nat
  comment : Bool

/-- Whether the letters at an index go on with `rest` one by one, and then with a letter.
A word that breaks off before that is another word. -/
def spellsOn (s : Source) (i : Nat) : List Char → Bool
  | [] => ((s.glyph? i).map Glyph.isAsciiLetter).getD false
  | c :: rest => if isAt s i c then spellsOn s (i + 1) rest else true

/-- Whether a line break before index `k` ends the statement, given what is expected:
not before a sign that goes on with an expression, and not before the operators `in`
and `instanceof`. -/
def breaksBefore (s : Source) (k : Nat) (expects : String → Bool) : Bool × Nat :=
  match peek s k with
  | some (.char c) =>
    if "`,.;*%><=?^|&/:".toList.contains c then (false, k)
    else if c == '\x7b' then (!expects "_function_signature_automatic_semicolon", k)
    else if c == '(' || c == '[' then (!expects "||", k)
    else if c == '+' then (isAt s (k + 1) '+', k + 1)
    else if c == '-' then (isAt s (k + 1) '-', k + 1)
    else if c == '!' then (!isAt s (k + 1) '=', k + 1)
    else if c == 'i' then
      if isAt s (k + 1) 'n' then
        if ((s.glyph? (k + 2)).map Glyph.isAsciiLetter).getD false then
          (spellsOn s (k + 2) "stanceof".toList, k + 2)
        else (false, k + 2)
      else (true, k + 1)
    else (true, k)
  | _ => (true, k)

/-- Look for an omitted semicolon from index `i` on. -/
def findSemicolon (s : Source) (expects : String → Bool) (i : Nat) : SemicolonSearch :=
  if _h : i < s.glyphs.size then
    match peek s i with
    | none => ⟨true, i, false⟩
    | some g =>
      if g.is '\x7d' then
        let k := skipBlanks s (i + 1)
        if isAt s k ':' then ⟨expects "||", k, false⟩ else ⟨true, k, false⟩
      else if !g.isAsciiBlank then ⟨false, i, false⟩
      else if g.is '\n' then
        let gap := gapFrom s (i + 1) false
        if gap.closed then
          let (supplied, k) := breaksBefore s gap.stop expects
          ⟨supplied, k, gap.comment⟩
        else ⟨false, gap.stop, gap.comment⟩
      else findSemicolon s expects (i + 1)
  else ⟨true, i, false⟩
termination_by s.glyphs.size - i

/-! ### The other layout tokens -/

/-- The question mark of a conditional expression, from index `i` on. -/
def findQuestionMark (s : Source) (i : Nat) : Option LayoutMatch :=
  let k := skipBlanks s i
  if isAt s k '?' then
    if isAt s (k + 1) '?' || isAt s (k + 1) '.' then none
    else
      let m := skipBlanks s (k + 1)
      let found : LayoutMatch := ⟨"_ternary_qmark", k, k + 1⟩
      if isOneOf s m [':', ')', ','] then none
      else if isAt s m '.' then
        if ((s.glyph? (m + 1)).map Glyph.isAsciiDigit).getD false then some found else none
      else some found
  else none

/-- The end of the plain part of a template literal from index `i` on; none if the
literal does not end. -/
def templateEnd (s : Source) (i : Nat) : Option Nat :=
  if _h : i < s.glyphs.size then
    match peek s i with
    | none => none
    | some g =>
      if g.is '`' || g.is '\\' then some i
      else if g.is '$' && isAt s (i + 1) '\x7b' then some i
      else templateEnd s (i + 1)
  else none
termination_by s.glyphs.size - i

/-- The plain part of markup from index `i` on: where it ends, and whether it is more
than a line break with the blank space after it. -/
def markupEnd (s : Source) (i : Nat) (seen afterBreak : Bool) : Nat × Bool :=
  if _h : i < s.glyphs.size then
    match peek s i with
    | none => (i, seen)
    | some g =>
      if g.is '<' || g.is '>' || g.is '\x7b' || g.is '\x7d' || g.is '&' then (i, seen)
      else if g.is '\n' then markupEnd s (i + 1) seen true
      else
        let inBreak := afterBreak && g.isAsciiBlank
        markupEnd s (i + 1) (seen || !inBreak) inBreak
  else (i, seen)
termination_by s.glyphs.size - i

/-- Whether the given text stands at an index. -/
def spells (s : Source) (i : Nat) : List Char → Bool
  | [] => true
  | c :: rest => isAt s i c && spells s (i + 1) rest

/-- A comment in the style of HTML; `start` is where the token begins if no blank space
precedes the comment. -/
def findHtmlComment (s : Source) (start i : Nat) : Option LayoutMatch :=
  let k := skipWhile s (fun g => g.isAsciiBlank || isSeparator g) i
  let stop := skipWhile s (fun g => !g.is '\n' && !isSeparator g) k
  let found : LayoutMatch := ⟨"html_comment", if k = i then start else k, stop⟩
  if spells s k "<!--".toList || spells s k "-->".toList then some found else none

/-- The layout token at an index, given which tokens are expected there. -/
def find : LayoutFinder := fun s i expects =>
  if expects "_template_chars" then
    if expects "_automatic_semicolon" then none
    else
      match templateEnd s i with
      | some j => if j = i then none else some ⟨"_template_chars", i, j⟩
      | none => none
  else
    let (j, isText) := if expects "jsx_text" then markupEnd s i false false else (i, false)
    if isText then some ⟨"jsx_text", i, j⟩
    else if expects "_automatic_semicolon" || expects "_function_signature_automatic_semicolon" then
      let search := findSemicolon s expects j
      if search.supplied then some ⟨"_automatic_semicolon", j, j⟩
      else if !search.comment && expects "_ternary_qmark" then findQuestionMark s search.stop
      else none
    else if expects "_ternary_qmark" then findQuestionMark s j
    else if expects "html_comment" && !expects "||" && !expects "escape_sequence"
        && !expects "regex_pattern" then findHtmlComment s i j
    else none

end CodeSurvey.TypeScript.Layout
