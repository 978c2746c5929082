import CodeSurvey.Yaml.Event

/-! # Documents

A text holds one document.  A `Document` is that document as far as it can be read: its
parts in order, and what stood in the way after them, if anything did.

Anchors are numbered by the count of different names before them, so that a name that is
used again can give its number to another; a number stands for the last node that
received it. -/

namespace CodeSurvey.Yaml

/-- A part of a document. -/
inductive Part where
  /-- A text without a document. -/
  | void
  /-- A reference to the node of a number. -/
  | alias (number : Nat)
  | scalar (tag : Option String) (text : String) (style : ScalarStyle)
  | sequenceStart (tag : Option String)
  | sequenceEnd
  | mappingStart (tag : Option String)
  | mappingEnd
deriving DecidableEq, Repr, Inhabited

/-- What stands in the way of reading a text. -/
inductive Obstacle where
  | fault (f : Fault)
  | unknownAnchor (mark : Mark)
  | secondDocument
deriving DecidableEq, Repr, Inhabited

/-- The wording of an obstacle. -/
def Obstacle.message : Obstacle → String
  | fault f => f.message
  | unknownAnchor mark => "unknown anchor" ++ mark.place
  | secondDocument => "deserializing from YAML containing more than one document is not supported"

/-- A document as far as it can be read. -/
structure Document where
  parts : List (Part × Mark)
  /-- For the numbers of nodes, how many parts come before the node; the last entry of a
  number counts. -/
  anchored : List (Nat × Nat)
  obstacle : Option Obstacle
deriving Repr, Inhabited

namespace Document

/-- The parts from the node of a number on. -/
def partsFrom (d : Document) (number : Nat) : List (Part × Mark) :=
  match d.anchored.reverse.lookup number with
  | some count => d.parts.drop count
  | none => []

/-- The anchors that were met: their names with numbers, the last use of a name first,
and the nodes of the numbers. -/
structure Anchors where
  numbers : List (String × Nat)
  nodes : List (Nat × Nat)
deriving Inhabited

/-- Note an anchor of the node after `count` parts. -/
def Anchors.add (a : Anchors) (count : Nat) : Option String → Anchors
  | none => a
  | some name =>
    let number := a.numbers.length
    { numbers := (name, number) :: a.numbers.filter (·.1 != name)
      nodes := a.nodes ++ [(number, count)] }

/-- What follows a document, which may be nothing but the end of the text. -/
def following (c : Composer) : Option Obstacle :=
  match (Compose.next.run c) with
  | .ok ((.streamEnd, _), _) => none
  | _ => some .secondDocument

/-- Collect the parts of a document; `parts` are those before, the last first. -/
def collect : Nat → Composer → Anchors → List (Part × Mark) → Document
  | 0, _, a, parts => ⟨parts.reverse, a.nodes, none⟩
  | n + 1, c, a, parts =>
    let stop (o : Option Obstacle) : Document := ⟨parts.reverse, a.nodes, o⟩
    let count := parts.length
    match Compose.next.run c with
    | .error f => stop (some (.fault f))
    | .ok ((e, mark), c) =>
      match e with
      | .documentStart => collect n c a parts
      | .documentEnd => stop (following c)
      | .streamEnd => ⟨[(.void, mark)], [], none⟩
      | .alias name =>
        match a.numbers.lookup name with
        | some number => collect n c a ((.alias number, mark) :: parts)
        | none => stop (some (.unknownAnchor mark))
      | .scalar anchor tag text style =>
        collect n c (a.add count anchor) ((.scalar tag text style, mark) :: parts)
      | .sequenceStart anchor tag =>
        collect n c (a.add count anchor) ((.sequenceStart tag, mark) :: parts)
      | .sequenceEnd => collect n c a ((.sequenceEnd, mark) :: parts)
      | .mappingStart anchor tag =>
        collect n c (a.add count anchor) ((.mappingStart tag, mark) :: parts)
      | .mappingEnd => collect n c a ((.mappingEnd, mark) :: parts)

/-- The document of a text. -/
def ofText (s : String) : Document :=
  let text := s.toList
  match Composer.start text with
  | .error f => ⟨[], [], some (.fault f)⟩
  | .ok c => collect (16 * (text.length + 4)) c default []

end Document

end CodeSurvey.Yaml
