/-! # Styled text

A `Piece` is a text with a style and a least width.  With colours it is enclosed in
terminal style sequences; the blanks that fill it up are part of what is styled. -/

namespace CodeSurvey.Report

/-- A colour of the terminal. -/
inductive Colour where
  | green
  | yellow
  | blue
  | cyan
deriving DecidableEq, Repr

/-- How a text looks. -/
structure Style where
  bold : Bool
  dimmed : Bool
  colour : Option Colour
deriving DecidableEq, Repr, Inhabited

/-- A colour as a part of a style sequence. -/
def Colour.code : Colour → String
  | .green => "32"
  | .yellow => "33"
  | .blue => "34"
  | .cyan => "36"

namespace Style

/-- No style. -/
def plain : Style := ⟨false, false, none⟩

/-- Bold text. -/
def strong : Style := ⟨true, false, none⟩

/-- Dimmed text. -/
def faint : Style := ⟨false, true, none⟩

/-- Coloured text. -/
def coloured (c : Colour) : Style := ⟨false, false, some c⟩

/-- The codes of a style. -/
def codes (s : Style) : List String :=
  (if s.bold then ["1"] else []) ++ (if s.dimmed then ["2"] else [])
    ++ (s.colour.map Colour.code).toList

/-- The sequence that begins a style. -/
def opening (s : Style) : List Char := '\x1b' :: '[' :: (";".intercalate s.codes).toList ++ ['m']

/-- The sequence that ends all styles. -/
def closing : List Char := ['\x1b', '[', '0', 'm']

end Style

/-- A part of a line. -/
structure Piece where
  text : String
  style : Style
  /-- The least number of characters that it takes. -/
  width : Nat
deriving DecidableEq, Repr, Inhabited

namespace Piece

/-- Text without a style. -/
def plain (text : String) : Piece := ⟨text, .plain, 0⟩

/-- Text with a style. -/
def styled (style : Style) (text : String) : Piece := ⟨text, style, 0⟩

/-- Fill up a text with blanks. -/
def fill (width : Nat) (cs : List Char) : List Char := cs ++ List.replicate (width - cs.length) ' '

/-- Begin a style again after every sequence in a text that ends all styles. -/
def restyle (opening : List Char) (cs : List Char) : List Char :=
  match cs with
  | [] => []
  | c :: rest =>
    if Style.closing.isPrefixOf (c :: rest) then
      Style.closing ++ opening ++ restyle opening (rest.drop 3)
    else c :: restyle opening rest
termination_by cs.length
decreasing_by
  · simp only [List.length_drop, List.length_cons]
    omega
  · simp

/-- The characters of a piece, with colours or without. -/
def render (colours : Bool) (p : Piece) : List Char :=
  if colours && p.style != .plain then
    p.style.opening ++ fill p.width (restyle p.style.opening p.text.toList) ++ Style.closing
  else fill p.width p.text.toList

end Piece

/-- A line of a report. -/
abbrev Line := List Piece

/-- The characters of a line, with the line break. -/
def Line.render (colours : Bool) (l : Line) : List Char :=
  l.flatMap (Piece.render colours) ++ ['\n']

end CodeSurvey.Report
