/-! # Source text

A source file is a sequence of bytes read as UTF-8.  Reading never fails: a byte
that belongs to no well-formed character becomes the glyph `junk`, and reading
goes on with the next byte.  Every glyph has a `Place`: its byte offset, its row
and its column, all from zero, the column in bytes.

The main definitions are `Source.ofBytes`, which reads a whole file, and
`Source.slice?`, the text between two byte offsets, which exists only if those
bytes are well-formed. -/

namespace CodeSurvey

/-- One unit of source text: a character, or a byte that is part of none. -/
inductive Glyph where
  | char (c : Char)
  | junk
deriving DecidableEq, Repr, Inhabited

namespace Glyph

/-- Whether the glyph is the character `c`. -/
def is (c : Char) : Glyph → Bool
  | .char d => d == c
  | .junk => false

/-- Blank in the ASCII sense: space, tab, line feed, vertical tab, form feed, return. -/
def isAsciiBlank : Glyph → Bool
  | .char c => c == ' ' || ('\t' ≤ c && c ≤ '\r')
  | .junk => false

/-- An ASCII letter. -/
def isAsciiLetter : Glyph → Bool
  | .char c => c.isAlpha
  | .junk => false

/-- An ASCII digit. -/
def isAsciiDigit : Glyph → Bool
  | .char c => c.isDigit
  | .junk => false

end Glyph

/-- A point in a source text. -/
structure Place where
  byte : Nat
  row : Nat
  column : Nat
deriving DecidableEq, Repr, Inhabited

namespace Place

/-- The beginning of a text. -/
def origin : Place := ⟨0, 0, 0⟩

/-- The point after a glyph of the given width in bytes. -/
def after (p : Place) (g : Glyph) (width : Nat) : Place :=
  if g.is '\n' then ⟨p.byte + width, p.row + 1, 0⟩
  else ⟨p.byte + width, p.row, p.column + width⟩

end Place

namespace Utf8

/-- Whether a byte continues a character. -/
def isTail (b : UInt8) : Bool := b &&& 0xC0 == 0x80

/-- The six low bits of a continuation byte. -/
def tailBits (b : UInt8) : Nat := (b &&& 0x3F).toNat

/-- The character that starts at byte `i`, with the number of its bytes after the
first.  Overlong forms, surrogates and values above U+10FFFF are no characters. -/
def charAt? (bytes : ByteArray) (i : Nat) : Option (Char × Nat) :=
  let byte (k : Nat) : UInt8 := if h : i + k < bytes.size then bytes[i + k] else 0
  let b := byte 0
  let ofNat? (low : Nat) (n : Nat) (extra : Nat) : Option (Char × Nat) :=
    if low ≤ n ∧ n.isValidChar then some (Char.ofNat n, extra) else none
  if b < 0x80 then some (Char.ofNat b.toNat, 0)
  else if b &&& 0xE0 == 0xC0 then
    if isTail (byte 1) then ofNat? 0x80 ((b &&& 0x1F).toNat * 64 + tailBits (byte 1)) 1 else none
  else if b &&& 0xF0 == 0xE0 then
    if isTail (byte 1) && isTail (byte 2) then
      ofNat? 0x800 (((b &&& 0x0F).toNat * 64 + tailBits (byte 1)) * 64 + tailBits (byte 2)) 2
    else none
  else if b &&& 0xF8 == 0xF0 then
    if isTail (byte 1) && isTail (byte 2) && isTail (byte 3) then
      ofNat? 0x10000
        ((((b &&& 0x07).toNat * 64 + tailBits (byte 1)) * 64 + tailBits (byte 2)) * 64
          + tailBits (byte 3)) 3
    else none
  else none

/-- The glyph at byte `i` and its width, which is never zero. -/
def glyphAt (bytes : ByteArray) (i : Nat) : Glyph × Nat :=
  match charAt? bytes i with
  | some (c, extra) => (.char c, extra + 1)
  | none => (.junk, 1)

theorem glyphAt_width_pos (bytes : ByteArray) (i : Nat) : 0 < (glyphAt bytes i).2 := by
  unfold glyphAt
  split <;> simp

end Utf8

/-- A source text: its bytes, its glyphs, and the place of every glyph and of the end. -/
structure Source where
  bytes : ByteArray
  glyphs : Array Glyph
  places : Array Place

namespace Source

/-- Read from byte `p.byte` on, appending to the glyphs and places found so far. -/
def readFrom (bytes : ByteArray) (p : Place) (glyphs : Array Glyph) (places : Array Place) :
    Source :=
  if _h : p.byte < bytes.size then
    let r := Utf8.glyphAt bytes p.byte
    readFrom bytes (p.after r.1 r.2) (glyphs.push r.1) (places.push p)
  else
    ⟨bytes, glyphs, places.push p⟩
termination_by bytes.size - p.byte
decreasing_by
  have hw := Utf8.glyphAt_width_pos bytes p.byte
  unfold Place.after
  split <;> simp <;> omega

/-- The source text that the bytes hold. -/
def ofBytes (bytes : ByteArray) : Source :=
  readFrom bytes .origin #[] #[]

/-- The number of glyphs. -/
def size (s : Source) : Nat := s.glyphs.size

/-- The glyph at index `i`, if the text is that long. -/
def glyph? (s : Source) (i : Nat) : Option Glyph := s.glyphs[i]?

/-- The place of the glyph at index `i`; the end of the text lies at index `size`. -/
def place (s : Source) (i : Nat) : Place := s.places.getD i ⟨s.bytes.size, 0, 0⟩

/-- The text between two byte offsets, if its bytes are well-formed. -/
def slice? (s : Source) (start stop : Nat) : Option String :=
  String.fromUTF8? (s.bytes.extract start stop)

end Source

end CodeSurvey
