/-! # Raw texts

The names in a file system are bytes, and nothing makes them spell characters.  A `RawText`
is such a name, or a path made of them.  It is matched and shown as a text
(`RawText.shown`), in which the replacement character U+FFFD stands for bytes that spell
none; so two raw texts may be shown alike. -/

namespace CodeSurvey

/-- A text of a file system: bytes that may or may not spell characters. -/
structure RawText where
  bytes : List UInt8
deriving DecidableEq, Repr, Inhabited

namespace RawText

/-- The bytes that spell a text. -/
def ofText (s : String) : RawText := ⟨s.toList.flatMap String.utf8EncodeChar⟩

instance : Coe String RawText := ⟨ofText⟩

instance : Append RawText := ⟨fun s t => ⟨s.bytes ++ t.bytes⟩⟩

instance : LT RawText := ⟨fun s t => s.bytes < t.bytes⟩

instance : LE RawText := ⟨fun s t => s.bytes ≤ t.bytes⟩

instance (s t : RawText) : Decidable (s < t) := inferInstanceAs (Decidable (s.bytes < t.bytes))

instance (s t : RawText) : Decidable (s ≤ t) := inferInstanceAs (Decidable (s.bytes ≤ t.bytes))

/-- Texts with another one between each two of them. -/
def intercalate (separator : RawText) (texts : List RawText) : RawText :=
  ⟨separator.bytes.intercalate (texts.map bytes)⟩

/-! ### Characters -/

/-- The character that bytes begin with. -/
def char? (bs : List UInt8) : Option Char := ((bs.take 4).toByteArray).utf8DecodeChar? 0

/-- Whether a byte continues a character. -/
def isTail (b : UInt8) : Bool := 0x80 ≤ b && b ≤ 0xBF

/-- Whether a byte may be the second one of a character that has the given first one. -/
def follows (first second : UInt8) : Bool :=
  if first < 0xC2 || 0xF4 < first then false
  else if first = 0xE0 then 0xA0 ≤ second && second ≤ 0xBF
  else if first = 0xED then 0x80 ≤ second && second ≤ 0x9F
  else if first = 0xF0 then 0x90 ≤ second && second ≤ 0xBF
  else if first = 0xF4 then 0x80 ≤ second && second ≤ 0x8F
  else isTail second

/-- How many bytes are shown as one replacement character, where no character begins: as
many as begin one, or else a single byte. -/
def brokenLength : List UInt8 → Nat
  | a :: b :: c :: _ =>
    if !follows a b then 1 else if a < 0xF0 || !isTail c then 2 else 3
  | [a, b] => if follows a b then 2 else 1
  | _ => 1

/-- What is shown of bytes, without the first `skip` of them. -/
def charsFrom : (skip : Nat) → List UInt8 → List Char
  | _, [] => []
  | skip + 1, _ :: bs => charsFrom skip bs
  | 0, b :: bs =>
    match char? (b :: bs) with
    | some c => c :: charsFrom (c.utf8Size - 1) bs
    | none => '\uFFFD' :: charsFrom (brokenLength (b :: bs) - 1) bs

/-- The characters that are shown of bytes. -/
def chars (bs : List UInt8) : List Char := charsFrom 0 bs

/-- The text that is shown of a raw text. -/
def shown (t : RawText) : String := String.ofList (chars t.bytes)

/-- The text that is spelled. -/
def text? (t : RawText) : Option String := if ofText t.shown = t then some t.shown else none

end RawText

end CodeSurvey
