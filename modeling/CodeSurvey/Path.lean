import CodeSurvey.Text.Raw

/-! # Paths

A path is a raw text whose parts are separated by slashes.  `Path.components` is what it
says: repeated slashes, slashes at its end and dots between its parts make no
difference, but a path may begin at the root or with a dot.

`Path.normalize` shows the components with single slashes between them.  A name that does
not spell characters is not told by what is shown of it, and neither is a path. -/

namespace CodeSurvey.Path

/-- A component of a path. -/
inductive Component where
  | root
  | current
  | parent
  | normal (name : RawText)
deriving DecidableEq, Repr, Inhabited

/-- A component as it is written. -/
def Component.raw : Component → RawText
  | root => "/"
  | current => "."
  | parent => ".."
  | normal name => name

/-- What is shown of a component. -/
def Component.text (c : Component) : String := c.raw.shown

/-- The byte of the slash. -/
def slash : UInt8 := 0x2F

/-- The byte of the dot. -/
def dot : UInt8 := 0x2E

/-- The bytes between the slashes. -/
def segments : List UInt8 → List (List UInt8)
  | [] => [[]]
  | b :: rest =>
    if b = slash then [] :: segments rest
    else
      match segments rest with
      | [] => [[b]]
      | s :: more => (b :: s) :: more

/-- What a segment after the first says. -/
def component? (segment : List UInt8) : Option Component :=
  if segment = [] ∨ segment = [dot] then none
  else if segment = [dot, dot] then some .parent
  else some (.normal ⟨segment⟩)

/-- How a path starts, apart from parents and names, told by its segments. -/
def start? : List (List UInt8) → Option Component
  | [] :: _ :: _ => some .root
  | s :: _ => if s = [dot] then some .current else none
  | [] => none

/-- The components of a path. -/
def components (path : RawText) : List Component :=
  (start? (segments path.bytes)).toList ++ (segments path.bytes).filterMap component?

/-- The components of a path, as they are shown, with single slashes between them. -/
def normalize (path : RawText) : String := "/".intercalate ((components path).map Component.text)

/-- A path of names. -/
def ofNames (names : List RawText) : RawText := .intercalate "/" names

/-- Whether a path begins at the root. -/
def isAbsolute (path : RawText) : Bool := path.bytes.head? = some slash

/-- A path below another; a path from the root is not moved. -/
def join (base path : RawText) : RawText :=
  if isAbsolute path then path
  else if base.bytes.isEmpty || base.bytes.getLast? = some slash then base ++ path
  else base ++ "/" ++ path

/-- The last component of a path, if it is a name. -/
def fileName? (path : RawText) : Option RawText :=
  match (components path).getLast? with
  | some (.normal name) => some name
  | _ => none

/-- What follows the last dot of a name, if there is a dot after its first character and
what follows it spells a text. -/
def extensionOf (name : RawText) : String :=
  let reversed := name.bytes.reverse
  let tail := reversed.takeWhile (· != dot)
  if tail.length + 1 < reversed.length then (RawText.mk tail.reverse).text?.getD "" else ""

/-- The extension of a file. -/
def fileExtension (path : RawText) : String := ((fileName? path).map extensionOf).getD ""

end CodeSurvey.Path
