import CodeSurvey.Text.Raw

/-! # File trees

A `FileTree` is what lies at a place of a file system: a file, a link, or a directory
with named entries.  Names are raw texts, and a place in a tree is given by the names that
lead there. -/

namespace CodeSurvey

/-- A file, a link or a directory. -/
inductive FileTree where
  | file (content : ByteArray)
  /-- A link to a path. -/
  | link (target : RawText)
  /-- A directory; its entries have different names and are in no particular order. -/
  | directory (entries : List (RawText × FileTree))
deriving Inhabited

namespace FileTree

/-- The entries of a directory. -/
def entries : FileTree → List (RawText × FileTree)
  | directory es => es
  | _ => []

/-- Whether a tree is a directory. -/
def isDirectory : FileTree → Bool
  | directory _ => true
  | _ => false

/-- What lies at a place. -/
def at? : FileTree → List RawText → Option FileTree
  | t, [] => some t
  | t, name :: names => (t.entries.lookup name).bind fun child => child.at? names

/-- Entries with another tree of a name, or without that name. -/
def setEntry (name : RawText) (t : Option FileTree) (es : List (RawText × FileTree)) :
    List (RawText × FileTree) :=
  es.filter (·.1 != name) ++ t.toList.map fun t => (name, t)

/-- A tree with another tree at a place, or with nothing there. -/
def set : FileTree → List RawText → Option FileTree → FileTree
  | t, [], new => new.getD t
  | t, [name], new => directory (setEntry name new t.entries)
  | t, name :: names, new =>
    match t.entries.lookup name with
    | some child => directory (setEntry name (some (child.set names new)) t.entries)
    | none => t

/-- A tree with another tree at a place, and with the directories that lead there. -/
def plant : FileTree → List RawText → FileTree → FileTree
  | _, [], new => new
  | t, name :: names, new =>
    let child := (t.entries.lookup name).getD (directory [])
    directory (setEntry name (some (child.plant names new)) t.entries)

end FileTree

end CodeSurvey
