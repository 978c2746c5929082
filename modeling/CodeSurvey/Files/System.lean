import CodeSurvey.Files.Tree
import CodeSurvey.Path

/-! # File systems

A `FileSystem` is a tree with a directory in which paths begin.  A path is followed step
by step, through links, by `FileSystem.reach`; all operations on files are built on it. -/

namespace CodeSurvey

/-- Why an operation on files is not possible. -/
inductive FileFault where
  | absent
  | present
  | notDirectory
  | isDirectory
  | longName
  | manyLinks
  /-- A path with the character NUL. -/
  | nulInPath
  /-- The bytes are no text. -/
  | notText
deriving DecidableEq, Repr, Inhabited

/-- The wording of a fault. -/
def FileFault.message : FileFault → String
  | absent => "No such file or directory (os error 2)"
  | present => "File exists (os error 17)"
  | notDirectory => "Not a directory (os error 20)"
  | isDirectory => "Is a directory (os error 21)"
  | longName => "File name too long (os error 36)"
  | manyLinks => "Too many levels of symbolic links (os error 40)"
  | nulInPath => "file name contained an unexpected NUL byte"
  | notText => "stream did not contain valid UTF-8"

/-! ### Following paths -/

/-- A step of a path. -/
inductive PathStep where
  /-- Stay; what was reached has to be a directory. -/
  | stay
  | up
  | enter (name : RawText)
deriving DecidableEq, Repr, Inhabited

namespace PathStep

/-- The step that a part of a path stands for. -/
def ofSegment (s : List UInt8) : PathStep :=
  if s = [] ∨ s = [Path.dot] then stay
  else if s = [Path.dot, Path.dot] then up
  else enter ⟨s⟩

/-- The steps of a path.  A slash at its end is a step, too. -/
def ofPath (path : RawText) : List PathStep :=
  let segments := Path.segments path.bytes
  (segments.dropLast.filter (· ≠ []) ++ segments.getLast?.toList).map ofSegment

end PathStep

/-- Where a path leads. -/
inductive Reached where
  | found (location : List RawText)
  /-- All but the last step of the path are there; `slash` tells that a directory is
  meant. -/
  | vacant (location : List RawText) (slash : Bool)
deriving DecidableEq, Repr, Inhabited

/-- The length of the longest name, in bytes. -/
def longestName : Nat := 255

/-- The length of the longest path, in bytes. -/
def longestPath : Nat := 4095

/-- The number of links that are followed on one path. -/
def mostLinks : Nat := 40

/-- Follow steps from a place, and at most `links` links.  Whether a link is followed
with which the path ends is for `follow` to say. -/
def FileTree.walk (t : FileTree) (follow : Bool) :
    (links : Nat) → (here : List RawText) → List PathStep → Except FileFault Reached
  | _, here, [] => .ok (.found here)
  | links, here, step :: rest =>
    match t.at? here with
    | some (.directory entries) =>
      match step with
      | .stay => walk t follow links here rest
      | .up => walk t follow links here.dropLast rest
      | .enter name =>
        let there := here ++ [name]
        if longestName < name.bytes.length then .error .longName
        else
          match entries.lookup name with
          | none => if rest.all (· = .stay) then .ok (.vacant there (!rest.isEmpty)) else .error .absent
          | some (.link target) =>
            if rest.isEmpty && !follow then .ok (.found there)
            else
              match links with
              | 0 => .error .manyLinks
              | links + 1 =>
                let start := if Path.isAbsolute target then [] else here
                walk t follow links start (PathStep.ofPath target ++ rest)
          | some _ => walk t follow links there rest
    | _ => .error .notDirectory
termination_by links _ steps => (links, steps.length)

/-- A file tree, and the place in it where relative paths begin. -/
structure FileSystem where
  tree : FileTree
  here : List RawText
deriving Inhabited

namespace FileSystem

/-- Where a path leads. -/
def reach (fs : FileSystem) (follow : Bool) (path : RawText) : Except FileFault Reached :=
  if path.bytes.contains 0 then .error .nulInPath
  else if path.bytes.isEmpty then .error .absent
  else if longestPath < path.bytes.length then .error .longName
  else
    fs.tree.walk follow mostLinks (if Path.isAbsolute path then [] else fs.here) (PathStep.ofPath path)

/-- What lies at a path, and where that is. -/
def look (fs : FileSystem) (follow : Bool) (path : RawText) :
    Except FileFault (List RawText × FileTree) :=
  match fs.reach follow path with
  | .error e => .error e
  | .ok (.vacant _ _) => .error .absent
  | .ok (.found location) =>
    match fs.tree.at? location with
    | some t => .ok (location, t)
    | none => .error .absent

/-- The path of a place. -/
def pathOf (location : List RawText) : RawText := "/" ++ Path.ofNames location

/-- The path without links that leads to the same place. -/
def canonical (fs : FileSystem) (path : RawText) : Except FileFault RawText :=
  (fs.look true path).map fun found => pathOf found.1

/-- Whether a directory lies at a path. -/
def isDirectory (fs : FileSystem) (path : RawText) : Except FileFault Bool :=
  (fs.look true path).map fun found => found.2.isDirectory

/-- The bytes of a file. -/
def read (fs : FileSystem) (path : RawText) : Except FileFault ByteArray :=
  match fs.look true path with
  | .error e => .error e
  | .ok (_, .file content) => .ok content
  | .ok _ => .error .isDirectory

/-- The text of a file. -/
def readText (fs : FileSystem) (path : RawText) : Except FileFault String :=
  match fs.read path with
  | .error e => .error e
  | .ok bytes =>
    match String.fromUTF8? bytes with
    | some s => .ok s
    | none => .error .notText

/-! ### Changes -/

/-- A file system with another tree at a place. -/
def set (fs : FileSystem) (location : List RawText) (t : Option FileTree) : FileSystem :=
  { fs with tree := fs.tree.set location t }

/-- Write a file.  An old file loses its content. -/
def write (fs : FileSystem) (path : RawText) (content : ByteArray) : Except FileFault FileSystem :=
  match fs.reach true path with
  | .error e => .error e
  | .ok (.vacant location slash) =>
    if slash then .error .isDirectory else .ok (fs.set location (some (.file content)))
  | .ok (.found location) =>
    if ((fs.tree.at? location).map FileTree.isDirectory).getD true then .error .isDirectory
    else .ok (fs.set location (some (.file content)))

/-- Put a tree at a path where nothing is. -/
def add (fs : FileSystem) (path : RawText) (t : FileTree) : Except FileFault FileSystem :=
  match fs.reach false path with
  | .error e => .error e
  | .ok (.vacant location _) => .ok (fs.set location (some t))
  | .ok (.found _) => .error .present

/-- Make a link. -/
def addLink (fs : FileSystem) (path target : RawText) : Except FileFault FileSystem :=
  if target.bytes.isEmpty then .error .absent else fs.add path (.link target)

/-- Make a directory, and those that lead to it.  The names come from the last to the
first. -/
def addDirectories (fs : FileSystem) : List RawText → Except FileFault FileSystem
  | [] => .ok fs
  | name :: outer =>
    let path := pathOf (name :: outer).reverse
    match fs.add path (.directory []) with
    | .ok fs => .ok fs
    | .error .absent =>
      (fs.addDirectories outer).bind fun fs => fs.add path (.directory [])
    | .error e => if (fs.isDirectory path).toOption == some true then .ok fs else .error e

/-- Remove what lies at a path, with all that is in it. -/
def remove (fs : FileSystem) (path : RawText) : Except FileFault FileSystem :=
  (fs.look false path).map fun found => fs.set found.1 none

end FileSystem

end CodeSurvey
