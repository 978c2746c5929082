import CodeSurvey.Session

/-! # The program

Reads from the file system what a call may ask for, makes the call, and carries out what
comes of it.  The names that it is given by the system are texts. -/

namespace CodeSurvey.Program

/-- The path of a place, as a text. -/
def textOf (location : List RawText) : String := (FileSystem.pathOf location).shown

/-- What a place of the file system is, without following links. -/
def kindAt (location : List RawText) : IO (Option IO.FS.FileType) := do
  let path := (← IO.currentDir) / textOf location
  try
    return some (← path.symlinkMetadata).type
  catch _ => return none

/-- The bytes of the file at a place. -/
def contentAt (location : List RawText) : IO ByteArray := do
  try IO.FS.readBinFile (textOf location)
  catch _ => return .empty

/-- The names that lead to a place without links. -/
def namesOf (path : RawText) : List RawText :=
  (Path.components path).filterMap fun c =>
    match c with
    | .normal name => some name
    | _ => none

/-- Where a link leads; one that leads nowhere leads to a place beside it. -/
def targetAt (location : List RawText) : IO (List RawText) := do
  try return namesOf (← IO.FS.realPath (textOf location)).toString
  catch _ => return location.dropLast ++ [location.getLastD (RawText.ofText "") ++ " "]

/-- The tree of a directory, as far as a survey looks at it. -/
partial def load (location : List RawText) : IO FileTree := do
  let path := (← IO.currentDir) / textOf location
  let names ← try pure ((← path.readDir).toList.map fun e => RawText.ofText e.fileName)
    catch _ => pure []
  let entries ← (names.filter fun name => !Discovery.isHidden name).filterMapM fun name => do
    let there := location ++ [name]
    match ← kindAt there with
    | some .dir =>
      if Discovery.isSkipped name then return none
      else return some (name, ← load there)
    | some .file =>
      if Discovery.isSource name || name == RawText.ofText Manifest.fileName then
        return some (name, .file (← contentAt there))
      else return none
    | _ => return none
  return .directory entries

/-- Add to a tree the file or directory at a place without links, unless it is known. -/
def addPlace (t : FileTree) (location : List RawText) : IO FileTree := do
  if (t.at? location).isSome then return t
  else
    match ← kindAt location with
    | none => return t
    | some .dir => return t.plant location (.directory [])
    | some _ => return t.plant location (.file (← contentAt location))

/-- Add to a tree what lies on a path. -/
def trace (t : FileTree) (here : List RawText) : List PathStep → IO FileTree
  | [] => return t
  | .stay :: rest => trace t here rest
  | .up :: rest => trace t here.dropLast rest
  | .enter name :: rest => do
    let there := here ++ [name]
    match t.at? there with
    | some (.link target) => trace t (namesOf target) rest
    | some _ => trace t there rest
    | none =>
      if (← kindAt there) matches some .symlink then
        let target ← targetAt there
        let t ← addPlace (t.plant there (.link (FileSystem.pathOf target))) target
        trace t target rest
      else trace (← addPlace t there) there rest

/-- Add to a file system what lies on a path. -/
def look (fs : FileSystem) (path : RawText) : IO FileSystem := do
  let tree ← trace fs.tree (if Path.isAbsolute path then [] else fs.here) (PathStep.ofPath path)
  return { fs with tree }

/-- The part of the file system at which a call looks. -/
def filesFor (words : List String) : IO FileSystem := do
  let here := namesOf (← IO.currentDir).toString
  let start : FileSystem := ⟨(FileTree.directory []).plant here (.directory []), here⟩
  match CommandLine.read words with
  | .error _ => return start
  | .ok i =>
    let fs ← look start i.arguments.path
    let fs ← match fs.look true i.arguments.path with
      | .ok (location, .directory _) => do
        let tree := fs.tree.plant location (← load location)
        let planted := if (tree.at? here).isSome then tree else tree.plant here (.directory [])
        pure { fs with tree := planted }
      | _ => pure fs
    let others : List String := i.arguments.settings.toList ++ i.arguments.output.toList
    others.foldlM (fun fs (path : String) => look fs path) fs

/-- Write the file for which a call asked. -/
def writeOutput (words : List String) (s : Session) : IO Unit := do
  match CommandLine.read words with
  | .ok i =>
    match i.arguments.output with
    | some path =>
      match s.files.read path with
      | .ok content => IO.FS.writeBinFile path content
      | .error _ => return
    | none => return
  | .error _ => return

/-- Whether colours are wanted: a terminal gets them, if the environment does not say
otherwise. -/
def wantsColours : IO Bool := do
  let isOn (name : String) : IO (Option Bool) := do
    return (← IO.getEnv name).map (· != "0")
  if (← isOn "CLICOLOR_FORCE") == some true then return true
  else if (← isOn "NO_COLOR").isSome then return false
  else if (← isOn "CLICOLOR") == some false then return false
  else (← IO.getStdout).isTty

end CodeSurvey.Program

open CodeSurvey in
/-- Follow a command line. -/
def main (words : List String) : IO UInt32 := do
  let fs ← Program.filesFor words
  let s := (Session.run fs (← Program.wantsColours) words).value
  if s.status == 0 then Program.writeOutput words s
  (← IO.getStdout).putStr s.output
  (← IO.getStderr).putStr s.errors
  return s.status.toUInt32
