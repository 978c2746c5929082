import CodeSurvey.Files.System
import CodeSurvey.Notice

/-! # Discovery

`discover` finds the source files of a project: the files below its root that have an
extension of source files, are not hidden, and do not fit an exclude pattern.  Links are
not followed, and directories of installed packages are not entered.

The files of a directory come in the order of the names of its entries, and those of an
inner directory at the place of its name. -/

namespace CodeSurvey

namespace Discovery

/-- The patterns of files that are always excluded. -/
def defaultExcludes : List String :=
  ["node_modules/**", "dist/**", "build/**", "**/*.test.ts", "**/*.spec.ts", "**/*.test.js",
    "**/*.spec.js"]

/-- The extensions of source files. -/
def sourceExtensions : List String := ["js", "jsx", "ts", "tsx"]

/-- The names of directories that are not entered. -/
def skippedDirectories : List String := ["node_modules"]

/-- Whether the extension of a path is one of source files. -/
def isSource (path : RawText) : Bool := sourceExtensions.contains (Path.fileExtension path)

/-- Whether a name is that of a hidden entry. -/
def isHidden (name : RawText) : Bool := name.shown.startsWith "."

/-- Whether a directory of a name is not entered. -/
def isSkipped (name : RawText) : Bool := skippedDirectories.contains name.shown

/-! ### Excludes -/

/-- Read patterns, and leave out those that are no globs. -/
def readPatterns : List String → Logged (List Glob)
  | [] => return []
  | pattern :: rest => do
    match Glob.parse pattern with
    | .ok g => return g :: (← readPatterns rest)
    | .error problem =>
      Logged.tell (.patternIgnored pattern problem)
      readPatterns rest

/-- The set of what is excluded.  If the patterns make no set, nothing is excluded. -/
def excludes [Glob.Compiler] (patterns : List String) : Logged GlobSet := do
  let globs ← readPatterns (defaultExcludes ++ patterns)
  match GlobSet.ofGlobs globs with
  | .ok s => return s
  | .error fault =>
    Logged.tell (.noExcludes fault)
    return .empty

/-! ### The walk -/

/-- What was found below entries, in the order of their names. -/
def inOrder (found : List (RawText × List (List RawText))) : List (List RawText) :=
  (found.mergeSort fun a b => a.1 ≤ b.1).flatMap (·.2)

mutual

/-- The places of the source files in an entry of a directory. -/
def inEntry (name : RawText) : FileTree → List (List RawText)
  | .file _ => if isSource name then [[name]] else []
  | .link _ => []
  | .directory entries =>
    if isSkipped name then []
    else (inOrder (inEntries entries)).map (name :: ·)

/-- The places of the source files in entries of a directory, by entry. -/
def inEntries : List (RawText × FileTree) → List (RawText × List (List RawText))
  | [] => []
  | (name, t) :: rest =>
    (name, if isHidden name then [] else inEntry name t) :: inEntries rest

end

/-- The paths of the source files below a directory, from there. -/
def sourcesIn (directory : FileTree) : List RawText :=
  (inOrder (inEntries directory.entries)).map Path.ofNames

/-- The paths of the source files at or below a root, from there.  The root may be a
link to a directory, and a source file is found at itself, under the empty path. -/
def sourcesAt (fs : FileSystem) (root : RawText) : Except FileFault (List RawText) :=
  match fs.look false root with
  | .error e => .error e
  | .ok (_, .file _) => .ok (if isSource root then [""] else [])
  | .ok (_, .directory entries) => .ok (sourcesIn (.directory entries))
  | .ok (_, .link _) => (fs.look true root).map fun found => sourcesIn found.2

end Discovery

open Discovery in
/-- Find the source files of a project.  It is what is shown of a path that patterns may
fit. -/
def discover [Glob.Compiler] (fs : FileSystem) (root : RawText) (patterns : List String) :
    Logged (List RawText) := do
  let excluded ← excludes patterns
  let sources ← match sourcesAt fs root with
    | .ok sources => pure sources
    | .error e =>
      Logged.tell (.entrySkipped root.shown root.shown e.message)
      pure []
  let found := sources.filter fun path => !excluded.fits (Path.normalize path)
  Logged.tell (.filesFound found.length root.shown)
  return found

end CodeSurvey
