import CodeSurvey.Program
import CodeSurvey.Records.Codebase
import CodeSurvey.Report.Style

/-! # The summary of a codebase

`Report.summary` shows a codebase on the terminal: the package, the numbers of files and
declarations, the frameworks, and a line for every file. -/

namespace CodeSurvey.Report

/-- A number of things. -/
def plural (n : Nat) (noun : String) : String :=
  toString n ++ " " ++
    if n = 1 then noun else if noun.endsWith "s" then noun ++ "es" else noun ++ "s"

/-- The lines about the root and the package. -/
def heading (root : String) (package : Option PackageRecord) : List Line :=
  let packageLines : List Line := match package with
    | none => []
    | some p =>
      let version := if p.version.isEmpty then [] else [Piece.plain ("@" ++ p.version)]
      let name : Line :=
        [.plain "  ", .styled .faint "Package: ", .styled .strong p.name] ++ version
      let description : List Line := match p.description with
        | none => []
        | some d => [[.plain "           ", .styled .faint d]]
      name :: description
  [[], [.plain "  ", .styled ⟨true, false, some .cyan⟩ Program.name, .plain (" v" ++ Program.version)],
    [], [.plain "  ", .styled .faint "Root:    ", .plain root]] ++ packageLines ++ [[]]

/-- The lines with the numbers of things. -/
def counts (c : Codebase) : List Line :=
  let declarations :=
    "(" ++ plural c.functionCount "function" ++ ", " ++ plural c.classCount "class" ++ ")"
  let total : Line :=
    [.plain "  ", .styled (.coloured .green) "✓",
      .plain (" " ++ plural c.files.length "file" ++ ", " ++ plural c.exports.length "export" ++ "  "),
      .styled .faint declarations]
  let d := c.dependencies
  let dependencies : List Line :=
    if d.isEmpty then []
    else
      [[.plain "    ",
        .styled .faint <|
          toString d.production.size ++ " production, " ++ toString d.development.size ++ " dev, "
            ++ toString d.peer.size ++ " peer dependencies"]]
  total :: dependencies ++ [[]]

/-- The largest percentage that is shown. -/
def maxPercent : Nat := Nat.pow 2 32 - 1

/-- A confidence as a percentage, in at least four columns. -/
def percentage (x : Binary64) : String :=
  let digits := toString (x.percent maxPercent)
  String.ofList (List.replicate (3 - digits.length) ' ') ++ digits ++ "%"

/-- The line of a framework. -/
def frameworkLine (f : DetectedFramework) : Line :=
  let sure := if f.confidence.atLeast 1 then Colour.green else .yellow
  [.plain "    ", ⟨f.name, .plain, 14⟩, ⟨f.category.word, .faint, 10⟩,
    ⟨f.version.getD "-", .plain, 10⟩, .styled (.coloured sure) (percentage f.confidence)]

/-- A headline with a number. -/
def headline (title : String) (n : Nat) : Line :=
  [.plain "  ", .styled .strong title, .plain (" (" ++ toString n ++ "):")]

/-- The lines about frameworks. -/
def frameworkLines (fs : List DetectedFramework) : List Line :=
  if fs.isEmpty then []
  else headline "Frameworks" fs.length :: fs.map frameworkLine ++ [[]]

/-- What a file declares, in words. -/
def declarationCounts (f : FileRecord) : String :=
  let parts := ([(f.functions.length, "function"), (f.classes.length, "class"),
    (f.interfaces.length, "interface"), (f.aliases.length, "type")].filter fun p => p.1 != 0).map
      fun p => plural p.1 p.2
  if parts.isEmpty then "no declarations" else ", ".intercalate parts

/-- The line of a file, whose path takes at least `width` columns. -/
def fileLine (width : Nat) (f : FileRecord) : Line :=
  [.plain "    ", ⟨f.relativePath, .coloured .blue, width⟩, .plain "  ",
    .styled .faint (declarationCounts f)]

/-- The length in bytes of the longest path. -/
def pathWidth (files : List FileRecord) : Nat :=
  (files.map (·.relativePath.utf8ByteSize)).foldl max 0

/-- The lines about files. -/
def fileLines (files : List FileRecord) : List Line :=
  headline "Files" files.length :: files.map (fileLine (pathWidth files))

/-- The lines of a summary. -/
def summaryLines (root : String) (c : Codebase) : List Line :=
  heading root c.package ++ counts c ++ frameworkLines c.frameworks ++ fileLines c.files ++ [[]]

/-- The summary of a codebase under a root, with colours or without. -/
def summary (colours : Bool) (root : String) (c : Codebase) : String :=
  String.ofList ((summaryLines root c).flatMap (Line.render colours))

end CodeSurvey.Report
