import CodeSurvey.Json.Reader
import CodeSurvey.Notice
import CodeSurvey.Records.Package
import CodeSurvey.Files.System

/-! # Manifests

The manifest of a package is a JSON object.  `Manifest.parse` reads from it what is
recorded of the package; a field with a value of an unexpected kind counts as lacking. -/

namespace CodeSurvey

/-- What a manifest says. -/
structure Manifest where
  package : Option PackageRecord
  dependencies : Dependencies
deriving DecidableEq, Repr, Inhabited

/-- Why a manifest says nothing. -/
inductive ManifestFault where
  /-- It cannot be read; the cause is that of the file system. -/
  | unreadable (cause : String)
  /-- It is not JSON; the text says why. -/
  | malformed (reason : String)
  /-- It is no object. -/
  | noObject
deriving DecidableEq, Repr, Inhabited

/-- The wording of a fault. -/
def ManifestFault.message : ManifestFault → String
  | .unreadable cause => "failed to read manifest: " ++ cause
  | .malformed reason => "invalid manifest JSON: " ++ reason
  | .noObject => "manifest is not a JSON object"

namespace Manifest

/-- The name of manifest files. -/
def fileName : String := "package.json"

/-- What no manifest says. -/
def empty : Manifest := ⟨none, ⟨.empty, .empty, .empty⟩⟩

/-- A text, or the text in a field of an object. -/
def stringOrField? (name : String) : Json → Option String
  | .string s => some s
  | v => (v.field? name).bind Json.string?

/-- The fields of an object that are texts. -/
def stringFields (v : Json) : Dict String :=
  Dict.ofList ((v.object?.getD []).filterMap fun f => f.2.string?.map fun s => (f.1, s))

/-- The name of a package without its scope. -/
def unscoped (name : String) : String :=
  String.ofList (name.toList.reverse.takeWhile (· != '/')).reverse

/-- The commands of a package; a single one is called like the package. -/
def commands? (name : Option String) : Json → Option (Dict String)
  | .string path => name.map fun n => Dict.empty.insert (unscoped n) path
  | .object fields => some (stringFields (.object fields))
  | _ => none

/-- The dependencies in a field. -/
def dependenciesIn (manifest : Json) (name : String) : Dict String :=
  ((manifest.field? name).map stringFields).getD .empty

/-- What a manifest says about its package. -/
def packageOf (manifest : Json) : PackageRecord :=
  let text (name : String) : Option String := (manifest.field? name).bind Json.string?
  { name := (text "name").getD ""
    version := (text "version").getD ""
    description := text "description"
    license := text "license"
    author := (manifest.field? "author").bind (stringOrField? "name")
    repository := (manifest.field? "repository").bind (stringOrField? "url")
    homepage := text "homepage"
    keywords := ((manifest.field? "keywords").bind Json.array?).map (·.filterMap Json.string?)
    main := text "main"
    bin := (manifest.field? "bin").bind (commands? (text "name"))
    scripts := ((manifest.field? "scripts").filter (·.object?.isSome)).map stringFields
    isPrivate := (manifest.field? "private").bind Json.bool? }

/-- What an object says. -/
def ofObject (manifest : Json) : Manifest where
  package := some (packageOf manifest)
  dependencies :=
    { production := dependenciesIn manifest "dependencies"
      development := dependenciesIn manifest "devDependencies"
      peer := dependenciesIn manifest "peerDependencies" }

/-- Read a manifest. -/
def parse (text : String) : Except ManifestFault Manifest :=
  match Json.parse text with
  | .error f => .error (.malformed (f.message text))
  | .ok v => if v.object?.isSome then .ok (ofObject v) else .error .noObject

/-- Read the manifest in a file. -/
def ofFile (fs : FileSystem) (path : RawText) : Except ManifestFault Manifest :=
  match fs.readText path with
  | .error e => .error (.unreadable e.message)
  | .ok text => parse text

/-- The manifest of a project; one that cannot be used says nothing. -/
def ofRoot (fs : FileSystem) (root : RawText) : Logged Manifest := do
  let path := Path.join root fileName
  match ofFile fs path with
  | .ok m => return m
  | .error fault =>
    Logged.tell (.noManifest path.shown fault.message)
    return empty

end Manifest

end CodeSurvey
