import CodeSurvey.Extraction.Source
import CodeSurvey.Glob.Set
import CodeSurvey.Program
import CodeSurvey.Text.Quoted

/-! # Notices

What the program tells about its work while it works.  A computation in `Logged` has a
value and the notices that were given on the way, in order. -/

namespace CodeSurvey

/-- How important a notice is. -/
inductive NoticeLevel where
  | debug
  | info
  | warning
deriving DecidableEq, Repr, Inhabited

/-- The word for a level. -/
def NoticeLevel.word : NoticeLevel → String
  | debug => "DEBUG"
  | info => "INFO"
  | warning => "WARN"

/-- Something that the program tells. -/
inductive Notice where
  | noManifest (path : String) (fault : String)
  | frameworksFound (count : Nat)
  | patternIgnored (pattern : String) (problem : GlobProblem)
  | noExcludes (fault : GlobSetFault)
  | entrySkipped (root path cause : String)
  | filesFound (count : Nat) (root : String)
  | surveying (count : Nat) (root : String)
  /-- There cannot be as many threads as are asked for. -/
  | noThreads (count : Nat) (cause : String)
  | fileRead (relativePath : String) (functions classes imports : Nat)
  | fileSkipped (relativePath : String) (fault : SourceFault)
  | surveyed (read found exports : Nat)
  | reportWritten (path : String)
deriving DecidableEq, Repr, Inhabited

namespace Notice

/-- The level of a notice. -/
def level : Notice → NoticeLevel
  | noManifest _ _ => .debug
  | frameworksFound _ => .debug
  | patternIgnored _ _ => .warning
  | noExcludes _ => .warning
  | entrySkipped _ _ _ => .warning
  | filesFound _ _ => .debug
  | surveying _ _ => .info
  | noThreads _ _ => .warning
  | fileRead _ _ _ _ => .debug
  | fileSkipped _ _ => .warning
  | surveyed _ _ _ => .info
  | reportWritten _ => .info

/-- The part of the program that gives a notice. -/
def topic (n : Notice) : String :=
  let part := match n with
    | noManifest _ _ => "manifest"
    | patternIgnored _ _ => "discover"
    | noExcludes _ => "discover"
    | entrySkipped _ _ _ => "discover"
    | filesFound _ _ => "discover"
    | reportWritten _ => "cli"
    | _ => "codebase"
  Program.name ++ "::" ++ part

/-- The wording of a notice. -/
def text : Notice → String
  | noManifest path fault => "no usable manifest at " ++ path ++ ": " ++ fault
  | frameworksFound count => "detected " ++ toString count ++ " frameworks"
  | patternIgnored pattern problem =>
    "ignoring invalid exclude pattern " ++ Text.quoted pattern ++ ": error parsing glob '"
      ++ pattern ++ "': " ++ problem.message
  | noExcludes fault => "failed to compile exclude patterns: " ++ fault.message
  | entrySkipped root path cause =>
    "skipping unreadable entry under " ++ root ++ ": IO error for operation on " ++ path ++ ": "
      ++ cause
  | filesFound count root => "discovered " ++ toString count ++ " source files under " ++ root
  | surveying count root => "analyzing " ++ toString count ++ " source files under " ++ root
  | noThreads count cause =>
    "failed to build a " ++ toString count ++ "-thread pool, using the global pool: " ++ cause
  | fileRead path functions classes imports =>
    path ++ ": " ++ toString functions ++ " functions, " ++ toString classes ++ " classes, "
      ++ toString imports ++ " imports"
  | fileSkipped path fault => "skipping " ++ path ++ ": " ++ fault.message
  | surveyed read found exports =>
    "extracted " ++ toString read ++ " of " ++ toString found ++ " files, " ++ toString exports
      ++ " exports"
  | reportWritten path => "wrote " ++ path

/-- The line of a notice on a terminal; the further lines of a text are indented. -/
def line (n : Notice) : String :=
  let word := n.level.word
  let padding := String.ofList (List.replicate (5 - word.length) ' ')
  let indented := n.text.toList.flatMap fun c => if c = '\n' then "\n    ".toList else [c]
  "[" ++ word ++ padding ++ " " ++ n.topic ++ "] " ++ String.ofList indented ++ "\n"

end Notice

/-- A value, and the notices that were given on the way to it. -/
structure Logged (α : Type) where
  value : α
  notices : List Notice
deriving Inhabited

namespace Logged

instance : Monad Logged where
  pure a := ⟨a, []⟩
  bind x f := ⟨(f x.value).value, x.notices ++ (f x.value).notices⟩

/-- Give a notice. -/
def tell (n : Notice) : Logged Unit := ⟨(), [n]⟩

/-- Give several notices. -/
def tellAll (ns : List Notice) : Logged Unit := ⟨(), ns⟩

section laws
variable {α β : Type} (a : α) (x : Logged α) (f : α → Logged β) (n : Notice) (ns : List Notice)

@[simp] theorem value_pure : (pure a : Logged α).value = a := rfl
@[simp] theorem notices_pure : (pure a : Logged α).notices = [] := rfl
@[simp] theorem value_bind : (x >>= f).value = (f x.value).value := rfl
@[simp] theorem notices_bind : (x >>= f).notices = x.notices ++ (f x.value).notices := rfl
@[simp] theorem notices_tell : (tell n).notices = [n] := rfl
@[simp] theorem notices_tellAll : (tellAll ns).notices = ns := rfl

end laws

end Logged

end CodeSurvey
