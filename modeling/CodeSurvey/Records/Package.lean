import CodeSurvey.Decimal.Shortest
import CodeSurvey.Records.Dict

/-! # Packages

What is recorded of the package that a codebase belongs to: how it describes itself,
which other packages it depends on, and which frameworks that shows. -/

namespace CodeSurvey

/-- The packages that a package depends on, each with the version that it asks for. -/
structure Dependencies where
  production : Dict String
  development : Dict String
  peer : Dict String
deriving DecidableEq, Repr, Inhabited

namespace Dependencies

/-- Whether there is no dependency of any kind. -/
def isEmpty (d : Dependencies) : Bool :=
  d.production.isEmpty && d.development.isEmpty && d.peer.isEmpty

/-- The dependencies for production and development; where both name a package, the
version for development counts. -/
def merged (d : Dependencies) : Dict String :=
  d.development.entries.foldl (fun m e => m.insert e.1 e.2) d.production

end Dependencies

/-- What a framework is for. -/
inductive FrameworkCategory where
  | frontend
  | backend
  | testing
  | build
  | utility
deriving DecidableEq, Repr, Inhabited

/-- The word for a category. -/
def FrameworkCategory.word : FrameworkCategory → String
  | .frontend => "frontend"
  | .backend => "backend"
  | .testing => "testing"
  | .build => "build"
  | .utility => "utility"

/-- A framework that the dependencies show. -/
structure DetectedFramework where
  name : String
  version : Option String
  category : FrameworkCategory
  /-- The part of its packages that are dependencies. -/
  confidence : Binary64
deriving DecidableEq, Repr, Inhabited

/-- How a package describes itself. -/
structure PackageRecord where
  name : String
  version : String
  description : Option String
  license : Option String
  author : Option String
  repository : Option String
  homepage : Option String
  keywords : Option (List String)
  main : Option String
  bin : Option (Dict String)
  scripts : Option (Dict String)
  isPrivate : Option Bool
deriving DecidableEq, Repr, Inhabited

end CodeSurvey
