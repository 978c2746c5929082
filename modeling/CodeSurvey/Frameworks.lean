import CodeSurvey.Records.Package

/-! # Frameworks

A framework shows in the packages that a codebase depends on.  `detectFrameworks` looks
for the frameworks of a table; how sure it is of one is the part of the framework's
packages that are dependencies with a version. -/

namespace CodeSurvey

/-- The packages that show a framework. -/
structure FrameworkSignature where
  name : String
  packages : List String
  category : FrameworkCategory
deriving DecidableEq, Repr, Inhabited

namespace FrameworkSignature

/-- The known frameworks. -/
def known : List FrameworkSignature := [
  ⟨"react", ["react", "react-dom"], .frontend⟩,
  ⟨"vue", ["vue"], .frontend⟩,
  ⟨"angular", ["@angular/core"], .frontend⟩,
  ⟨"svelte", ["svelte"], .frontend⟩,
  ⟨"next", ["next"], .frontend⟩,
  ⟨"nuxt", ["nuxt"], .frontend⟩,
  ⟨"express", ["express"], .backend⟩,
  ⟨"fastify", ["fastify"], .backend⟩,
  ⟨"koa", ["koa"], .backend⟩,
  ⟨"nestjs", ["@nestjs/core"], .backend⟩,
  ⟨"hapi", ["@hapi/hapi"], .backend⟩,
  ⟨"jest", ["jest"], .testing⟩,
  ⟨"vitest", ["vitest"], .testing⟩,
  ⟨"mocha", ["mocha"], .testing⟩,
  ⟨"webpack", ["webpack"], .build⟩,
  ⟨"vite", ["vite"], .build⟩,
  ⟨"rollup", ["rollup"], .build⟩,
  ⟨"esbuild", ["esbuild"], .build⟩,
  ⟨"typescript", ["typescript"], .utility⟩,
  ⟨"lodash", ["lodash"], .utility⟩,
  ⟨"axios", ["axios"], .utility⟩,
  ⟨"prisma", ["prisma", "@prisma/client"], .backend⟩,
  ⟨"graphql", ["graphql"], .backend⟩,
  ⟨"trpc", ["@trpc/server"], .backend⟩,
  ⟨"tailwindcss", ["tailwindcss"], .frontend⟩,
  ⟨"electron", ["electron"], .frontend⟩
]

end FrameworkSignature

/-- The digits and dots of a version, if there are any. -/
def plainVersion? (version : String) : Option String :=
  match version.toList.filter fun c => c.isDigit || c == '.' with
  | [] => none
  | cs => some (String.ofList cs)

/-- The versions, not empty, of the packages of a framework among the dependencies. -/
def FrameworkSignature.versions (s : FrameworkSignature) (declared : Dict String) : List String :=
  s.packages.filterMap fun p => (declared.get? p).filter (· != "")

/-- A framework, if one of its packages is a dependency. -/
def FrameworkSignature.detect? (s : FrameworkSignature) (declared : Dict String) :
    Option DetectedFramework :=
  match s.versions declared with
  | [] => none
  | first :: rest =>
    some
      { name := s.name
        version := plainVersion? first
        category := s.category
        confidence := Binary64.ofRatio (rest.length + 1) s.packages.length }

/-- The frameworks that the dependencies for production and development show, the
surest first, and those of equal confidence in the order of the table. -/
def detectFrameworks (d : Dependencies) : List DetectedFramework :=
  (FrameworkSignature.known.filterMap (·.detect? d.merged)).mergeSort fun a b =>
    b.confidence.order a.confidence != .gt

end CodeSurvey
