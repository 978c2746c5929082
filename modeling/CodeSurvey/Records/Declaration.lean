/-! # Declarations

What is recorded of the declarations in a source file.  A name or a type is recorded as
text; what a declaration does not have is `none`, which differs from an empty text. -/

namespace CodeSurvey

/-- A parameter of a function. -/
structure ParameterRecord where
  /-- The bound name; that of a rest parameter begins with three dots. -/
  name : String
  typeText : Option String
  isOptional : Bool
  defaultText : Option String
deriving DecidableEq, Repr, Inhabited

/-- A function, or a method of a class. -/
structure FunctionRecord where
  name : String
  /-- In the order of the declaration. -/
  parameters : List ParameterRecord
  returnType : Option String
  description : Option String
  /-- Methods always count as exported. -/
  isExported : Bool
  isAsync : Bool
  isPrivate : Bool
deriving DecidableEq, Repr, Inhabited

/-- A field of a class, or a property of an interface. -/
structure PropertyRecord where
  name : String
  typeText : Option String
  isStatic : Bool
  isPrivate : Bool
deriving DecidableEq, Repr, Inhabited

/-- A class. -/
structure ClassRecord where
  name : String
  /-- Its methods; a constructor is none of them. -/
  methods : List FunctionRecord
  properties : List PropertyRecord
  description : Option String
  isExported : Bool
  /-- The class that it extends, if that is given by a plain name. -/
  base : Option String
  /-- The interfaces that it implements, if there are any with a name. -/
  interfaces : Option (List String)
deriving DecidableEq, Repr, Inhabited

/-- An interface. -/
structure InterfaceRecord where
  name : String
  properties : List PropertyRecord
  isExported : Bool
deriving DecidableEq, Repr, Inhabited

/-- A type alias. -/
structure AliasRecord where
  name : String
  isExported : Bool
deriving DecidableEq, Repr, Inhabited

/-- An import of a module. -/
structure ImportRecord where
  /-- The module as it is written. -/
  source : String
  /-- The names that the import binds. -/
  names : List String
  /-- Whether one of them is bound to the default export. -/
  isDefault : Bool
deriving DecidableEq, Repr, Inhabited

/-- What kind of thing is exported. -/
inductive ExportKind where
  | function
  | classType
  | constant
  | interface
  | type
deriving DecidableEq, Repr, Inhabited

/-- The word for a kind. -/
def ExportKind.word : ExportKind → String
  | .function => "function"
  | .classType => "class"
  | .constant => "constant"
  | .interface => "interface"
  | .type => "type"

/-- An entry in the list of exports. -/
structure ExportRecord where
  name : String
  kind : ExportKind
  /-- The path of the file that declares it. -/
  file : String
  description : Option String
deriving DecidableEq, Repr, Inhabited

end CodeSurvey
