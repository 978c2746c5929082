import CodeSurvey.Decimal.Shortest

/-! # JSON values

An object that was read has each name once, and its fields in the order of the names. -/

namespace CodeSurvey

/-- A number in JSON: whole numbers of 64 bits, and binary floating-point numbers. -/
inductive JsonNumber where
  | natural (n : Nat)
  /-- The number `-n`. -/
  | negative (n : Nat)
  | real (x : Binary64)
deriving DecidableEq, Repr, Inhabited

/-- A value in JSON. -/
inductive Json where
  | null
  | bool (b : Bool)
  | number (n : JsonNumber)
  | string (s : String)
  | array (items : List Json)
  | object (fields : List (String × Json))
deriving Repr, Inhabited

namespace Json

/-- Put a field in its place among others, instead of one of the same name. -/
def insertField (name : String) (v : Json) : List (String × Json) → List (String × Json)
  | [] => [(name, v)]
  | (other, w) :: rest =>
    if name < other then (name, v) :: (other, w) :: rest
    else if name = other then (name, v) :: rest
    else (other, w) :: insertField name v rest

/-- The object with some fields; of several fields of one name the last counts. -/
def ofFields (fields : List (String × Json)) : Json :=
  .object (fields.foldl (fun acc f => insertField f.1 f.2 acc) [])

/-- A field of an object. -/
def field? (v : Json) (name : String) : Option Json :=
  match v with
  | .object fields => fields.lookup name
  | _ => none

/-- The text of a string. -/
def string? : Json → Option String
  | .string s => some s
  | _ => none

/-- The items of an array. -/
def array? : Json → Option (List Json)
  | .array items => some items
  | _ => none

/-- The fields of an object. -/
def object? : Json → Option (List (String × Json))
  | .object fields => some fields
  | _ => none

/-- A truth value. -/
def bool? : Json → Option Bool
  | .bool b => some b
  | _ => none

/-- The whole number `n`. -/
def ofNat (n : Nat) : Json := .number (.natural n)

end Json

end CodeSurvey
