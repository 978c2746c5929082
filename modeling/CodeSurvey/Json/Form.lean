import CodeSurvey.Json.Mismatch

/-! # Records in JSON

A `Form α` tells how a record is made of the fields of an object: which fields there
are, and how the value of each is read.  It reads all fields before it decides, so that
it can be read off a `Reply` what is wrong and which of several faults counts:

* in an object, the fault in the field whose name comes first in order, and only then
  the first field that is lacking;
* a record may also be written as an array of its fields' values, and there the faults
  count in the order of the fields.

Fields that a form does not know are left out. -/

namespace CodeSurvey.Json

/-- The result of reading a value. -/
abbrev Decoded (α : Type) := Except Mismatch α

/-- What comes of reading the fields of a record: the record if all went well, the
faults by field, and the fields that are lacking. -/
structure Reply (α : Type) where
  value? : Option α
  faults : List (String × Mismatch)
  lacking : List String

/-- A way to make a record of named fields. -/
structure Form (α : Type) where
  names : List String
  read : (String → Option Json) → Reply α

namespace Form

variable {α β : Type}

/-- A record without fields. -/
protected def pure (a : α) : Form α := ⟨[], fun _ => ⟨some a, [], []⟩⟩

/-- A record with one more field. -/
def with_ (f : Form (α → β)) (x : Form α) : Form β where
  names := f.names ++ x.names
  read fields :=
    let r := f.read fields
    let s := x.read fields
    { value? := r.value?.bind fun g => s.value?.map g
      faults := r.faults ++ s.faults
      lacking := r.lacking ++ s.lacking }

/-- A field that is read by `decode`, and whose value is `absent` if it is lacking; a
field without such a value must be there. -/
def field (name : String) (decode : Json → Decoded α) (absent : Option α) : Form α where
  names := [name]
  read fields :=
    match fields name with
    | none => ⟨absent, [], if absent.isSome then [] else [name]⟩
    | some v =>
      match decode v with
      | .ok a => ⟨some a, [], []⟩
      | .error m => ⟨none, [(name, m)], []⟩

/-- A field that must be there. -/
def required (name : String) (decode : Json → Decoded α) : Form α := field name decode none

/-- The fault of the field whose name comes first. -/
def firstFault : List (String × Mismatch) → Option (String × Mismatch)
  | [] => none
  | f :: rest =>
    match firstFault rest with
    | none => some f
    | some g => if g.1 < f.1 then some g else some f

/-- How many elements a record has, in words. -/
def sizeWords (record : String) (n : Nat) : String :=
  record ++ " with " ++ toString n ++ (if n = 1 then " element" else " elements")

/-- Read a record, which is called `record` in messages. -/
def decode (record : String) (f : Form α) (v : Json) : Decoded α :=
  match v with
  | .object fields =>
    let r := f.read fun name => fields.lookup name
    match firstFault r.faults, r.lacking.head?, r.value? with
    | some (_, m), _, _ => .error m
    | none, some name, _ => .error (.lackingField name)
    | none, none, some a => .ok a
    | none, none, none => .error (.wrongType v record)
  | .array items =>
    let r := f.read fun name => (f.names.zip items).lookup name
    match r.faults.head?, r.lacking.head?, r.value? with
    | some (_, m), _, _ => .error m
    | none, some name, _ =>
      .error (.wrongLength (f.names.idxOf name) (sizeWords record f.names.length))
    | none, none, some a =>
      if f.names.length < items.length then
        .error (.wrongLength items.length "fewer elements in array")
      else .ok a
    | none, none, none => .error (.wrongType v record)
  | _ => .error (.wrongType v record)

end Form

/-! ### Plain values -/

/-- Read a text. -/
def decodeString : Json → Decoded String
  | .string s => .ok s
  | v => .error (.wrongType v "a string")

/-- Read a truth value. -/
def decodeBool : Json → Decoded Bool
  | .bool b => .ok b
  | v => .error (.wrongType v "a boolean")

/-- Read a number. -/
def decodeReal : Json → Decoded Binary64
  | .number (.natural n) => .ok (Binary64.ofRatio n 1)
  | .number (.negative n) => .ok { Binary64.ofRatio n 1 with negative := true }
  | .number (.real x) => .ok x
  | v => .error (.wrongType v "f64")

/-- Read a value that may be null. -/
def decodeOption {α : Type} (decode : Json → Decoded α) : Json → Decoded (Option α)
  | .null => .ok none
  | v => (decode v).map some

/-- Read a list. -/
def decodeList {α : Type} (decode : Json → Decoded α) : Json → Decoded (List α)
  | .array items => items.mapM decode
  | v => .error (.wrongType v "a sequence")

/-- Read the entries of a dictionary. -/
def decodeEntries : List (String × Json) → Decoded (List (String × String))
  | [] => .ok []
  | (name, v) :: rest => do
    let s ← decodeString v
    let entries ← decodeEntries rest
    return (name, s) :: entries

/-- Read one of some words, each of which stands for a value.  A word may also be the
name of the only field of an object, whose value is null. -/
def decodeWord {α : Type} (words : List (String × α)) (v : Json) : Decoded α :=
  let find (s : String) : Decoded α :=
    match words.lookup s with
    | some a => .ok a
    | none => .error (.unknownWord s (words.map (·.1)))
  match v with
  | .string s => find s
  | .object [(s, w)] => do
    let a ← find s
    match w with
    | .null => return a
    | _ => .error (.wrongType w "unit")
  | .object _ => .error (.wrongObject "map with a single key")
  | _ => .error (.wrongType v "string or map")

end CodeSurvey.Json
