import CodeSurvey.Yaml.Document
import CodeSurvey.Yaml.Value

/-! # Reading values from documents

A `Reading` takes a value from the parts of a document.  It fails where the document
does not hold such a value, or where the document cannot be read so far. -/

namespace CodeSurvey.Yaml

/-- Why a part of a document is not what was expected. -/
inductive Mismatch where
  | wrongType (found expected : String)
  | wrongValue (found expected : String)
  | unknownWord (found : String) (known : List String)
  | repeatedField (name : String)
deriving DecidableEq, Repr, Inhabited

/-- The wording of a mismatch. -/
def Mismatch.message : Mismatch → String
  | wrongType found expected => "invalid type: " ++ found ++ ", expected " ++ expected
  | wrongValue found expected =>
    "invalid value: string " ++ Text.quoted found ++ ", expected " ++ expected
  | unknownWord found known =>
    "unknown variant `" ++ found ++ "`, expected " ++ " or ".intercalate (known.map fun w => "`" ++ w ++ "`")
  | repeatedField name => "duplicate field `" ++ name ++ "`"

/-- Where in a document a mismatch is: the fields that lead there, and the place in the
text. -/
structure Place where
  path : String
  mark : Mark
deriving DecidableEq, Repr, Inhabited

/-- Why a value cannot be read. -/
inductive Failure where
  | obstacle (o : Obstacle)
  | mismatch (m : Mismatch) (place : Option Place)
deriving DecidableEq, Repr, Inhabited

/-- The wording of a failure. -/
def Failure.message : Failure → String
  | obstacle o => o.message
  | mismatch m none => m.message
  | mismatch m (some p) =>
    (if p.path.isEmpty then "" else p.path ++ ": ") ++ m.message ++ p.mark.place

/-- A way to read a value from the parts of a document. -/
abbrev Reading := ReaderT Document (StateT (List (Part × Mark)) (Except Failure))

namespace Reading

variable {α : Type}

/-- The next part. -/
def peek : Reading (Part × Mark) := do
  match ← get with
  | part :: _ => return part
  | [] => throw (.obstacle ((← read).obstacle.getD .secondDocument))

/-- Take the next part. -/
def take : Reading (Part × Mark) := do
  let part ← peek
  modify List.tail
  return part

/-- Fail without a place. -/
def misfit (m : Mismatch) : Reading α := throw (.mismatch m none)

/-- Give a mismatch that has no place yet the place of a part. -/
def placed (path : String) (mark : Mark) (r : Reading α) : Reading α :=
  tryCatch r fun
    | .mismatch m none => throw (.mismatch m (some ⟨path, mark⟩))
    | f => throw f

/-- Read a node, or the node to which there is a reference. -/
def named (r : Reading α) : Reading α := do
  match ← peek with
  | (.alias number, _) =>
    let _ ← take
    let after ← get
    set ((← read).partsFrom number)
    let a ← r
    set after
    return a
  | _ => r

/-- Fail at a part that is not what was expected. -/
def unexpected (part : Part) (expected : String) : Reading α :=
  match part with
  | .scalar tag text style =>
    match scalarValue tag style text with
    | .ok v => misfit (.wrongType v.describe expected)
    | .error words => misfit (.wrongValue text words)
  | .mappingStart _ => misfit (.wrongType "map" expected)
  | _ => misfit (.wrongType "sequence" expected)

/-- Whether a scalar is nothing at all. -/
def isAbsent : Part → Bool
  | .void => true
  | .scalar _ text style => text.isEmpty && style == .plain
  | _ => false

/-- Read a text.  Every scalar is one. -/
def text (path expected : String) : Reading String :=
  named do
    let (part, mark) ← take
    placed path mark do
      match part with
      | .scalar _ text _ => return text
      | _ => unexpected part expected

/-- Whether a scalar may be more than a text: it is plain, or its tag says so. -/
def mayBe (tag : String) (given : Option String) (style : ScalarStyle) : Bool :=
  style == .plain || (style == .literal && given == some tag)

/-- Read what a scalar may spell. -/
def spelled (path expected tag : String) (spell : String → Option α) : Reading α :=
  named do
    let (part, mark) ← take
    placed path mark do
      match part with
      | .scalar given text style =>
        match if mayBe tag given style then spell text else none with
        | some a => return a
        | none => unexpected part expected
      | _ => unexpected part expected

/-- Read a truth value. -/
def boolean (path : String) : Reading Bool := spelled path "a boolean" booleanTag boolean?

/-- Read a natural number of 64 bits. -/
def natural (path : String) : Reading Nat :=
  spelled path "usize" wholeTag (natural? (Nat.pow 2 64))

/-- Read a value that may be nothing. -/
def option (r : Reading α) : Reading (Option α) :=
  named do
    match (← peek).1 with
    | .scalar tag text style =>
      let present ←
        if style != .plain then pure true
        else
          match tag with
          | none => pure (!text.isEmpty && !spellsNull text)
          | some tag =>
            if tag != nullTag then pure true
            else if spellsNull text then pure false
            else misfit (.wrongValue text "null")
      if present then return some (← r)
      else
        let _ ← take
        return none
    | .void =>
      let _ ← take
      return none
    | _ => return some (← r)

/-- Read a sequence, whose entries are read by a function of their paths. -/
def list (path : String) (entry : String → Reading α) : Reading (List α) :=
  named do
    let (part, mark) ← take
    placed path mark do
      if isAbsent part then return []
      match part with
      | .sequenceStart _ => loop (← get).length 0 []
      | _ => unexpected part "a sequence"
where
  loop : Nat → Nat → List α → Reading (List α)
    | 0, _, read => do
      let _ ← take
      return read.reverse
    | n + 1, i, read => do
      if (← peek).1 == .sequenceEnd then
        let _ ← take
        return read.reverse
      else
        let a ← entry (path ++ "[" ++ toString i ++ "]")
        loop n (i + 1) (a :: read)

/-- What follows a node of which `depth` collections are open. -/
def passOver (depth : Nat) : List (Part × Mark) → Option (List (Part × Mark))
  | [] => none
  | (part, _) :: rest =>
    let depth := match part with
      | .sequenceStart _ => depth + 1
      | .mappingStart _ => depth + 1
      | .sequenceEnd => depth - 1
      | .mappingEnd => depth - 1
      | _ => depth
    if depth = 0 then some rest else passOver depth rest

/-- Pass over a node. -/
def skip : Reading Unit := do
  match passOver 0 (← get) with
  | some rest => set rest
  | none =>
    set ([] : List (Part × Mark))
    let _ ← peek

/-- The nothing that follows the tag of a word. -/
def nothing (path : String) : Reading Unit :=
  named do
    let (part, mark) ← take
    placed path mark do
      match part with
      | .scalar _ text style =>
        if text.isEmpty || (style == .plain && spellsNull text) then return
        else misfit (.wrongValue text "null")
      | .void => return
      | _ => unexpected part "unit"

/-- The word that a tag is. -/
def tagWord (tag : Option String) : Option String :=
  tag.bind fun tag =>
    match tag.toList with
    | ['!'] => some "!"
    | '!' :: cs => some (String.ofList cs)
    | _ => none

/-- Read one of several words: a scalar, or a tag before nothing. -/
def word (path : String) (words : List (String × α)) : Reading α :=
  named do
    let (part, mark) ← peek
    let known (w : String) : Reading α :=
      match words.lookup w with
      | some a => return a
      | none => misfit (.unknownWord w (words.map (·.1)))
    let tagged (tag : Option String) (r : Reading α) : Reading α :=
      match tagWord tag with
      | some w => do
        let a ← known w
        nothing path
        return a
      | none => r
    match part with
    | .scalar tag _ _ =>
      tagged tag do
        let w ← text path "variant identifier"
        placed path mark (known w)
    | .sequenceStart tag =>
      tagged tag (placed path mark (misfit (.wrongType "sequence" "a YAML tag starting with '!'")))
    | .mappingStart tag =>
      tagged tag (placed path mark (misfit (.wrongType "map" "a YAML tag starting with '!'")))
    | _ => throw (.obstacle .secondDocument)

/-- Read the value of a field, unless the field was read before. -/
def once (field : String) (before : Option α) (r : Reading α) : Reading (Option α) :=
  match before with
  | some _ => misfit (.repeatedField field)
  | none => some <$> r

/-- Read a mapping.  The function `field` gets what was read so far and the name of a
field with its path; it reads the value. -/
def record (empty : α) (name : String) (field : α → String → String → Reading α) : Reading α :=
  named do
    let (part, mark) ← take
    placed "" mark do
      if isAbsent part then return empty
      match part with
      | .mappingStart _ => loop (← get).length empty
      | _ => unexpected part ("struct " ++ name)
where
  loop : Nat → α → Reading α
    | 0, a => do
      let _ ← take
      return a
    | n + 1, a => do
      match (← peek).1 with
      | .mappingEnd =>
        let _ ← take
        return a
      | key =>
        let name ← text "" "field identifier"
        let path := match key with
          | .scalar _ _ _ => name
          | _ => "?"
        loop n (← field a name path)

end Reading

/-- Read a value that is the only document of a text. -/
def readAll {α : Type} (s : String) (r : Reading α) : Except Failure α :=
  let d := Document.ofText s
  match (r.run d).run d.parts with
  | .error f => .error f
  | .ok (a, _) =>
    match d.obstacle with
    | some o => .error (.obstacle o)
    | none => .ok a

end CodeSurvey.Yaml
