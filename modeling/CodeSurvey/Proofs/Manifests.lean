import CodeSurvey.Manifest
import CodeSurvey.Proofs.Frameworks
import CodeSurvey.Proofs.JsonSpellings

/-! # What is read from which key of a manifest

A manifest is read whatever kinds of values it has and however it is spelled.

* Every key is read on its own.  So if two manifests differ in one key only, what they say differs
  at most in what is read from it (`agreesBut_packageOf`, `agreesBut_ofObject`); the name is also
  read where a single command is called like the package.  Nothing is read from a key that is not
  one of the known ones (`AgreesBut.eq_of_not_mem`).
* In an object whose names are all different, each name has the text in the dictionary that it has
  in the object (`Json.get?_stringFields`).  So a value of another kind is left out and makes no
  difference to the others (`keepsTexts_ofObject`).

Both hold of all spellings of two manifests (`parse_agreesBut`), unless values are nested too deep
(`parse_nestedLists`) or a number is too large (`parse_numeralField`): then nothing is read. -/

namespace CodeSurvey

/-! ### Texts in values -/

namespace Json

variable {fields : List (String × Json)}

theorem lookup_filterMap_string? (h : (fields.map (·.1)).Nodup) (n : String) :
    (fields.filterMap fun f => f.2.string?.map fun s => (f.1, s)).lookup n =
      (fields.lookup n).bind string? := by
  induction fields with
  | nil => rfl
  | cons f fields ih =>
      rw [List.map_cons, List.nodup_cons] at h
      rw [lookup_cons_eq_ite]
      cases hs : f.2.string? with
      | none =>
          rw [List.filterMap_cons_none (by rw [hs]; rfl), ih h.2]
          split
          next hn => rw [lookup_eq_none (hn ▸ h.1), Option.bind_none, Option.bind_some, hs]
          next => rfl
      | some s =>
          rw [List.filterMap_cons_some (by rw [hs]; rfl), lookup_cons_eq_ite, ih h.2]
          split
          next => rw [Option.bind_some, hs]
          next => rfl

/-- A name has the text of its field, if that is a text. -/
theorem get?_stringFields (h : fields.Pairwise (·.1 < ·.1)) (n : String) :
    (Manifest.stringFields (.object fields)).get? n = (fields.lookup n).bind string? := by
  have hkeys : (fields.map (·.1)).Nodup := by
    rw [List.Nodup, List.pairwise_map]
    exact h.imp fun hlt => String.ne_of_lt hlt
  have htexts : ((fields.filterMap fun f => f.2.string?.map fun s => (f.1, s)).map
      (·.1)).Nodup := by
    rw [List.Nodup, List.pairwise_map]
    refine h.filterMap _ fun f g hlt s hs t ht => ?_
    rw [Option.map_eq_some_iff] at hs ht
    obtain ⟨-, -, rfl⟩ := hs
    obtain ⟨-, -, rfl⟩ := ht
    exact String.ne_of_lt hlt
  rw [Manifest.stringFields, object?, Option.getD_some, Dict.get?_ofList htexts,
    lookup_filterMap_string? hkeys]

theorem IsOrdered.sorted_field {v : Json} (h : v.IsOrdered) {key : String}
    (hfield : v.field? key = some (.object fields)) : fields.Pairwise (·.1 < ·.1) := by
  cases h with
  | object hs h =>
      obtain ⟨before, after, rfl, -⟩ := List.lookup_eq_some_iff.mp hfield
      cases h _ (List.mem_append_right before List.mem_cons_self) with
      | object hs' h' => exact hs'
  | _ => cases hfield

/-- The text of a name in the object at a key. -/
def textAt (v : Json) (key name : String) : Option String :=
  ((v.field? key).bind (·.field? name)).bind string?

end Json

/-! ### Agreement -/

/-- Whether two packages agree in all that is not read from a key.  The commands are read from the
name as well if there is a `single` one. -/
structure PackageRecord.AgreesBut (key : String) (single : Prop) (p p' : PackageRecord) :
    Prop where
  name : key ≠ "name" → p.name = p'.name
  version : key ≠ "version" → p.version = p'.version
  description : key ≠ "description" → p.description = p'.description
  license : key ≠ "license" → p.license = p'.license
  author : key ≠ "author" → p.author = p'.author
  repository : key ≠ "repository" → p.repository = p'.repository
  homepage : key ≠ "homepage" → p.homepage = p'.homepage
  keywords : key ≠ "keywords" → p.keywords = p'.keywords
  main : key ≠ "main" → p.main = p'.main
  bin : key ≠ "bin" → (key = "name" → ¬ single) → p.bin = p'.bin
  scripts : key ≠ "scripts" → p.scripts = p'.scripts
  isPrivate : key ≠ "private" → p.isPrivate = p'.isPrivate

namespace Manifest

/-- Whether two manifests say the same but for what is read from a key. -/
structure AgreesBut (key : String) (single : Prop) (m m' : Manifest) : Prop where
  package : ∃ p p', m.package = some p ∧ m'.package = some p' ∧ p.AgreesBut key single p'
  production : key ≠ "dependencies" → m.dependencies.production = m'.dependencies.production
  development : key ≠ "devDependencies" → m.dependencies.development = m'.dependencies.development
  peer : key ≠ "peerDependencies" → m.dependencies.peer = m'.dependencies.peer

/-- The keys from which something is read. -/
def keys : List String :=
  ["name", "version", "description", "license", "author", "repository", "homepage", "keywords",
    "main", "bin", "scripts", "private", "dependencies", "devDependencies", "peerDependencies"]

variable {key : String} {single : Prop} {v v' : Json} {m m' : Manifest}

/-- Nothing is read from other keys. -/
theorem AgreesBut.eq_of_not_mem (h : m.AgreesBut key single m') (hkey : key ∉ keys) : m = m' := by
  simp only [keys, List.mem_cons, List.not_mem_nil, or_false, not_or] at hkey
  obtain ⟨hname, hversion, hdescription, hlicense, hauthor, hrepository, hhomepage, hkeywords,
    hmain, hbin, hscripts, hprivate, hproduction, hdevelopment, hpeer⟩ := hkey
  obtain ⟨p, p', hp, hp', hpackage⟩ := h.package
  have hsame : p = p' := by
    cases p
    cases p'
    simp only [PackageRecord.mk.injEq]
    exact ⟨hpackage.name hname, hpackage.version hversion, hpackage.description hdescription,
      hpackage.license hlicense, hpackage.author hauthor, hpackage.repository hrepository,
      hpackage.homepage hhomepage, hpackage.keywords hkeywords, hpackage.main hmain,
      hpackage.bin hbin fun h => absurd h hname, hpackage.scripts hscripts,
      hpackage.isPrivate hprivate⟩
  obtain ⟨package, production, development, peer⟩ := m
  obtain ⟨package', production', development', peer'⟩ := m'
  have hdependencies := And.intro (h.production hproduction)
    (And.intro (h.development hdevelopment) (h.peer hpeer))
  simp only at hp hp' hdependencies
  rw [hp, hp', hsame, hdependencies.1, hdependencies.2.1, hdependencies.2.2]

/-- The commands have nothing to do with the name unless there is a single one. -/
theorem commands?_eq {v : Json} (h : ∀ path, v ≠ .string path) (name name' : Option String) :
    commands? name v = commands? name' v := by
  cases v with
  | string path => exact absurd rfl (h path)
  | _ => rfl

theorem agreesBut_packageOf (h : ∀ n, n ≠ key → v.field? n = v'.field? n) :
    (packageOf v).AgreesBut key (∃ path, v.field? "bin" = some (.string path)) (packageOf v') := by
  have hfield : ∀ n, key ≠ n → v.field? n = v'.field? n := fun n hn => h n hn.symm
  constructor
  case bin =>
      intro hbin hsingle
      simp only [packageOf]
      rw [← hfield "bin" hbin]
      by_cases hname : key = "name"
      · cases hv : v.field? "bin" with
        | none => rfl
        | some w =>
            refine commands?_eq (fun path hw => hsingle hname ⟨path, ?_⟩) _ _
            rw [hv, hw]
      · rw [hfield "name" hname]
  all_goals
    intro hkey
    simp only [packageOf, hfield _ hkey]

theorem agreesBut_ofObject (h : ∀ n, n ≠ key → v.field? n = v'.field? n) :
    (ofObject v).AgreesBut key (∃ path, v.field? "bin" = some (.string path)) (ofObject v') := by
  refine ⟨⟨packageOf v, packageOf v', rfl, rfl, agreesBut_packageOf h⟩, ?_, ?_, ?_⟩
  all_goals
    intro hkey
    simp only [ofObject, dependenciesIn, h _ (Ne.symm hkey)]

/-! ### Texts among other values -/

/-- Whether a manifest says of the texts in a value what they are, and nothing else. -/
structure KeepsTexts (v : Json) (m : Manifest) : Prop where
  production : ∀ n, m.dependencies.production.get? n = v.textAt "dependencies" n
  development : ∀ n, m.dependencies.development.get? n = v.textAt "devDependencies" n
  peer : ∀ n, m.dependencies.peer.get? n = v.textAt "peerDependencies" n
  scripts : ∀ fields, v.field? "scripts" = some (.object fields) →
    ∃ p d, m.package = some p ∧ p.scripts = some d ∧ ∀ n, d.get? n = v.textAt "scripts" n
  bin : ∀ fields, v.field? "bin" = some (.object fields) →
    ∃ p d, m.package = some p ∧ p.bin = some d ∧ ∀ n, d.get? n = v.textAt "bin" n
  keywords : ∀ items, v.field? "keywords" = some (.array items) →
    ∃ p texts, m.package = some p ∧ p.keywords = some texts ∧
      texts.map Json.string = items.filter fun i => i.string?.isSome

theorem get?_stringFields_field (hv : v.IsOrdered) {w : Json} (h : v.field? key = some w)
    (n : String) : (stringFields w).get? n = v.textAt key n := by
  rw [Json.textAt, h, Option.bind_some]
  cases w with
  | object fields => exact Json.get?_stringFields (hv.sorted_field h) n
  | _ => rfl

theorem get?_dependenciesIn (hv : v.IsOrdered) (key n : String) :
    (dependenciesIn v key).get? n = v.textAt key n := by
  rw [dependenciesIn]
  cases h : v.field? key with
  | none =>
      rw [Json.textAt, h]
      rfl
  | some w => exact get?_stringFields_field hv h n

theorem map_string_filterMap (items : List Json) :
    (items.filterMap Json.string?).map Json.string = items.filter fun i => i.string?.isSome := by
  induction items with
  | nil => rfl
  | cons v items ih =>
      cases v with
      | string s => simpa [Json.string?] using ih
      | _ => exact ih

theorem keepsTexts_ofObject (hv : v.IsOrdered) : (ofObject v).KeepsTexts v where
  production := get?_dependenciesIn hv "dependencies"
  development := get?_dependenciesIn hv "devDependencies"
  peer := get?_dependenciesIn hv "peerDependencies"
  scripts := by
    intro fields h
    refine ⟨packageOf v, stringFields (.object fields), rfl, ?_, get?_stringFields_field hv h⟩
    simp only [packageOf, h]
    rfl
  bin := by
    intro fields h
    refine ⟨packageOf v, stringFields (.object fields), rfl, ?_, get?_stringFields_field hv h⟩
    simp only [packageOf, h]
    rfl
  keywords := by
    intro items h
    refine ⟨packageOf v, items.filterMap Json.string?, rfl, ?_, map_string_filterMap items⟩
    simp only [packageOf, h]
    rfl

/-- Whatever kinds of values a manifest has in whatever spelling, it is read, and another one with
the same values but for one key says the same but for what is read from this key.  Of values that
should be texts those that are none are left out. -/
theorem parse_agreesBut {text text' : String} {height height' : Nat}
    {fields fields' : List (String × Json)}
    (h : Json.Spells height text.toList (.object fields)) (hh : height < Json.maxDepth)
    (h' : Json.Spells height' text'.toList (.object fields')) (hh' : height' < Json.maxDepth)
    (hfields : ∀ n, n ≠ key → fields.lookup n = fields'.lookup n) :
    ∃ m m', parse text = .ok m ∧ parse text' = .ok m' ∧
      m.AgreesBut key (∃ path, fields.lookup "bin" = some (.string path)) m' ∧
      (key ∉ keys → m = m') ∧ m.KeepsTexts (.object fields) ∧ m'.KeepsTexts (.object fields') := by
  have hagree : (ofObject (.object fields)).AgreesBut key _ (ofObject (.object fields')) :=
    agreesBut_ofObject hfields
  refine ⟨ofObject (.object fields), ofObject (.object fields'), ?_, ?_, hagree,
    hagree.eq_of_not_mem, keepsTexts_ofObject h.isOrdered, keepsTexts_ofObject h'.isOrdered⟩
  · rw [parse, Json.parse_of_spells h hh]
    rfl
  · rw [parse, Json.parse_of_spells h' hh']
    rfl

/-- The fields of a manifest with a single command, and with a dependency without a version. -/
def scopedFields : List (String × Json) :=
  [("bin", .string "c.js"), ("dependencies", .object [("d", .string "1"), ("e", .null)]),
    ("name", .string "@a/b")]

/-- The same without the name. -/
def unnamedFields : List (String × Json) :=
  [("bin", .string "c.js"), ("dependencies", .object [("d", .string "1"), ("e", .null)])]

theorem readable_unnamedFields : ∀ f ∈ unnamedFields, Json.Readable 1 f.2 := by
  simp only [unnamedFields, List.forall_mem_cons]
  refine ⟨.string 1 _, .object ?_, List.forall_mem_nil _⟩
  simp only [List.forall_mem_cons]
  exact ⟨.string 0 _, .null 0, List.forall_mem_nil _⟩

theorem readable_scopedFields : ∀ f ∈ scopedFields, Json.Readable 1 f.2 := by
  rw [show scopedFields = unnamedFields ++ [("name", .string "@a/b")] from rfl,
    List.forall_mem_append, List.forall_mem_singleton]
  exact ⟨readable_unnamedFields, .string 1 _⟩

/-- The command is called like the package, so without the name there is none. -/
theorem parse_agreesBut_scoped :
    Json.Spells 2 (Json.object scopedFields).compact.toList (.object scopedFields) ∧
    Json.Spells 2 (Json.object unnamedFields).compact.toList (.object unnamedFields) ∧
    2 < Json.maxDepth ∧ (∀ n, n ≠ "name" → scopedFields.lookup n = unnamedFields.lookup n) ∧
    ∃ m m', parse (Json.object scopedFields).compact = .ok m ∧
      parse (Json.object unnamedFields).compact = .ok m' ∧
      m.AgreesBut "name" (∃ path, scopedFields.lookup "bin" = some (.string path)) m' := by
  have hscoped : Json.Spells 2 (Json.object scopedFields).compact.toList (.object scopedFields) :=
    (Json.Readable.object readable_scopedFields).spells_compact
  have hunnamed :
      Json.Spells 2 (Json.object unnamedFields).compact.toList (.object unnamedFields) :=
    (Json.Readable.object readable_unnamedFields).spells_compact
  have hdepth : 2 < Json.maxDepth := by decide
  have hfields : ∀ n, n ≠ "name" → scopedFields.lookup n = unnamedFields.lookup n := by
    intro n hn
    simp only [scopedFields, unnamedFields, Json.lookup_cons_eq_ite, if_neg hn]
  obtain ⟨m, m', hm, hm', hagree, -⟩ := parse_agreesBut hscoped hdepth hunnamed hdepth hfields
  exact ⟨hscoped, hunnamed, hdepth, hfields, m, m', hm, hm', hagree⟩

/-- Lists in lists. -/
def nestedLists : Nat → Json
  | 0 => .array []
  | depth + 1 => .array [nestedLists depth]

/-- An object without fields is read, but not with lists that are nested too deep in a new field. -/
theorem parse_nestedLists :
    (∃ m, parse (Json.object []).compact = .ok m) ∧
      ∀ m, parse (Json.object (Json.insertField "x" (nestedLists 126) [])).compact ≠ .ok m := by
  have hempty : parse (Json.object []).compact = .ok (ofObject (.object [])) := by decide +kernel
  have hnested : parse (Json.object (Json.insertField "x" (nestedLists 126) [])).compact =
      .error (.malformed "recursion limit exceeded at line 1 column 132") := by
    decide +kernel
  refine ⟨⟨_, hempty⟩, fun m hm => ?_⟩
  rw [hnested] at hm
  cases hm

theorem parse_numberField {numeral : List Char} {n : JsonNumber}
    (hn : Json.Spells 0 numeral (.number n)) :
    parse (String.ofList ("\x7b\"x\":".toList ++ (numeral ++ ['\x7d']))) =
      .ok (ofObject (.object [("x", .number n)])) := by
  have hgap : Json.IsGap [] := by simp [Json.IsGap]
  let field : Json.WrittenField := ⟨[], ['x'], [], numeral, ("x", .number n)⟩
  have hname : Json.Quotes ['x'] "x".toList :=
    .plain (by decide) (by decide) (by decide) .nil
  have hfield : ∀ f ∈ [field], f.IsNamed ∧ Json.Spells 0 f.value f.meaning.2 := by
    rw [List.forall_mem_singleton]
    exact ⟨⟨hgap, hname, hgap⟩, hn⟩
  have hobject := Json.Spells.object hgap (fun f hf => (hfield f hf).1) fun f hf => (hfield f hf).2
  have htext : Json.Spells 1 (String.ofList ("\x7b\"x\":".toList ++ (numeral ++ ['\x7d']))).toList
      (Json.ofFields [("x", .number n)]) := by
    simpa [Json.separated, Json.WrittenField.text, field] using hobject
  rw [parse, Json.parse_of_spells htext (by decide)]
  rfl

/-- A number in a new field makes no difference, unless it is too large to be read. -/
theorem parse_numeralField {cs : List Char} (h : Json.IsNumeral cs) (negative : Bool) :
    parse (String.ofList ("\x7b\"x\":".toList ++
        ((if negative then ['-'] else []) ++ cs ++ ['\x7d']))) = parse "\x7b\x7d" ∨
      ∃ f, Json.readNumber negative cs = .error f ∧ f.problem = .numberTooLarge := by
  refine (Json.spells_numeral h 0 negative).imp_left fun ⟨n, hn⟩ => ?_
  have hempty : parse "\x7b\x7d" = .ok (ofObject (.object [])) := by decide +kernel
  have hagree : (ofObject (.object [("x", .number n)])).AgreesBut "x" _ (ofObject (.object [])) :=
    agreesBut_ofObject fun k hk => by simp [Json.field?, Json.lookup_cons_eq_ite, hk]
  rw [parse_numberField hn, hempty, hagree.eq_of_not_mem (by decide)]

example : parse "\x7b\"x\":1e400\x7d" =
    .error (.malformed "number out of range at line 1 column 10") := by decide +kernel

end Manifest
end CodeSurvey
