import CodeSurvey.Frameworks
import CodeSurvey.Proofs.JsonText
import CodeSurvey.Records.Decoding
import CodeSurvey.Report.Format

/-! # Records are read back from their text

A value stands for something if its text is read back and decoded as that (`Json.StandsFor`).

* Fields are found by their names, so it makes no difference that they are read in another
  order (`lookup_ofFields`), nor that fields without a value are left out.
* `Form.Writes` says that a form reads back a record from some fields.  It is built up field by
  field, like the form (`Writes.required`, `Writes.optional`), and then the object with these
  fields stands for the record (`Writes.standsFor`).
* So each kind of record has one lemma (`ParameterRecord.standsFor` to `Codebase.standsFor`),
  which goes through the fields in their order.

It follows that a report in full is read back as the codebase that it reports, and that
different codebases have different reports (`ofJson_full`). -/

namespace CodeSurvey

/-! ### Dictionaries -/

namespace Dict

variable {β : Type}

theorem insertEntry_of_forall_lt {k : String} {v : β} {es : List (String × β)}
    (h : ∀ e ∈ es, e.1 < k) : insertEntry k v es = es ++ [(k, v)] := by
  induction es with
  | nil => rfl
  | cons e rest ih =>
      rw [List.forall_mem_cons] at h
      have hlt : ¬ k < e.1 := fun h' => String.lt_irrefl k (String.lt_trans h' h.1)
      have hne : k ≠ e.1 := fun h' => String.lt_irrefl k (h' ▸ h.1)
      rw [insertEntry, if_neg hlt, if_neg hne, ih h.2, List.cons_append]

/-- Entries in the order of their keys are left in it. -/
theorem foldl_insertEntry {es read : List (String × β)} (h : (read ++ es).Pairwise (·.1 < ·.1)) :
    es.foldl (fun acc e => insertEntry e.1 e.2 acc) read = read ++ es := by
  induction es generalizing read with
  | nil => rw [List.foldl_nil, List.append_nil]
  | cons e rest ih =>
      have hlt : ∀ f ∈ read, f.1 < e.1 := fun f hf =>
        (List.pairwise_append.mp h).2.2 f hf e List.mem_cons_self
      rw [List.foldl_cons, insertEntry_of_forall_lt hlt, ih (by simpa using h)]
      simp

theorem entries_foldl_insert (es : List (String × β)) (d : Dict β) :
    (es.foldl (fun d e => d.insert e.1 e.2) d).entries =
      es.foldl (fun acc e => insertEntry e.1 e.2 acc) d.entries := by
  induction es generalizing d with
  | nil => rfl
  | cons e rest ih =>
      rw [List.foldl_cons, ih]
      rfl

/-- A dictionary is made of its entries. -/
theorem ofList_entries (d : Dict β) : ofList d.entries = d := by
  have h : (ofList d.entries).entries = d.entries := by
    rw [ofList, entries_foldl_insert]
    exact foldl_insertEntry d.sorted
  cases d
  cases hd : ofList _
  simp only [hd] at h
  simp only [h]

end Dict

namespace Json

/-! ### Fields -/

theorem lookup_cons_eq_ite {β : Type} (n : String) (f : String × β) (rest : List (String × β)) :
    (f :: rest).lookup n = if n = f.1 then some f.2 else rest.lookup n := by
  rw [List.lookup_cons]
  by_cases h : n = f.1
  · simp [h]
  · have e : (n == f.1) = false := by simpa using h
    rw [e, if_neg h]

theorem lookup_eq_none {β : Type} {n : String} {fields : List (String × β)}
    (h : n ∉ fields.map (·.1)) : fields.lookup n = none := by
  rw [List.lookup_eq_none_iff]
  intro f hf
  simpa using fun e : n = f.1 => h (e ▸ List.mem_map_of_mem hf)

theorem lookup_insertField (name n : String) (v : Json) (fields : List (String × Json)) :
    (insertField name v fields).lookup n = if n = name then some v else fields.lookup n := by
  induction fields with
  | nil => rw [insertField, lookup_cons_eq_ite]
  | cons f rest ih =>
      rw [insertField]
      split
      next => rw [lookup_cons_eq_ite]
      next =>
          split
          next h =>
              rw [lookup_cons_eq_ite, lookup_cons_eq_ite, h]
              split <;> rfl
          next h =>
              rw [lookup_cons_eq_ite, ih, lookup_cons_eq_ite]
              split
              next hn => rw [if_neg fun e => h (e.symm.trans hn)]
              next => rfl

/-- Fields with different names are found in the object that they make. -/
theorem lookup_foldl_insertField {fields : List (String × Json)} (hd : (fields.map (·.1)).Nodup)
    (read : List (String × Json)) (n : String) :
    (fields.foldl (fun acc f => insertField f.1 f.2 acc) read).lookup n =
      (fields.lookup n).or (read.lookup n) := by
  induction fields generalizing read with
  | nil => rfl
  | cons f rest ih =>
      rw [List.map_cons, List.nodup_cons] at hd
      rw [List.foldl_cons, ih hd.2, lookup_insertField, lookup_cons_eq_ite]
      split
      next hn =>
          rw [lookup_eq_none (hn ▸ hd.1)]
          rfl
      next => rfl

theorem lookup_map_normal (fields : List (String × Json)) (n : String) :
    (fields.map fun f => (f.1, f.2.normal)).lookup n = (fields.lookup n).map normal := by
  induction fields with
  | nil => rfl
  | cons f rest ih =>
      rw [List.map_cons, lookup_cons_eq_ite, lookup_cons_eq_ite, ih]
      split <;> rfl

/-- Fields in the order of their names are left in it. -/
theorem ofFields_eq {fields : List (String × Json)} (h : fields.Pairwise (·.1 < ·.1)) :
    ofFields fields = .object fields := by
  simp only [ofFields, insertField_eq]
  rw [Dict.foldl_insertEntry (by simpa using h), List.nil_append]

/-! ### Values and what they stand for -/

/-- Whether a value in which others are nested at most `height` deep is read back from its text,
and then decoded as `a`. -/
structure StandsFor {α : Type} (height : Nat) (decode : Json → Decoded α) (v : Json) (a : α) :
    Prop where
  readable : Readable height v
  decoded : decode v.normal = .ok a
  notNull : v ≠ .null

section Values

variable {α : Type} {height : Nat} {decode : Json → Decoded α} {v : Json} {a : α}

theorem standsFor_string (height : Nat) (s : String) :
    StandsFor height decodeString (.string s) s := ⟨.string height s, rfl, by simp⟩

theorem standsFor_bool (height : Nat) (b : Bool) : StandsFor height decodeBool (.bool b) b :=
  ⟨.bool height b, rfl, by simp⟩

theorem standsFor_real (height : Nat) {x : Binary64} (h : IsReadNumber (.real x)) :
    StandsFor height decodeReal (.number (.real x)) x := ⟨.number height h, rfl, by simp⟩

theorem standsFor_word (height : Nat) {words : List (String × α)} {word : String}
    (h : words.lookup word = some a) : StandsFor height (decodeWord words) (.string word) a := by
  refine ⟨.string height word, ?_, by simp⟩
  have e : (string word).normal = .string word := rfl
  simp only [e, decodeWord, h]

/-- A list of values stands for the list of what they stand for. -/
theorem StandsFor.list {encode : α → Json} {xs : List α}
    (h : ∀ x ∈ xs, StandsFor height decode (encode x) x) :
    StandsFor (height + 1) (decodeList decode) (.array (xs.map encode)) xs := by
  refine ⟨.array (List.forall_mem_map.mpr fun x hx => (h x hx).readable), ?_, by simp⟩
  rw [normal_array, decodeList]
  induction xs with
  | nil => rfl
  | cons x rest ih =>
      rw [List.forall_mem_cons] at h
      rw [List.map_cons, List.map_cons, List.mapM_cons, h.1.decoded, ih h.2]
      rfl

theorem standsFor_strings (height : Nat) (xs : List String) :
    StandsFor (height + 1) (decodeList decodeString) (ofStrings xs) xs :=
  .list fun s _ => standsFor_string height s

/-- A dictionary of texts is decoded as itself. -/
theorem standsFor_dict (height : Nat) (d : Dict String) :
    StandsFor (height + 1) decodeDict (ofDict d) d := by
  have hentries : ∀ es : List (String × String),
      decodeEntries (es.map fun e => (e.1, .string e.2)) = .ok es := by
    intro es
    induction es with
    | nil => rfl
    | cons e rest ih =>
        rw [List.map_cons, decodeEntries, ih]
        rfl
  refine ⟨.object (List.forall_mem_map.mpr fun e _ => .string height e.2), ?_, by simp [ofDict]⟩
  rw [ofDict, normal_object, List.map_map, ofFields_eq (List.pairwise_map.mpr d.sorted)]
  have e : decodeEntries (d.entries.map ((fun f : String × Json => (f.1, f.2.normal)) ∘
      fun e => (e.1, .string e.2))) = .ok d.entries := hentries d.entries
  simp only [decodeDict, e, Except.map, Dict.ofList_entries]

theorem normal_ne_null (h : v ≠ .null) : v.normal ≠ .null := by
  cases v <;> simp_all [normal, ofFields]

theorem decodeOption_of_ne_null (h : v ≠ .null) : decodeOption decode v = (decode v).map some := by
  unfold decodeOption
  split
  next => exact absurd rfl h
  next => rfl

/-- What stands for something is decoded as that also where null may stand for nothing. -/
theorem StandsFor.option (h : StandsFor height decode v a) :
    decodeOption decode v.normal = .ok (some a) := by
  rw [decodeOption_of_ne_null (normal_ne_null h.notNull), h.decoded]
  rfl

end Values

/-! ### Forms -/

namespace Form

variable {α β : Type} {height : Nat}

/-- Whether a form makes a record of fields that are read back from their text. -/
structure Writes (height : Nat) (f : Form α) (a : α) (fields : List (String × Json)) : Prop where
  names : (fields.map (·.1)).Sublist f.names
  readable : ∀ g ∈ fields, Readable height g.2
  read : f.names.Nodup → ∀ get : String → Option Json,
    (∀ n ∈ f.names, get n = (fields.lookup n).map normal) → f.read get = ⟨some a, [], []⟩

theorem writes_pure (height : Nat) (a : α) : Writes height (Form.pure a) a [] := by
  refine ⟨List.Sublist.slnil, by simp, ?_⟩
  intro _ get _
  rfl

/-- Records are made of different fields one by one. -/
theorem Writes.with_ {f : Form (α → β)} {x : Form α} {g : α → β} {a : α}
    {fields more : List (String × Json)} (hf : Writes height f g fields)
    (hx : Writes height x a more) : Writes height (f.with_ x) (g a) (fields ++ more) := by
  refine ⟨?_, ?_, ?_⟩
  · rw [List.map_append]
    exact hf.names.append hx.names
  · exact List.forall_mem_append.mpr ⟨hf.readable, hx.readable⟩
  · intro hd get hget
    obtain ⟨hdf, hdx, hne⟩ := List.nodup_append.mp hd
    have hrf := hf.read hdf get fun n hn => by
      have hmore : n ∉ more.map (·.1) := fun h => hne n hn n (hx.names.subset h) rfl
      rw [hget n (List.mem_append_left _ hn), List.lookup_append, lookup_eq_none hmore,
        Option.or_none]
    have hrx := hx.read hdx get fun n hn => by
      have hfields : n ∉ fields.map (·.1) := fun h => hne n (hf.names.subset h) n hn rfl
      rw [hget n (List.mem_append_right _ hn), List.lookup_append, lookup_eq_none hfields,
        Option.none_or]
    simp only [Form.with_, hrf, hrx]
    rfl

theorem Writes.required {f : Form (α → β)} {g : α → β} {fields : List (String × Json)}
    (hf : Writes height f g fields) {name : String} {decode : Json → Decoded α} {v : Json} {a : α}
    (h : StandsFor height decode v a) :
    Writes height (f.with_ (Form.required name decode)) (g a) (fields ++ [(name, v)]) := by
  refine hf.with_ ⟨List.Sublist.refl _, by simpa using h.readable, ?_⟩
  intro _ get hget
  have hv : get name = some v.normal := by simpa using hget name (List.mem_singleton_self name)
  simp only [Form.required, field, hv, h.decoded]

theorem Writes.optional {f : Form (Option α → β)} {g : Option α → β}
    {fields : List (String × Json)} (hf : Writes height f g fields) {name : String}
    {decode : Json → Decoded α} {encode : α → Json} {o : Option α}
    (h : ∀ a ∈ o, StandsFor height decode (encode a) a) :
    Writes height (f.with_ (Json.optional name decode)) (g o)
      (fields ++ optionalField name encode o) := by
  cases o with
  | none =>
      refine hf.with_ ⟨List.nil_sublist _, by simp [optionalField], ?_⟩
      intro _ get hget
      have hv : get name = none := hget name (List.mem_singleton_self name)
      simp [Json.optional, field, hv]
  | some a =>
      have ha := h a rfl
      refine hf.with_ ⟨List.Sublist.refl _, by simpa [optionalField] using ha.readable, ?_⟩
      intro _ get hget
      have hv : get name = some (encode a).normal := by
        simpa [optionalField] using hget name (List.mem_singleton_self name)
      simp only [Json.optional, field, hv, ha.option]

/-- The object with the fields of a record stands for the record. -/
theorem Writes.standsFor {f : Form α} {a : α} {fields : List (String × Json)}
    (h : Writes height f a fields) (hd : f.names.Nodup) (record : String) :
    StandsFor (height + 1) (f.decode record) (.object fields) a := by
  refine ⟨.object h.readable, ?_, by simp⟩
  have hfields : ((fields.map fun g => (g.1, g.2.normal)).map (·.1)).Nodup := by
    rw [List.map_map]
    exact h.names.nodup hd
  have hread := h.read hd
    (fun n => ((fields.map fun g => (g.1, g.2.normal)).foldl
      (fun acc g => insertField g.1 g.2 acc) []).lookup n) fun n _ => by
    rw [lookup_foldl_insertField hfields, List.lookup_nil, Option.or_none, lookup_map_normal]
  rw [normal_object, ofFields, decode]
  simp only [hread, firstFault, List.head?_nil]

end Form

end Json

/-! ### Records -/

open Json Json.Form

variable {height : Nat}

theorem ParameterRecord.standsFor (p : ParameterRecord) :
    StandsFor (height + 1) (ParameterRecord.form.decode "struct ParamInfo") p.toJson p := by
  have h : Writes height ParameterRecord.form p _ :=
    (writes_pure height ParameterRecord.mk)
      |>.required (standsFor_string height p.name)
      |>.optional (fun s _ => standsFor_string height s)
      |>.required (standsFor_bool height p.isOptional)
      |>.optional (fun s _ => standsFor_string height s)
  exact h.standsFor (by decide) _

theorem FunctionRecord.standsFor (f : FunctionRecord) :
    StandsFor (height + 3) FunctionRecord.ofJson f.toJson f := by
  have h : Writes (height + 2) FunctionRecord.form f _ :=
    (writes_pure _ FunctionRecord.mk)
      |>.required (standsFor_string _ f.name)
      |>.required (.list fun p _ => p.standsFor)
      |>.optional (fun s _ => standsFor_string _ s)
      |>.optional (fun s _ => standsFor_string _ s)
      |>.required (standsFor_bool _ f.isExported)
      |>.required (standsFor_bool _ f.isAsync)
      |>.required (standsFor_bool _ f.isPrivate)
  have hs := h.standsFor (by decide) "struct FunctionInfo"
  simpa only [FunctionRecord.ofJson, FunctionRecord.toJson, List.append_assoc, List.cons_append,
    List.nil_append] using hs

theorem PropertyRecord.standsFor (p : PropertyRecord) :
    StandsFor (height + 1) PropertyRecord.ofJson p.toJson p := by
  have h : Writes height PropertyRecord.form p _ :=
    (writes_pure height PropertyRecord.mk)
      |>.required (standsFor_string height p.name)
      |>.optional (fun s _ => standsFor_string height s)
      |>.required (standsFor_bool height p.isStatic)
      |>.required (standsFor_bool height p.isPrivate)
  have hs := h.standsFor (by decide) "struct PropertyInfo"
  simpa only [PropertyRecord.ofJson, PropertyRecord.toJson, List.append_assoc, List.cons_append,
    List.nil_append] using hs

theorem ClassRecord.standsFor (c : ClassRecord) :
    StandsFor (height + 5) (ClassRecord.form.decode "struct ClassInfo") c.toJson c := by
  have h : Writes (height + 4) ClassRecord.form c _ :=
    (writes_pure _ ClassRecord.mk)
      |>.required (standsFor_string _ c.name)
      |>.required (.list fun m _ => m.standsFor)
      |>.required (.list fun p _ => p.standsFor)
      |>.optional (fun s _ => standsFor_string _ s)
      |>.required (standsFor_bool _ c.isExported)
      |>.optional (fun s _ => standsFor_string _ s)
      |>.optional (fun xs _ => standsFor_strings _ xs)
  have hs := h.standsFor (by decide) "struct ClassInfo"
  simpa only [ClassRecord.toJson, List.append_assoc, List.cons_append, List.nil_append] using hs

theorem InterfaceRecord.standsFor (i : InterfaceRecord) :
    StandsFor (height + 3) (InterfaceRecord.form.decode "struct InterfaceInfo") i.toJson i := by
  have h : Writes (height + 2) InterfaceRecord.form i _ :=
    (writes_pure _ InterfaceRecord.mk)
      |>.required (standsFor_string _ i.name)
      |>.required (.list fun p _ => p.standsFor)
      |>.required (standsFor_bool _ i.isExported)
  exact h.standsFor (by decide) _

theorem AliasRecord.standsFor (a : AliasRecord) :
    StandsFor (height + 1) (AliasRecord.form.decode "struct TypeInfo") a.toJson a := by
  have h : Writes height AliasRecord.form a _ :=
    (writes_pure _ AliasRecord.mk)
      |>.required (standsFor_string _ a.name)
      |>.required (standsFor_bool _ a.isExported)
  exact h.standsFor (by decide) _

theorem ImportRecord.standsFor (i : ImportRecord) :
    StandsFor (height + 2) (ImportRecord.form.decode "struct ImportInfo") i.toJson i := by
  have h : Writes (height + 1) ImportRecord.form i _ :=
    (writes_pure _ ImportRecord.mk)
      |>.required (standsFor_string _ i.source)
      |>.required (standsFor_strings _ i.names)
      |>.required (standsFor_bool _ i.isDefault)
  exact h.standsFor (by decide) _

theorem ExportRecord.standsFor (e : ExportRecord) :
    StandsFor (height + 1) (ExportRecord.form.decode "struct ExportInfo") e.toJson e := by
  have hkind : ExportKind.words.lookup e.kind.word = some e.kind := by
    cases e.kind <;> decide
  have h : Writes height ExportRecord.form e _ :=
    (writes_pure _ ExportRecord.mk)
      |>.required (standsFor_string _ e.name)
      |>.required (standsFor_word _ hkind)
      |>.required (standsFor_string _ e.file)
      |>.optional (fun s _ => standsFor_string _ s)
  exact h.standsFor (by decide) _

theorem FileRecord.standsFor (f : FileRecord) :
    StandsFor (height + 7) (FileRecord.form.decode "struct ParsedFile") f.toJson f := by
  have h : Writes (height + 6) FileRecord.form f _ :=
    (writes_pure _ FileRecord.mk)
      |>.required (standsFor_string _ f.path)
      |>.required (standsFor_string _ f.relativePath)
      |>.required (.list fun x _ => x.standsFor)
      |>.required (.list fun x _ => x.standsFor)
      |>.required (.list fun x _ => x.standsFor)
      |>.required (.list fun x _ => x.standsFor)
      |>.required (.list fun x _ => x.standsFor)
  exact h.standsFor (by decide) _

theorem Dependencies.standsFor (d : Dependencies) :
    StandsFor (height + 2) (Dependencies.form.decode "struct DependencyInfo") d.toJson d := by
  have h : Writes (height + 1) Dependencies.form d _ :=
    (writes_pure _ Dependencies.mk)
      |>.required (standsFor_dict _ d.production)
      |>.required (standsFor_dict _ d.development)
      |>.required (standsFor_dict _ d.peer)
  exact h.standsFor (by decide) _

/-- Whether the confidence in a framework is one that a detection can have. -/
def DetectedFramework.IsSureOrHalf (f : DetectedFramework) : Prop :=
  f.confidence = .ofRatio 1 2 ∨ f.confidence = .ofRatio 1 1

theorem DetectedFramework.standsFor {f : DetectedFramework} (hf : f.IsSureOrHalf) :
    StandsFor (height + 1) (DetectedFramework.form.decode "struct FrameworkInfo") f.toJson f := by
  have hcategory : FrameworkCategory.words.lookup f.category.word = some f.category := by
    cases f.category <;> decide
  have hconfidence : IsReadNumber (.real f.confidence) := by
    rcases hf with h | h
    · exact h ▸ isReadNumber_half
    · exact h ▸ isReadNumber_one
  have h : Writes height DetectedFramework.form f _ :=
    (writes_pure _ DetectedFramework.mk)
      |>.required (standsFor_string _ f.name)
      |>.optional (fun s _ => standsFor_string _ s)
      |>.required (standsFor_word _ hcategory)
      |>.required (standsFor_real _ hconfidence)
  have hs := h.standsFor (by decide) "struct FrameworkInfo"
  simpa only [DetectedFramework.toJson, List.append_assoc, List.cons_append, List.nil_append]
    using hs

theorem PackageRecord.standsFor (p : PackageRecord) :
    StandsFor (height + 2) (PackageRecord.form.decode "struct PackageInfo") p.toJson p := by
  have h : Writes (height + 1) PackageRecord.form p _ :=
    (writes_pure _ PackageRecord.mk)
      |>.required (standsFor_string _ p.name)
      |>.required (standsFor_string _ p.version)
      |>.optional (fun s _ => standsFor_string _ s)
      |>.optional (fun s _ => standsFor_string _ s)
      |>.optional (fun s _ => standsFor_string _ s)
      |>.optional (fun s _ => standsFor_string _ s)
      |>.optional (fun s _ => standsFor_string _ s)
      |>.optional (fun xs _ => standsFor_strings _ xs)
      |>.optional (fun s _ => standsFor_string _ s)
      |>.optional (fun d _ => standsFor_dict _ d)
      |>.optional (fun d _ => standsFor_dict _ d)
      |>.optional (fun b _ => standsFor_bool _ b)
  exact h.standsFor (by decide) _

/-! ### Codebases -/

/-- Every confidence in a framework that is detected is a half or one. -/
theorem isSureOrHalf_of_mem_detectFrameworks {d : Dependencies} {f : DetectedFramework}
    (h : f ∈ detectFrameworks d) : f.IsSureOrHalf := by
  have hknown : ∀ s ∈ FrameworkSignature.known, s.packages.length = 1 ∨ s.packages.length = 2 := by
    decide
  have htwo : Binary64.ofRatio 2 2 = Binary64.ofRatio 1 1 := by decide +kernel
  rw [detectFrameworks, List.mem_mergeSort, List.mem_filterMap] at h
  obtain ⟨s, hs, hf⟩ := h
  have hle : (s.versions d.merged).length ≤ s.packages.length := List.length_filterMap_le _ _
  unfold FrameworkSignature.detect? at hf
  split at hf
  next => cases hf
  next first rest hv =>
      rw [hv, List.length_cons] at hle
      cases hf
      unfold DetectedFramework.IsSureOrHalf
      simp only
      rcases hknown s hs with hk | hk <;> rw [hk] at hle ⊢
      · obtain hr : rest.length = 0 := by omega
        rw [hr]
        exact .inr rfl
      · obtain hr | hr : rest.length = 0 ∨ rest.length = 1 := by omega
        · rw [hr]
          exact .inl rfl
        · rw [hr]
          exact .inr htwo

theorem Codebase.standsFor {c : Codebase} (hc : ∀ f ∈ c.frameworks, f.IsSureOrHalf) :
    StandsFor 9 Codebase.ofJson c.toJson c := by
  have h : Writes 8 Codebase.form c _ :=
    (writes_pure _ Codebase.mk)
      |>.required (.list fun x _ => x.standsFor)
      |>.required c.dependencies.standsFor
      |>.required (.list fun x _ => x.standsFor)
      |>.required (.list fun x hx => DetectedFramework.standsFor (hc x hx))
      |>.optional (fun x _ => x.standsFor)
  exact h.standsFor (by decide) _

/-- A report in full is read back as the codebase that it reports, so that different codebases have
different reports: nothing is lost of what a field without a value, an empty text, an empty list
and an empty dictionary are. -/
theorem Report.ofJson_full {c : Codebase} (hc : ∀ f ∈ c.frameworks, f.IsSureOrHalf) :
    (∃ v, Json.parse (Report.full c) = .ok v ∧ Codebase.ofJson v = .ok c) ∧
    ∀ d : Codebase, (∀ f ∈ d.frameworks, f.IsSureOrHalf) →
      Report.full d = Report.full c → d = c := by
  have hread : ∀ {d : Codebase}, (∀ f ∈ d.frameworks, f.IsSureOrHalf) →
      Json.parse (Report.full d) = .ok d.toJson.normal := fun hd =>
    parse_pretty (Codebase.standsFor hd).readable (by decide)
  have hdecode := (Codebase.standsFor hc).decoded
  refine ⟨⟨c.toJson.normal, hread hc, hdecode⟩, ?_⟩
  intro d hd h
  have hv : d.toJson.normal = c.toJson.normal := by
    have h' := hread hd
    rw [h, hread hc] at h'
    exact (Except.ok.inj h').symm
  have hd' := (Codebase.standsFor hd).decoded
  rw [hv, hdecode] at hd'
  exact (Except.ok.inj hd').symm

/-- A codebase whose package has a licence without a text, and some keywords or none. -/
def Codebase.withKeywords (keywords : Option (List String)) : Codebase where
  files := []
  dependencies := ⟨.empty, .empty, .empty⟩
  exports := []
  frameworks := [⟨"react", none, .frontend, .ofRatio 1 2⟩]
  package := some {
    name := "a\n\"b\"", version := "", description := none, license := some "", author := none
    repository := none, homepage := none, keywords, main := none, bin := some .empty
    scripts := none, isPrivate := none }

/-- No keywords are reported, and read back, as something else than an empty list of them. -/
theorem Report.ofJson_full_withKeywords :
    (∃ v, Json.parse (Report.full (.withKeywords (some []))) = .ok v ∧
      Codebase.ofJson v = .ok (.withKeywords (some []))) ∧
    Report.full (.withKeywords none) ≠ Report.full (.withKeywords (some [])) := by
  have hc : ∀ keywords, ∀ f ∈ (Codebase.withKeywords keywords).frameworks, f.IsSureOrHalf := by
    intro keywords f hf
    obtain rfl := List.mem_singleton.mp hf
    exact .inl rfl
  obtain ⟨hread, hinj⟩ := Report.ofJson_full (hc (some []))
  refine ⟨hread, ?_⟩
  intro h
  have hne : Codebase.withKeywords none ≠ .withKeywords (some []) := by
    simp [Codebase.withKeywords]
  exact hne (hinj _ (hc none) h)

end CodeSurvey
