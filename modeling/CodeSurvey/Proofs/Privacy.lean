import CodeSurvey.Records.Codebase
import Mathlib.Data.List.Forall2

/-! # Leaving out what is private

`Codebase.withoutPrivate` is described for any codebase, also for one that no survey has made: with
files of the same path, functions of the same name, and exports of functions that no file has.

* `Codebase.PublicPart`: it filters functions, methods and properties of classes, and keeps all
  else of the files, the dependencies, the frameworks and the package as they are.  The properties
  of an interface belong to the interface, which is kept as it is;
* an export of a function is kept just if it names a function that is still in the first file of
  its path (`Codebase.Names`), and any other export is kept;
* what has nothing private is not changed (`withoutPrivate_eq_self`), so the filter need not be
  applied twice. -/

namespace CodeSurvey

/-! ### Classes -/

namespace ClassRecord

/-- Whether a class is another one without its private members. -/
structure PublicPart (c d : ClassRecord) : Prop where
  methods : d.methods = c.methods.filter fun m => !m.isPrivate
  properties : d.properties = c.properties.filter fun p => !p.isPrivate
  others : { d with methods := [], properties := [] } = { c with methods := [], properties := [] }

/-- Whether no member of a class is private. -/
structure IsPublic (c : ClassRecord) : Prop where
  methods : ∀ m ∈ c.methods, m.isPrivate = false
  properties : ∀ p ∈ c.properties, p.isPrivate = false

theorem publicPart_withoutPrivate (c : ClassRecord) : c.PublicPart c.withoutPrivate :=
  ⟨rfl, rfl, rfl⟩

theorem isPublic_withoutPrivate (c : ClassRecord) : c.withoutPrivate.IsPublic := by
  constructor
  · intro m hm
    simpa using (List.mem_filter.mp hm).2
  · intro p hp
    simpa using (List.mem_filter.mp hp).2

theorem IsPublic.withoutPrivate_eq_self {c : ClassRecord} (h : c.IsPublic) :
    c.withoutPrivate = c := by
  have hmethods : c.methods.filter (fun m => !m.isPrivate) = c.methods :=
    List.filter_eq_self.mpr fun m hm => by rw [h.methods m hm]; rfl
  have hproperties : c.properties.filter (fun p => !p.isPrivate) = c.properties :=
    List.filter_eq_self.mpr fun p hp => by rw [h.properties p hp]; rfl
  rw [withoutPrivate, hmethods, hproperties]

end ClassRecord

/-! ### Files -/

namespace FileRecord

/-- Whether a file is another one without its private functions and members of classes. -/
structure PublicPart (f g : FileRecord) : Prop where
  functions : g.functions = f.functions.filter fun x => !x.isPrivate
  classes : List.Forall₂ ClassRecord.PublicPart f.classes g.classes
  others : { g with functions := [], classes := [] } = { f with functions := [], classes := [] }

/-- Whether no function and no member of a class in a file is private. -/
structure IsPublic (f : FileRecord) : Prop where
  functions : ∀ x ∈ f.functions, x.isPrivate = false
  classes : ∀ c ∈ f.classes, c.IsPublic

theorem publicPart_withoutPrivate (f : FileRecord) : f.PublicPart f.withoutPrivate := by
  refine ⟨rfl, ?_, rfl⟩
  show List.Forall₂ _ f.classes (f.classes.map ClassRecord.withoutPrivate)
  rw [List.forall₂_map_right_iff]
  exact List.forall₂_same.mpr fun c _ => c.publicPart_withoutPrivate

theorem isPublic_withoutPrivate (f : FileRecord) : f.withoutPrivate.IsPublic := by
  constructor
  · intro x hx
    simpa using (List.mem_filter.mp hx).2
  · intro c hc
    obtain ⟨d, -, rfl⟩ := List.mem_map.mp hc
    exact d.isPublic_withoutPrivate

theorem IsPublic.withoutPrivate_eq_self {f : FileRecord} (h : f.IsPublic) : f.withoutPrivate = f := by
  have hfunctions : f.functions.filter (fun x => !x.isPrivate) = f.functions :=
    List.filter_eq_self.mpr fun x hx => by rw [h.functions x hx]; rfl
  have hclasses : f.classes.map ClassRecord.withoutPrivate = f.classes :=
    (List.map_congr_left fun c hc => (h.classes c hc).withoutPrivate_eq_self).trans (List.map_id _)
  rw [withoutPrivate, hfunctions, hclasses]

end FileRecord

/-! ### Codebases -/

namespace Codebase

/-- Whether an export names a function in the first file of its path. -/
def Names (files : List FileRecord) (e : ExportRecord) : Prop :=
  ∃ before f after, files = before ++ f :: after ∧ (∀ g ∈ before, g.relativePath ≠ e.file) ∧
    f.relativePath = e.file ∧ ∃ x ∈ f.functions, x.name = e.name

/-- Whether a codebase is another one without what is private in its files, and without the exports
of functions that its files do not have. -/
structure PublicPart (c d : Codebase) : Prop where
  files : List.Forall₂ FileRecord.PublicPart c.files d.files
  others : { d with files := [], exports := [] } = { c with files := [], exports := [] }
  exports : d.exports.Sublist c.exports
  mem_exports : ∀ e ∈ c.exports, e ∈ d.exports ↔ e.kind = .function → Names d.files e
  otherExports : d.exports.filter (·.kind != .function) = c.exports.filter (·.kind != .function)

/-- Whether no function and no member of a class is private. -/
def IsPublic (c : Codebase) : Prop := ∀ f ∈ c.files, f.IsPublic

variable {c : Codebase}

theorem declares_iff {files : List FileRecord} {e : ExportRecord} :
    declares files e = true ↔ Names files e := by
  unfold declares
  constructor
  · intro h
    split at h
    next => cases h
    next f hf =>
        obtain ⟨hpath, before, after, rfl, hbefore⟩ := List.find?_eq_some_iff_append.mp hf
        obtain ⟨x, hx, hname⟩ := List.any_eq_true.mp h
        refine ⟨before, f, after, rfl, fun g hg => ?_, eq_of_beq hpath, x, hx, eq_of_beq hname⟩
        simpa using hbefore g hg
  · rintro ⟨before, f, after, rfl, hbefore, hpath, x, hx, hname⟩
    have hf : (before ++ f :: after).find? (·.relativePath == e.file) = some f :=
      List.find?_eq_some_iff_append.mpr
        ⟨beq_iff_eq.mpr hpath, before, after, rfl, fun g hg => by simpa using hbefore g hg⟩
    rw [hf]
    exact List.any_eq_true.mpr ⟨x, hx, beq_iff_eq.mpr hname⟩

/-- What is kept of the exports. -/
theorem keeps_iff {files : List FileRecord} {e : ExportRecord} :
    (e.kind != .function || declares files e) = true ↔ (e.kind = .function → Names files e) := by
  rw [Bool.or_eq_true, declares_iff, bne_iff_ne, or_iff_not_imp_left, not_not]

theorem publicPart_withoutPrivate (c : Codebase) : c.PublicPart c.withoutPrivate := by
  refine ⟨?_, rfl, List.filter_sublist, fun e he => ?_, ?_⟩
  · show List.Forall₂ _ c.files (c.files.map FileRecord.withoutPrivate)
    rw [List.forall₂_map_right_iff]
    exact List.forall₂_same.mpr fun f _ => f.publicPart_withoutPrivate
  · rw [← keeps_iff]
    exact List.mem_filter.trans (and_iff_right he)
  · show (c.exports.filter _).filter _ = _
    rw [List.filter_filter]
    refine List.filter_congr fun e _ => ?_
    cases e.kind != .function <;> rfl

theorem isPublic_withoutPrivate (c : Codebase) : c.withoutPrivate.IsPublic := by
  intro f hf
  obtain ⟨g, -, rfl⟩ := List.mem_map.mp hf
  exact g.isPublic_withoutPrivate

/-- A codebase with nothing private stays as it is if it exports only functions that it has. -/
theorem withoutPrivate_eq_self (h : c.IsPublic)
    (hnames : ∀ e ∈ c.exports, e.kind = .function → Names c.files e) : c.withoutPrivate = c := by
  have hfiles : c.files.map FileRecord.withoutPrivate = c.files :=
    (List.map_congr_left fun f hf => (h f hf).withoutPrivate_eq_self).trans (List.map_id _)
  have hexports :
      c.exports.filter (fun e => e.kind != .function || declares c.files e) = c.exports :=
    List.filter_eq_self.mpr fun e he => keeps_iff.mpr (hnames e he)
  simp only [withoutPrivate, hfiles, hexports]

/-- Of any codebase, leaving out what is private gives its public part, in which nothing is private
and every function that is exported is there; doing it again changes nothing. -/
theorem withoutPrivate_spec (c : Codebase) :
    c.withoutPrivate.IsPublic ∧ c.PublicPart c.withoutPrivate ∧
    (∀ e ∈ c.withoutPrivate.exports, e.kind = .function → Names c.withoutPrivate.files e) ∧
    c.withoutPrivate.withoutPrivate = c.withoutPrivate := by
  have hpart := c.publicPart_withoutPrivate
  have hnames : ∀ e ∈ c.withoutPrivate.exports, e.kind = .function → Names c.withoutPrivate.files e :=
    fun e he => (hpart.mem_exports e (hpart.exports.mem he)).mp he
  exact ⟨c.isPublic_withoutPrivate, hpart, hnames,
    withoutPrivate_eq_self c.isPublic_withoutPrivate hnames⟩

end Codebase
end CodeSurvey
