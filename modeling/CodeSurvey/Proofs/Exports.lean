import CodeSurvey.Proofs.Privacy
import CodeSurvey.Proofs.Survey

/-! # What a codebase exports

The exports of a codebase are listed apart from its files, and `Codebase.withoutPrivate` filters
them apart, by names and paths.  What keeps the list in step with the files is that within a file,
whether a declaration counts as exported and whether a function is private depends on its name
alone (`FileRecord.ByName`, `byName_ofTree`).

* `exports_outcome`: so what the files export without what is private is the public part of the
  list.  The filter keeps no entry of a private function, and it keeps the entry of a public one if
  the first file of its path has a function of that name, which it has if paths are different.
* `count_exports`: since names count at any depth, a declaration that shares its name with an
  exported one of its kind is exported too.  This tells how often a name is listed, and when no
  entry is listed twice. -/

namespace CodeSurvey

/-! ### Records of trees -/

namespace FileRecord

/-- Whether the flags of declarations depend on their names alone. -/
structure ByName (f : FileRecord) (isExported : String → Bool) : Prop where
  functions : ∀ x ∈ f.functions, x.isExported = isExported x.name
  classes : ∀ x ∈ f.classes, x.isExported = isExported x.name
  interfaces : ∀ x ∈ f.interfaces, x.isExported = isExported x.name
  privacy : ∀ x ∈ f.functions, x.isPrivate = isPrivateName x.name

theorem function_ofDeclaration? {t : Tree} {names : List String} {s : Site} {x : FunctionRecord}
    (h : FunctionRecord.ofDeclaration? t names s = some x) :
    x.isExported = names.contains x.name ∧ x.isPrivate = isPrivateName x.name := by
  unfold FunctionRecord.ofDeclaration? at h
  split at h
  · obtain ⟨n, -, rfl⟩ := Option.map_eq_some_iff.mp h
    simp only [FunctionRecord.ofSite, and_self]
  · cases h

theorem class_ofDeclaration? {t : Tree} {names : List String} {s : Site} {x : ClassRecord}
    (h : ClassRecord.ofDeclaration? t names s = some x) : x.isExported = names.contains x.name := by
  unfold ClassRecord.ofDeclaration? at h
  split at h
  · obtain ⟨n, -, rfl⟩ := Option.map_eq_some_iff.mp h
    rfl
  · cases h

theorem interface_ofDeclaration? {t : Tree} {names : List String} {n : Node} {x : InterfaceRecord}
    (h : InterfaceRecord.ofDeclaration? t names n = some x) :
    x.isExported = names.contains x.name := by
  unfold InterfaceRecord.ofDeclaration? at h
  split at h
  · obtain ⟨k, -, rfl⟩ := Option.map_eq_some_iff.mp h
    rfl
  · cases h

/-- The flags of a record of a tree depend on names alone, namely on those that the tree
exports. -/
theorem byName_ofTree (path relativePath : String) (t : Tree) :
    (ofTree path relativePath t).ByName (Exported.names t).contains := by
  unfold ofTree
  simp only
  refine ⟨?_, ?_, ?_, ?_⟩
  · intro x hx
    obtain ⟨s, -, hs⟩ := List.mem_filterMap.mp hx
    exact (function_ofDeclaration? hs).1
  · intro x hx
    obtain ⟨s, -, hs⟩ := List.mem_filterMap.mp hx
    exact class_ofDeclaration? hs
  · intro x hx
    obtain ⟨s, -, hs⟩ := List.mem_filterMap.mp hx
    exact interface_ofDeclaration? hs
  · intro x hx
    obtain ⟨s, -, hs⟩ := List.mem_filterMap.mp hx
    exact (function_ofDeclaration? hs).2

/-- The names of the declarations of a kind, at any depth of the source. -/
def declared (f : FileRecord) : ExportKind → List String
  | .function => f.functions.map (·.name)
  | .classType => f.classes.map (·.name)
  | .interface => f.interfaces.map (·.name)
  | .constant => []
  | .type => []

/-- The names of the declarations of a kind that count as exported. -/
def exported (f : FileRecord) : ExportKind → List String
  | .function => (f.functions.filter (·.isExported)).map (·.name)
  | .classType => (f.classes.filter (·.isExported)).map (·.name)
  | .interface => (f.interfaces.filter (·.isExported)).map (·.name)
  | .constant => []
  | .type => []

theorem ByName.exported_eq {f : FileRecord} {isExported : String → Bool} (h : f.ByName isExported)
    (kind : ExportKind) : f.exported kind = (f.declared kind).filter isExported := by
  cases kind with
  | function => rw [exported, declared, List.filter_map, List.filter_congr h.functions]; rfl
  | classType => rw [exported, declared, List.filter_map, List.filter_congr h.classes]; rfl
  | interface => rw [exported, declared, List.filter_map, List.filter_congr h.interfaces]; rfl
  | constant => rfl
  | type => rfl

theorem declared_of_exported {f : FileRecord} {kind : ExportKind} {name : String}
    (h : name ∈ f.exported kind) : name ∈ f.declared kind := by
  cases kind with
  | function => exact (List.filter_sublist.map _).mem h
  | classType => exact (List.filter_sublist.map _).mem h
  | interface => exact (List.filter_sublist.map _).mem h
  | constant => exact h
  | type => exact h

/-- If one declaration of a kind and a name counts as exported, all of them do. -/
theorem ByName.count_exported {f : FileRecord} {isExported : String → Bool}
    (h : f.ByName isExported) {kind : ExportKind} {name : String} (hn : name ∈ f.exported kind) :
    (f.exported kind).count name = (f.declared kind).count name := by
  rw [h.exported_eq] at hn ⊢
  exact List.count_filter (List.mem_filter.mp hn).2

end FileRecord

/-! ### Entries -/

namespace ExportRecord

/-- What an entry of the list of exports is about. -/
def key (e : ExportRecord) : String × ExportKind × String := (e.name, e.kind, e.file)

/-- Whether an entry is about something else than a private function. -/
def isPublic (e : ExportRecord) : Bool := e.kind != .function || !isPrivateName e.name

end ExportRecord

namespace FileRecord

variable {f : FileRecord} {files : List FileRecord} {kind : ExportKind} {name path : String}

/-- The kinds of declarations of which a file lists exports, in their order. -/
def listedKinds : List ExportKind := [.function, .classType, .interface]

theorem map_key_exports (f : FileRecord) :
    f.exports.map ExportRecord.key =
      listedKinds.flatMap fun kind =>
        (f.exported kind).map fun name => (name, kind, f.relativePath) := by
  simp [exports, listedKinds, exported, ExportRecord.key, Function.comp_def]

theorem name_of_mem_exports {e : ExportRecord} (h : e ∈ f.exports) :
    e.name ∈ f.exported e.kind := by
  simp only [exports, List.mem_append, List.mem_map] at h
  obtain (⟨x, hx, rfl⟩ | ⟨x, hx, rfl⟩) | ⟨x, hx, rfl⟩ := h
  · exact List.mem_map_of_mem hx
  · exact List.mem_map_of_mem hx
  · exact List.mem_map_of_mem hx

/-- A file lists a name as often as there are exported declarations of that name. -/
theorem count_key_exports (f : FileRecord) (kind : ExportKind) (name : String) :
    (f.exports.map ExportRecord.key).count (name, kind, f.relativePath) =
      (f.exported kind).count name := by
  have same : ∀ k : ExportKind,
      ((f.exported k).map fun n => (n, k, f.relativePath)).count (name, k, f.relativePath) =
        (f.exported k).count name := by
    intro k
    exact List.count_map_of_injective _ _ (fun a b h => (Prod.mk.inj h).1) _
  have other : ∀ k : ExportKind, k ≠ kind →
      ((f.exported k).map fun n => (n, k, f.relativePath)).count (name, kind, f.relativePath) =
        0 := by
    intro k hk
    rw [List.count_eq_zero]
    intro hmem
    obtain ⟨n, -, hn⟩ := List.mem_map.mp hmem
    exact hk (Prod.mk.inj (Prod.mk.inj hn).2).1
  rw [map_key_exports]
  simp only [listedKinds, List.flatMap_cons, List.flatMap_nil, List.append_nil, List.count_append]
  cases kind with
  | function =>
      rw [same, other .classType (by decide), other .interface (by decide), Nat.add_zero]
  | classType =>
      rw [same, other .function (by decide), other .interface (by decide), Nat.zero_add,
        Nat.add_zero]
  | interface =>
      rw [same, other .function (by decide), other .classType (by decide), Nat.zero_add,
        Nat.zero_add]
  | constant =>
      rw [other _ (by decide), other _ (by decide), other _ (by decide)]
      rfl
  | type =>
      rw [other _ (by decide), other _ (by decide), other _ (by decide)]
      rfl

/-- An entry of a file is about an exported name, under the path of the file. -/
theorem mem_map_key_exports :
    (name, kind, path) ∈ f.exports.map ExportRecord.key ↔
      f.relativePath = path ∧ name ∈ f.exported kind := by
  constructor
  · intro h
    obtain ⟨e, he, hk⟩ := List.mem_map.mp h
    obtain ⟨rfl, rfl, rfl⟩ : e.name = name ∧ e.kind = kind ∧ e.file = path := by
      simpa [ExportRecord.key] using hk
    exact ⟨(file_of_mem_exports he).symm, name_of_mem_exports he⟩
  · rintro ⟨rfl, hn⟩
    rw [← List.count_pos_iff, count_key_exports, List.count_pos_iff]
    exact hn

/-- So it is listed as often as it is declared, if it is exported. -/
theorem ByName.count_key {isExported : String → Bool} (h : f.ByName isExported) (path : String)
    (kind : ExportKind) (name : String) :
    (f.exports.map ExportRecord.key).count (name, kind, path) =
      if f.relativePath = path ∧ name ∈ f.exported kind then (f.declared kind).count name
      else 0 := by
  split
  next hn =>
      obtain ⟨rfl, hn⟩ := hn
      rw [count_key_exports, h.count_exported hn]
  next hn => exact List.count_eq_zero.mpr (mt mem_map_key_exports.mp hn)

theorem ByName.nodup_key_iff {isExported : String → Bool} (h : f.ByName isExported) :
    (f.exports.map ExportRecord.key).Nodup ↔
      ∀ kind, ∀ name ∈ f.exported kind, (f.declared kind).count name = 1 := by
  rw [List.nodup_iff_count_eq_one]
  constructor
  · intro hone kind name hn
    rw [← h.count_exported hn, ← count_key_exports]
    exact hone _ (mem_map_key_exports.mpr ⟨rfl, hn⟩)
  · rintro hone ⟨name, kind, path⟩ hk
    have hn := mem_map_key_exports.mp hk
    rw [h.count_key, if_pos hn, hone kind name hn.2]

/-- Whether two files of the same path export nothing of the same kind and name. -/
def ExportsApart (f g : FileRecord) : Prop :=
  f.relativePath = g.relativePath → ∀ kind, ∀ name ∈ f.exported kind, name ∉ g.exported kind

theorem disjoint_key_iff {g : FileRecord} :
    List.Disjoint (f.exports.map ExportRecord.key) (g.exports.map ExportRecord.key) ↔
      f.ExportsApart g := by
  constructor
  · intro h hpath kind name hf hg
    exact h (mem_map_key_exports.mpr ⟨rfl, hf⟩) (mem_map_key_exports.mpr ⟨hpath.symm, hg⟩)
  · rintro h ⟨name, kind, path⟩ hf hg
    obtain ⟨hfpath, hf⟩ := mem_map_key_exports.mp hf
    obtain ⟨hgpath, hg⟩ := mem_map_key_exports.mp hg
    exact h (hfpath.trans hgpath.symm) kind name hf hg

/-- No two entries of files agree if no name is declared twice where it is exported, neither in a
file nor in another one of its path. -/
theorem nodup_key_flatMap_iff (h : ∀ f ∈ files, ∃ isExported, f.ByName isExported) :
    ((files.flatMap exports).map ExportRecord.key).Nodup ↔
      (∀ f ∈ files, ∀ kind, ∀ name ∈ f.exported kind, (f.declared kind).count name = 1) ∧
      files.Pairwise ExportsApart := by
  have hfile : ∀ f ∈ files, ((f.exports.map ExportRecord.key).Nodup ↔
      ∀ kind, ∀ name ∈ f.exported kind, (f.declared kind).count name = 1) := by
    intro f hf
    obtain ⟨isExported, hb⟩ := h f hf
    exact hb.nodup_key_iff
  have hpair : (fun f g : FileRecord => List.Disjoint (f.exports.map ExportRecord.key)
      (g.exports.map ExportRecord.key)) = ExportsApart := by
    funext f g
    exact propext disjoint_key_iff
  rw [List.map_flatMap, List.nodup_flatMap, forall₂_congr hfile]
  exact Iff.and Iff.rfl (iff_of_eq (congrArg files.Pairwise hpair))

/-- Files of different paths export nothing in common. -/
theorem pairwise_exportsApart (h : (files.map (·.relativePath)).Nodup) :
    files.Pairwise ExportsApart :=
  (List.pairwise_map.mp h).imp fun hne e => absurd e hne

/-! ### Privacy -/

/-- Without private functions a file exports what it exports with them, less the entries of private
functions. -/
theorem exports_withoutPrivate (h : ∀ x ∈ f.functions, x.isPrivate = isPrivateName x.name) :
    f.withoutPrivate.exports = f.exports.filter ExportRecord.isPublic := by
  have hfunctions : f.withoutPrivate.functions.filter (·.isExported) =
      (f.functions.filter (·.isExported)).filter fun x => !isPrivateName x.name := by
    have e : f.withoutPrivate.functions = f.functions.filter fun x => !isPrivateName x.name :=
      List.filter_congr fun x hx => by rw [h x hx]
    rw [e, List.filter_filter, List.filter_filter]
    simp only [Bool.and_comm]
  have hclasses : f.withoutPrivate.classes.filter (·.isExported) =
      (f.classes.filter (·.isExported)).map ClassRecord.withoutPrivate := by
    have e : f.withoutPrivate.classes = f.classes.map ClassRecord.withoutPrivate := rfl
    rw [e, List.filter_map]
    rfl
  have hinterfaces : f.withoutPrivate.interfaces = f.interfaces := rfl
  have hpath : f.withoutPrivate.relativePath = f.relativePath := rfl
  have hc : (ExportKind.classType != ExportKind.function) = true := rfl
  have hi : (ExportKind.interface != ExportKind.function) = true := rfl
  simp only [exports, hfunctions, hclasses, hinterfaces, hpath, List.filter_append, List.filter_map]
  simp [Function.comp_def, ClassRecord.withoutPrivate, ExportRecord.isPublic, hc, hi]

end FileRecord

/-! ### Codebases -/

namespace Codebase

variable {c : Codebase} {e : ExportRecord}

/-- Whether the privacy of functions depends on their names alone. -/
def PrivateByName (c : Codebase) : Prop :=
  ∀ f ∈ c.files, ∀ x ∈ f.functions, x.isPrivate = isPrivateName x.name

/-- A function that is left when the private ones are left out has the name of a public one. -/
theorem PrivateByName.of_names (h : c.PrivateByName) (he : Names c.withoutPrivate.files e) :
    isPrivateName e.name = false := by
  obtain ⟨before, g, after, hfiles, -, -, x, hx, hname⟩ := he
  have hg : g ∈ c.withoutPrivate.files := by simp [hfiles]
  obtain ⟨f, hf, rfl⟩ := List.mem_map.mp hg
  obtain ⟨hx, hpublic⟩ := List.mem_filter.mp hx
  rw [← hname, ← h f hf x hx]
  simpa using hpublic

/-- What the files export without what is private. -/
theorem PrivateByName.flatMap_exports (h : c.PrivateByName) :
    c.withoutPrivate.files.flatMap FileRecord.exports =
      (c.files.flatMap FileRecord.exports).filter ExportRecord.isPublic := by
  rw [withoutPrivate, List.filter_flatMap, List.flatMap_map]
  exact List.flatMap_congr fun f hf => FileRecord.exports_withoutPrivate (h f hf)

/-- Of the exports of public functions the filter keeps those that it finds. -/
theorem PrivateByName.exports_eq (h : c.PrivateByName) :
    c.withoutPrivate.exports = (c.exports.filter ExportRecord.isPublic).filter fun e =>
      e.kind != .function || declares c.withoutPrivate.files e := by
  rw [List.filter_filter]
  refine List.filter_congr fun e _ => ?_
  have hpublic : (e.kind != .function || declares c.withoutPrivate.files e) = true →
      e.isPublic = true := by
    intro hkeep
    rw [ExportRecord.isPublic, Bool.or_eq_true, bne_iff_ne, or_iff_not_imp_left, not_not]
    intro hk
    rw [h.of_names (keeps_iff.mp hkeep hk)]
    rfl
  rw [Bool.eq_iff_iff, Bool.and_eq_true]
  exact ⟨fun hkeep => ⟨hkeep, hpublic hkeep⟩, And.left⟩

/-- In files of different paths the functions that one of them exports are found. -/
theorem names_of_mem {files : List FileRecord} (hd : (files.map (·.relativePath)).Nodup)
    (he : e ∈ files.flatMap FileRecord.exports) (hk : e.kind = .function) : Names files e := by
  obtain ⟨f, hf, he⟩ := List.mem_flatMap.mp he
  have hname := FileRecord.declared_of_exported (FileRecord.name_of_mem_exports he)
  rw [hk] at hname
  obtain ⟨x, hx, hxname⟩ := List.mem_map.mp hname
  rw [← declares_iff, declares, FileRecord.file_of_mem_exports he, Survey.find?_relativePath hd hf]
  exact List.any_eq_true.mpr ⟨x, hx, beq_iff_eq.mpr hxname⟩

section Together

variable (h : c.PrivateByName) (hexports : c.exports = c.files.flatMap FileRecord.exports)
include h hexports

/-- The list of exports against those of the files, without what is private. -/
theorem PrivateByName.exports_eq_filter :
    c.withoutPrivate.exports = (c.withoutPrivate.files.flatMap FileRecord.exports).filter fun e =>
      e.kind != .function || declares c.withoutPrivate.files e := by
  rw [h.exports_eq, h.flatMap_exports, hexports]

theorem PrivateByName.exports_eq_iff :
    c.withoutPrivate.exports = c.withoutPrivate.files.flatMap FileRecord.exports ↔
      ∀ e ∈ c.withoutPrivate.files.flatMap FileRecord.exports, e.kind = .function →
        Names c.withoutPrivate.files e := by
  rw [h.exports_eq_filter hexports, List.filter_eq_self]
  exact forall₂_congr fun e _ => keeps_iff

theorem PrivateByName.exports_eq_of_nodup (hd : (c.files.map (·.relativePath)).Nodup) :
    c.withoutPrivate.exports = c.withoutPrivate.files.flatMap FileRecord.exports := by
  have hpaths : (c.withoutPrivate.files.map (·.relativePath)).Nodup := by
    rw [withoutPrivate, List.map_map]
    exact hd
  exact (h.exports_eq_iff hexports).mpr fun e he hk => names_of_mem hpaths he hk

end Together

end Codebase

namespace Survey

theorem byName_of_mem_files [Glob.Compiler] [SourceParser] [ThreadPool] {fs : FileSystem}
    {s : Survey} {c : Codebase} (h : outcome fs s = .ok c) :
    ∀ f ∈ c.files, ∃ isExported, f.ByName isExported := by
  intro f hf
  rw [(of_outcome h).1] at hf
  obtain ⟨path, -, hr⟩ := mem_records.mp hf
  obtain ⟨t, rfl⟩ := FileRecord.exists_tree hr
  exact ⟨_, FileRecord.byName_ofTree _ _ t⟩

/-- The exports and frameworks of an outcome are those of its files and dependencies.  Without what
is private, its files export just the public entries.  In the list of exports none but these are
left, and of these the ones that are not about functions, and those about functions of which there
is one of the name in the first file of the path.  So the list and the files agree if each public
function that is exported is there in the first file of its path, and in particular if the paths
of the files are different. -/
theorem exports_outcome [Glob.Compiler] [SourceParser] [ThreadPool] (fs : FileSystem) (s : Survey)
    (c : Codebase) (h : outcome fs s = .ok c) :
    let t := c.withoutPrivate
    c.exports = c.files.flatMap FileRecord.exports ∧
    c.frameworks = detectFrameworks c.dependencies ∧
    t.IsPublic ∧ c.PublicPart t ∧
    (∀ e ∈ t.exports, e.kind = .function → isPrivateName e.name = false) ∧
    t.files.flatMap FileRecord.exports = c.exports.filter ExportRecord.isPublic ∧
    t.exports = (t.files.flatMap FileRecord.exports).filter
      (fun e => e.kind != .function || Codebase.declares t.files e) ∧
    (t.exports = t.files.flatMap FileRecord.exports ↔
      ∀ e ∈ t.files.flatMap FileRecord.exports, e.kind = .function → Codebase.Names t.files e) ∧
    ((c.files.map (·.relativePath)).Nodup → t.exports = t.files.flatMap FileRecord.exports) ∧
    (fs.tree.WellFormed → (∀ path ∈ found fs s, path.text?.isSome) →
      t.exports = t.files.flatMap FileRecord.exports) := by
  intro t
  obtain ⟨hfiles, hexports, hframeworks⟩ := of_outcome h
  rw [← hfiles] at hexports
  have hp : c.PrivateByName := by
    intro f hf
    obtain ⟨isExported, hb⟩ := byName_of_mem_files h f hf
    exact hb.privacy
  have hpart : c.PublicPart t := c.publicPart_withoutPrivate
  have hproject : t.files.flatMap FileRecord.exports = c.exports.filter ExportRecord.isPublic := by
    rw [hexports]
    exact hp.flatMap_exports
  refine ⟨hexports, hframeworks, c.isPublic_withoutPrivate, hpart, ?_, hproject,
    hp.exports_eq_filter hexports, hp.exports_eq_iff hexports, hp.exports_eq_of_nodup hexports, ?_⟩
  · intro e he hk
    exact hp.of_names ((hpart.mem_exports e (hpart.exports.mem he)).mp he hk)
  · intro wf htext
    exact hp.exports_eq_of_nodup hexports (hfiles ▸ nodup_records wf htext)

/-- Of a private function no entry is left.  Nor is one of the function in the second of two files
that are shown alike, though that file still has it. -/
theorem exports_sample :
    ∃ c, @outcome _ sampleParser _ sampleProject sampleSurvey = .ok c ∧
      c.exports.map (fun e => (e.name, e.file)) =
        [("f", "a.ts"), ("_g", "a.ts"), ("f", "a.ts"), ("g", "c\uFFFD.ts")] ∧
      c.withoutPrivate.exports.map (fun e => (e.name, e.file)) =
        [("f", "a.ts"), ("f", "a.ts")] ∧
      (c.withoutPrivate.files.flatMap FileRecord.exports).map (fun e => (e.name, e.file)) =
        [("f", "a.ts"), ("f", "a.ts"), ("g", "c\uFFFD.ts")] := by
  obtain ⟨c, ho, hfiles⟩ := exists_outcome_sampleProject
  obtain ⟨hexports, -, -, -, -, hproject, hlist, -⟩ :=
    @exports_outcome _ sampleParser _ sampleProject sampleSurvey c ho
  have ht : c.withoutPrivate.files = c.files.map FileRecord.withoutPrivate := rfl
  refine ⟨c, ho, ?_, ?_, ?_⟩
  · rw [hexports, hfiles]
    decide +kernel
  · rw [hlist, hproject, hexports, ht, hfiles]
    decide +kernel
  · rw [hproject, hexports, hfiles]
    decide +kernel

/-- How often a name is listed among the exports of an outcome: for each kind and path as often as
it is declared, at any depth, in the files of that path of which it is exported, which is to say
that one of its declarations there counts as exported.  So each exported declaration has an entry,
each entry is about one, and no two entries agree in name, kind and file exactly if no name that a
file exports as one of a kind is declared twice there as one of that kind, or exported from another
file of the same path; of files with different paths only the first of these need be asked. -/
theorem count_exports [Glob.Compiler] [SourceParser] [ThreadPool] (fs : FileSystem) (s : Survey)
    (c : Codebase) (h : outcome fs s = .ok c) :
    (∀ path kind name, (c.exports.map ExportRecord.key).count (name, kind, path) =
      (c.files.map fun f => if f.relativePath = path ∧ name ∈ f.exported kind then
        (f.declared kind).count name else 0).sum) ∧
    (∀ path kind name, (name, kind, path) ∈ c.exports.map ExportRecord.key ↔
      ∃ f ∈ c.files, f.relativePath = path ∧ name ∈ f.exported kind) ∧
    ((c.exports.map ExportRecord.key).Nodup ↔
      (∀ f ∈ c.files, ∀ kind, ∀ name ∈ f.exported kind, (f.declared kind).count name = 1) ∧
        c.files.Pairwise FileRecord.ExportsApart) ∧
    ((c.files.map (·.relativePath)).Nodup → c.files.Pairwise FileRecord.ExportsApart) := by
  obtain ⟨hfiles, hexports, -⟩ := of_outcome h
  rw [← hfiles] at hexports
  have hb := byName_of_mem_files h
  rw [hexports]
  refine ⟨?_, ?_, FileRecord.nodup_key_flatMap_iff hb, FileRecord.pairwise_exportsApart⟩
  · intro path kind name
    rw [List.map_flatMap, List.count_flatMap]
    congr 1
    apply List.map_congr_left
    intro f hf
    obtain ⟨isExported, hf⟩ := hb f hf
    exact hf.count_key path kind name
  · intro path kind name
    simp only [List.map_flatMap, List.mem_flatMap, FileRecord.mem_map_key_exports]

/-- The function that shares its name with an exported one is listed with it. -/
theorem count_exports_sample :
    ∃ c, @outcome _ sampleParser _ sampleProject sampleSurvey = .ok c ∧
      (c.exports.map ExportRecord.key).count ("f", .function, "a.ts") = 2 ∧
      ("h", .function, "a.ts") ∉ c.exports.map ExportRecord.key ∧
      ("g", .function, "c\uFFFD.ts") ∈ c.exports.map ExportRecord.key ∧
      ¬ (c.exports.map ExportRecord.key).Nodup := by
  obtain ⟨c, ho, hfiles⟩ := exists_outcome_sampleProject
  obtain ⟨hcount, hmem, -⟩ := @count_exports _ sampleParser _ sampleProject sampleSurvey c ho
  have htwo : (c.exports.map ExportRecord.key).count ("f", .function, "a.ts") = 2 := by
    rw [hcount, hfiles]
    decide +kernel
  refine ⟨c, ho, htwo, ?_, ?_, fun hd => ?_⟩
  · rw [hmem, hfiles]
    decide +kernel
  · rw [hmem, hfiles]
    decide +kernel
  · have hone := List.nodup_iff_count_le_one.mp hd ("f", .function, "a.ts")
    omega

end Survey

end CodeSurvey
