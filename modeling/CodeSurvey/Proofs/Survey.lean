import CodeSurvey.Proofs.Sites
import CodeSurvey.Proofs.SourceFiles
import Mathlib

/-! # The outcome of a survey

What a survey comes to is told by the source files that it finds (`Survey.found`) and by what
reading each of them comes to (`Survey.record`):

* `outcome_eq`: there is no outcome if no file is found, or if none of those found has a record;
  otherwise the outcome holds the records, in the order in which the files are found;
* `nodup_records_iff`: the records have paths of their own exactly if no two files with a record
  are shown alike, which two files may be whose names do not spell texts;
* `skipped_notices`: there is one notice for each file without a record;
* `record_congr`: the record of a file does not depend on the bytes of another one, so that an
  outcome depends on the bytes of one file in one record at most (`records_split`).

`outcome_spec` puts this together. -/

namespace CodeSurvey

open FileSystem (pathOf)
open TypeScript (ParserRows)

/-! ### Single files -/

namespace FileRecord

section Parsing

variable [SourceParser] {fs gs : FileSystem} {path : RawText} {relativePath : String}
  {f : FileRecord}

theorem value_ofFile? (fs : FileSystem) (path : RawText) (relativePath : String) :
    (ofFile? fs path relativePath).value =
      match TypeScript.Dialect.ofExtension? (Path.fileExtension path) with
      | none => .error (.noDialect path.shown)
      | some d =>
        match fs.read path with
        | .error e => .error (.unreadable path.shown e.message)
        | .ok bytes => ofTree? path.shown relativePath (SourceParser.parse d bytes).value := by
  unfold ofFile?
  cases TypeScript.Dialect.ofExtension? (Path.fileExtension path) with
  | none => rfl
  | some d =>
      cases fs.read path with
      | error e => rfl
      | ok bytes => simp only [ofBytes?, Memo.value_bind, Memo.value_pure]

/-- A record is that of a tree. -/
theorem exists_tree (h : (ofFile? fs path relativePath).value = .ok f) :
    ∃ t, f = ofTree path.shown relativePath t := by
  rw [value_ofFile?] at h
  split at h
  next => cases h
  next d =>
      split at h
      next => cases h
      next bytes =>
          unfold ofTree? at h
          split at h
          next => cases h
          next => exact ⟨_, (Except.ok.inj h).symm⟩

theorem path_eq (h : (ofFile? fs path relativePath).value = .ok f) : f.path = path.shown := by
  obtain ⟨t, rfl⟩ := exists_tree h
  rfl

theorem relativePath_eq (h : (ofFile? fs path relativePath).value = .ok f) :
    f.relativePath = relativePath := by
  obtain ⟨t, rfl⟩ := exists_tree h
  rfl

/-- A file of which the extension tells a dialect does not fail for lack of one. -/
theorem ofFile?_ne_noDialect
    (h : (TypeScript.Dialect.ofExtension? (Path.fileExtension path)).isSome) (p : String) :
    (ofFile? fs path relativePath).value ≠ .error (.noDialect p) := by
  obtain ⟨d, hd⟩ := Option.isSome_iff_exists.mp h
  intro he
  rw [value_ofFile?, hd] at he
  simp only at he
  split at he
  next => cases he
  next =>
      unfold ofTree? at he
      split at he <;> cases he

theorem ofFile?_congr (h : fs.read path = gs.read path) (relativePath : String) :
    (ofFile? fs path relativePath).value = (ofFile? gs path relativePath).value := by
  rw [value_ofFile?, value_ofFile?, h]

end Parsing

/-- What a file exports bears its path. -/
theorem file_of_mem_exports {f : FileRecord} {e : ExportRecord} (h : e ∈ f.exports) :
    e.file = f.relativePath := by
  simp only [exports, List.mem_append, List.mem_map] at h
  obtain (⟨x, -, rfl⟩ | ⟨x, -, rfl⟩) | ⟨x, -, rfl⟩ := h <;> rfl

end FileRecord

namespace Survey

/-! ### The parts of a survey -/

section Parts

variable [Glob.Compiler] [SourceParser] [ThreadPool]

/-- The paths of the source files that a survey finds, from its root. -/
def found (fs : FileSystem) (s : Survey) : List RawText :=
  (discover fs (canonicalRoot fs s.root) s.excludes).value

/-- What reading a source file comes to. -/
def record (fs : FileSystem) (s : Survey) (path : RawText) : Except SourceFault FileRecord :=
  (FileRecord.ofFile? fs (Path.join (canonicalRoot fs s.root) path) (Path.normalize path)).value

/-- The records of the files that have one. -/
def records (fs : FileSystem) (s : Survey) : List FileRecord :=
  (found fs s).filterMap fun path => (record fs s path).toOption

/-- What a survey comes to. -/
def outcome (fs : FileSystem) (s : Survey) : Except SurveyFault Codebase := (s.run fs).value.value

/-- What a survey tells on the way. -/
def notices (fs : FileSystem) (s : Survey) : List Notice := (s.run fs).value.notices

end Parts

/-- The files of an outcome; a fault has none. -/
def filesOf (o : Except SurveyFault Codebase) : List FileRecord :=
  (o.map (·.files)).toOption.getD []

/-- The exports of an outcome; a fault has none. -/
def exportsOf (o : Except SurveyFault Codebase) : List ExportRecord :=
  (o.map (·.exports)).toOption.getD []

/-- The file that a notice tells to be left out, and why. -/
def skipped? : Notice → Option (String × SourceFault)
  | .fileSkipped path fault => some (path, fault)
  | _ => none

/-- Why a file has no record. -/
def fault? : Except SourceFault FileRecord → Option SourceFault
  | .ok _ => none
  | .error fault => some fault

variable {fs gs : FileSystem} {s : Survey} {path : RawText} {place : List RawText}

/-! ### What is found -/

section Found

variable [Glob.Compiler]

theorem mem_sources_of_mem_found (h : path ∈ found fs s) :
    path ∈ Discovery.sources fs (canonicalRoot fs s.root) := by
  rw [found, Discovery.value_discover] at h
  exact List.mem_of_mem_filter h

theorem nodup_found (wf : fs.tree.WellFormed) (s : Survey) : (found fs s).Nodup := by
  rw [found, Discovery.value_discover]
  exact (nodup_sources wf s.root).filter _

theorem normalize_found (wf : fs.tree.WellFormed) (h : path ∈ found fs s) :
    Path.normalize path = path.shown :=
  normalize_source wf (mem_sources_of_mem_found h)

theorem found_congr (wf : fs.tree.WellFormed) (wg : gs.tree.WellFormed)
    (h : FileSystem.DifferOnlyAt place fs gs) (s : Survey) : found fs s = found gs s := by
  rw [found, found, Discovery.value_discover, Discovery.value_discover, canonicalRoot_congr h,
    sources_congr wf wg h]

end Found

/-! ### The outcome -/

theorem value_readAll [SourceParser] (fs : FileSystem) (root : RawText) (paths : List RawText) :
    (readAll fs root paths).value = paths.map fun path =>
      (Path.normalize path,
        (FileRecord.ofFile? fs (Path.join root path) (Path.normalize path)).value) := by
  induction paths with
  | nil => rfl
  | cons path rest ih => simp only [readAll, Memo.value_bind, Memo.value_pure, ih, List.map_cons]

theorem value_assemble (root : RawText) (m : Manifest) (frameworks : List DetectedFramework)
    (results : List (String × Except SourceFault FileRecord)) :
    (assemble root m frameworks results).value =
      let files := results.filterMap fun r => r.2.toOption
      if files = [] then .error (.noneParsed root results.length)
      else .ok ⟨files, m.dependencies, files.flatMap FileRecord.exports, frameworks, m.package⟩ := by
  unfold assemble
  simp only [Logged.value_bind, List.isEmpty_iff]
  split <;> rfl

section Outcome

variable [Glob.Compiler] [SourceParser] [ThreadPool]

/-- What a survey comes to, told by what it finds and what reading that comes to. -/
theorem outcome_eq (fs : FileSystem) (s : Survey) :
    outcome fs s =
      let root := canonicalRoot fs s.root
      let m := (Manifest.ofRoot fs root).value
      if found fs s = [] then .error (.noSources root)
      else if records fs s = [] then .error (.noneParsed root (found fs s).length)
      else .ok ⟨records fs s, m.dependencies, (records fs s).flatMap FileRecord.exports,
        detectFrameworks m.dependencies, m.package⟩ := by
  have e : ((found fs s).map fun path => (Path.normalize path, record fs s path)).filterMap
      (fun r => r.2.toOption) = records fs s := by
    rw [List.filterMap_map]
    rfl
  unfold outcome run
  simp only [Logged.value_bind, Logged.value_pure, List.isEmpty_iff]
  rw [← found]
  split
  next => rfl
  next hne =>
      simp only [Memo.value_bind, Memo.value_pure, Logged.value_bind, value_assemble, value_readAll,
        List.length_map]
      rw [← e]
      rfl

/-- There is an outcome only if there are records, and then it holds them and what can be told
from them. -/
theorem outcome_cases (fs : FileSystem) (s : Survey) :
    (records fs s = [] ∧ ∃ fault, outcome fs s = .error fault) ∨
    ∃ c, outcome fs s = .ok c ∧ c.files = records fs s ∧
      c.exports = (records fs s).flatMap FileRecord.exports ∧
      c.frameworks = detectFrameworks c.dependencies := by
  rw [outcome_eq]
  simp only
  split
  next hf => exact .inl ⟨by rw [records, hf, List.filterMap_nil], _, rfl⟩
  next =>
      split
      next hr => exact .inl ⟨hr, _, rfl⟩
      next => exact .inr ⟨_, rfl, rfl, rfl, rfl⟩

/-- What an outcome holds. -/
theorem of_outcome {c : Codebase} (h : outcome fs s = .ok c) :
    c.files = records fs s ∧ c.exports = (records fs s).flatMap FileRecord.exports ∧
      c.frameworks = detectFrameworks c.dependencies := by
  obtain ⟨-, fault, ho⟩ | ⟨c', ho, hc⟩ := outcome_cases fs s
  · rw [h] at ho
    cases ho
  · obtain rfl := Except.ok.inj (h.symm.trans ho)
    exact hc

theorem filesOf_outcome (fs : FileSystem) (s : Survey) : filesOf (outcome fs s) = records fs s := by
  obtain ⟨hr, fault, ho⟩ | ⟨c, ho, hfiles, -⟩ := outcome_cases fs s
  · rw [ho, hr]
    rfl
  · rw [ho, ← hfiles]
    rfl

theorem exportsOf_outcome (fs : FileSystem) (s : Survey) :
    exportsOf (outcome fs s) = (records fs s).flatMap FileRecord.exports := by
  obtain ⟨hr, fault, ho⟩ | ⟨c, ho, -, hexports, -⟩ := outcome_cases fs s
  · rw [ho, hr]
    rfl
  · rw [ho, ← hexports]
    rfl

end Outcome

/-! ### Notices -/

theorem skipped_assemble (root : RawText) (m : Manifest) (frameworks : List DetectedFramework)
    (results : List (String × Except SourceFault FileRecord)) :
    (assemble root m frameworks results).notices.filterMap skipped? =
      results.filterMap fun r => (fault? r.2).map fun fault => (r.1, fault) := by
  have hread : ∀ fs : List FileRecord, (fs.map FileRecord.notice).filterMap skipped? = [] := by
    intro fs
    simp [FileRecord.notice, skipped?]
  have hskip : (results.filterMap fun r =>
      match r.2 with
      | .ok _ => none
      | .error fault => some (Notice.fileSkipped r.1 fault)).filterMap skipped? =
      results.filterMap fun r => (fault? r.2).map fun fault => (r.1, fault) := by
    rw [List.filterMap_filterMap]
    congr 1
    funext r
    cases r.2 <;> rfl
  unfold assemble
  simp only [Logged.notices_bind, Logged.notices_tellAll, List.filterMap_append, hread,
    List.nil_append]
  split
  next =>
      rw [Logged.notices_pure, List.filterMap_nil, List.append_nil]
      exact hskip
  next =>
      rw [Logged.notices_bind, Logged.notices_tell, Logged.notices_pure, List.append_nil,
        List.filterMap_cons_none rfl, List.filterMap_nil, List.append_nil]
      exact hskip

theorem skipped_discover [Glob.Compiler] (fs : FileSystem) (root : RawText)
    (patterns : List String) : (discover fs root patterns).notices.filterMap skipped? = [] := by
  have hp : ∀ patterns, (Discovery.readPatterns patterns).notices.filterMap skipped? = [] := by
    intro patterns
    induction patterns with
    | nil => rfl
    | cons p rest ih =>
        unfold Discovery.readPatterns
        cases Glob.parse p with
        | ok g => simpa using ih
        | error e => simpa [skipped?] using ih
  have he : (Discovery.excludes patterns).notices.filterMap skipped? = [] := by
    unfold Discovery.excludes
    rw [Logged.notices_bind, List.filterMap_append, hp]
    cases GlobSet.ofGlobs (Discovery.readPatterns (Discovery.defaultExcludes ++ patterns)).value with
    | ok g => rfl
    | error e => rfl
  unfold discover
  rw [Logged.notices_bind, List.filterMap_append, he]
  cases Discovery.sourcesAt fs root <;> rfl

theorem skipped_manifest (fs : FileSystem) (root : RawText) :
    (Manifest.ofRoot fs root).notices.filterMap skipped? = [] := by
  unfold Manifest.ofRoot
  simp only
  cases Manifest.ofFile fs (Path.join root Manifest.fileName) <;> rfl

theorem skipped_pool [ThreadPool] (jobs : Option Nat) :
    (poolNotices jobs).filterMap skipped? = [] := by
  rw [List.filterMap_eq_nil_iff]
  intro n hn
  obtain ⟨count, -, h⟩ := Option.bind_eq_some_iff.mp (Option.mem_toList.mp hn)
  obtain ⟨cause, -, rfl⟩ := Option.map_eq_some_iff.mp h
  rfl

/-- A survey tells of each file without a record that it is left out, and of no other. -/
theorem skipped_notices [Glob.Compiler] [SourceParser] [ThreadPool] (fs : FileSystem)
    (s : Survey) :
    (notices fs s).filterMap skipped? = (found fs s).filterMap fun path =>
      (fault? (record fs s path)).map fun fault => (Path.normalize path, fault) := by
  unfold notices run
  simp only [Logged.value_bind, Logged.value_pure, List.isEmpty_iff]
  rw [← found]
  split
  next h =>
      simp only [Memo.value_pure, Logged.notices_bind, Logged.notices_tell, Logged.notices_pure,
        List.filterMap_append, skipped_discover, skipped_manifest, h, List.filterMap_nil,
        List.append_nil, List.nil_append]
      rfl
  next hne =>
      simp only [Memo.value_bind, Memo.value_pure, Logged.notices_bind, Logged.notices_tell,
        Logged.notices_tellAll, Logged.notices_pure, List.filterMap_append, value_readAll,
        skipped_assemble, skipped_discover, skipped_manifest, skipped_pool, List.filterMap_map,
        List.nil_append, List.append_nil]
      rfl

/-! ### Records -/

/-- Among files with different paths each is found by its path. -/
theorem find?_relativePath {files : List FileRecord} (hd : (files.map (·.relativePath)).Nodup)
    {f : FileRecord} (hf : f ∈ files) :
    files.find? (·.relativePath == f.relativePath) = some f := by
  obtain ⟨l, r, rfl⟩ := List.append_of_mem hf
  rw [List.map_append, List.map_cons, List.nodup_append] at hd
  rw [List.find?_eq_some_iff_append]
  refine ⟨by simp, l, r, rfl, ?_⟩
  intro g hg
  have hne := hd.2.2 g.relativePath (List.mem_map_of_mem hg) f.relativePath (by simp)
  simpa using hne

section Records

variable [Glob.Compiler] [SourceParser]

theorem mem_records {f : FileRecord} :
    f ∈ records fs s ↔ ∃ path ∈ found fs s, record fs s path = .ok f := by
  have e : ∀ r : Except SourceFault FileRecord, r.toOption = some f ↔ r = .ok f := by
    intro r
    cases r <;> simp [Except.toOption]
  simp only [records, List.mem_filterMap, e]

theorem records_eq_nil_iff :
    records fs s = [] ↔ ∀ path ∈ found fs s, (record fs s path).isOk = false := by
  rw [records, List.filterMap_eq_nil_iff]
  have e : ∀ r : Except SourceFault FileRecord, r.toOption = none ↔ r.isOk = false := by
    intro r
    cases r <;> simp [Except.toOption, Except.isOk, Except.toBool]
  simp only [e]

/-- The records have the normal paths of the files that have one, in the order of these. -/
theorem map_relativePath_records (fs : FileSystem) (s : Survey) :
    (records fs s).map (·.relativePath) =
      ((found fs s).filter fun path => (record fs s path).isOk).map Path.normalize := by
  rw [records, List.map_filterMap, ← List.filterMap_eq_filter, List.map_filterMap]
  apply List.filterMap_congr
  intro path hp
  cases hr : record fs s path with
  | error e => simp [Except.toOption, Except.isOk, Except.toBool, Option.guard, hr]
  | ok f =>
      have hf : f.relativePath = Path.normalize path := FileRecord.relativePath_eq hr
      simp [Except.toOption, Except.isOk, Except.toBool, Option.guard, hf, hr]

/-- The records have paths of their own exactly if files that have one have normal paths of their
own. -/
theorem nodup_records_iff (wf : fs.tree.WellFormed) (s : Survey) :
    ((records fs s).map (·.relativePath)).Nodup ↔
      ∀ path ∈ found fs s, ∀ other ∈ found fs s,
        (record fs s path).isOk → (record fs s other).isOk →
        Path.normalize path = Path.normalize other → path = other := by
  rw [map_relativePath_records, List.nodup_map_iff_inj_on ((nodup_found wf s).filter _)]
  simp only [List.mem_filter, and_imp]
  constructor
  · exact fun h path hp other ho hp' ho' => h path hp hp' other ho ho'
  · exact fun h path hp hp' other ho ho' => h path hp other ho hp' ho'

/-- Files of which the paths spell texts have normal paths of their own. -/
theorem nodup_records (wf : fs.tree.WellFormed) (h : ∀ path ∈ found fs s, path.text?.isSome) :
    ((records fs s).map (·.relativePath)).Nodup := by
  rw [nodup_records_iff wf]
  intro path hp other ho _ _ e
  rw [normalize_found wf hp, normalize_found wf ho] at e
  obtain ⟨x, hx⟩ := Option.isSome_iff_exists.mp (h path hp)
  obtain ⟨y, hy⟩ := Option.isSome_iff_exists.mp (h other ho)
  rw [RawText.text?_eq_some_iff.mp hx, RawText.text?_eq_some_iff.mp hy] at e ⊢
  rw [RawText.shown_ofText, RawText.shown_ofText] at e
  rw [e]

/-- A record has the path that is shown of its relative path below the root. -/
theorem path_of_mem_records (wf : fs.tree.WellFormed) {f : FileRecord} (h : f ∈ records fs s) :
    f.path = (Path.join (canonicalRoot fs s.root) f.relativePath).shown := by
  obtain ⟨path, hp, hr⟩ := mem_records.mp h
  rw [FileRecord.path_eq hr, FileRecord.relativePath_eq hr, normalize_found wf hp]
  exact Path.shown_join_congr _ (RawText.shown_ofText path.shown).symm

/-! ### Another content -/

/-- The record of a file does not depend on the bytes of another one. -/
theorem record_congr (wf : fs.tree.WellFormed) (h : FileSystem.DifferOnlyAt place fs gs)
    (hp : path ∈ found fs s) (hne : Path.join (canonicalRoot fs s.root) path ≠ pathOf place) :
    record fs s path = record gs s path := by
  rw [record, record, ← canonicalRoot_congr h]
  apply FileRecord.ofFile?_congr
  apply FileSystem.read_congr h
  intro hr
  exact hne (reach_source wf (mem_sources_of_mem_found hp) hr)

/-- So the records are the same before that of the other file, if it has one, and behind it. -/
theorem records_split (wf : fs.tree.WellFormed) (wg : gs.tree.WellFormed)
    (h : FileSystem.DifferOnlyAt place fs gs) (s : Survey) :
    ∃ front rest, ∃ o o' : Option FileRecord,
      records fs s = front ++ o.toList ++ rest ∧ records gs s = front ++ o'.toList ++ rest ∧
      ∀ f ∈ o.toList ++ o'.toList, f.path = (pathOf place).shown := by
  have each : ∀ paths : List RawText, (∀ path ∈ paths, path ∈ found fs s ∧
        Path.join (canonicalRoot fs s.root) path ≠ pathOf place) →
      paths.filterMap (fun path => (record gs s path).toOption) =
        paths.filterMap fun path => (record fs s path).toOption := by
    intro paths hpaths
    apply List.filterMap_congr
    intro path hp
    rw [record_congr wf h (hpaths path hp).1 (hpaths path hp).2]
  by_cases hplace : ∃ path ∈ found fs s, Path.join (canonicalRoot fs s.root) path = pathOf place
  · obtain ⟨path, hp, hjoin⟩ := hplace
    have hd := nodup_found wf s
    have hother : ∀ other ∈ found fs s, other ≠ path →
        Path.join (canonicalRoot fs s.root) other ≠ pathOf place := by
      intro other ho hne e
      exact hne (join_source_inj wf (mem_sources_of_mem_found ho) (mem_sources_of_mem_found hp)
        (e.trans hjoin.symm))
    obtain ⟨front, rest, hfound⟩ := List.append_of_mem hp
    rw [hfound, List.nodup_middle, List.nodup_cons, List.mem_append, not_or] at hd
    have hf := each front fun other ho =>
      have hmem : other ∈ found fs s := by simp [hfound, ho]
      ⟨hmem, hother other hmem fun e => hd.1.1 (e ▸ ho)⟩
    have hr := each rest fun other ho =>
      have hmem : other ∈ found fs s := by simp [hfound, ho]
      ⟨hmem, hother other hmem fun e => hd.1.2 (e ▸ ho)⟩
    have split : ∀ hs : FileSystem, found hs s = front ++ path :: rest → records hs s =
        front.filterMap (fun path => (record hs s path).toOption) ++
          (record hs s path).toOption.toList ++
          rest.filterMap fun path => (record hs s path).toOption := by
      intro hs e
      rw [records, e, List.filterMap_append, List.filterMap_cons, List.append_assoc]
      cases (record hs s path).toOption <;> rfl
    have hpath : ∀ hs : FileSystem, canonicalRoot hs s.root = canonicalRoot fs s.root →
        ∀ f, (record hs s path).toOption = some f → f.path = (pathOf place).shown := by
      intro hs hroot f hf
      cases hrec : record hs s path with
      | error e =>
          rw [hrec] at hf
          cases hf
      | ok g =>
          rw [hrec] at hf
          cases hf
          rw [FileRecord.path_eq hrec, hroot, hjoin]
    refine ⟨_, _, (record fs s path).toOption, (record gs s path).toOption, split fs hfound, ?_, ?_⟩
    · rw [split gs ((found_congr wf wg h s).symm.trans hfound), hf, hr]
    · intro f hf
      rw [List.mem_append, Option.mem_toList, Option.mem_toList] at hf
      exact hf.elim (hpath fs rfl f) (hpath gs (canonicalRoot_congr h s.root).symm f)
  · have hsame : records gs s = records fs s := by
      rw [records, ← found_congr wf wg h]
      exact each _ fun path hp => ⟨hp, fun e => hplace ⟨path, hp, e⟩⟩
    exact ⟨records fs s, [], none, none, by simp, by simp [hsame], by simp⟩

end Records

/-! ### All together -/

section Together

variable [Glob.Compiler] [SourceParser] [ThreadPool]

/-- Other bytes for one file change neither what is found nor the record of another file, so that
at most one record and what it exports are not the same before and after, whether or not there is
an outcome before and after. -/
theorem outcome_set (wf : fs.tree.WellFormed) {old : ByteArray}
    (h : fs.tree.at? place = some (.file old)) (new : ByteArray) (s : Survey) :
    let gs := fs.set place (some (.file new))
    found gs s = found fs s ∧
    (∀ path ∈ found fs s, Path.join (canonicalRoot fs s.root) path ≠ pathOf place →
      record gs s path = record fs s path) ∧
    ∃ front rest, ∃ o o' : Option FileRecord,
      filesOf (outcome fs s) = front ++ o.toList ++ rest ∧
      filesOf (outcome gs s) = front ++ o'.toList ++ rest ∧
      (∀ f ∈ o.toList ++ o'.toList, f.path = (pathOf place).shown) ∧
      exportsOf (outcome fs s) = (front ++ o.toList ++ rest).flatMap FileRecord.exports ∧
      exportsOf (outcome gs s) = (front ++ o'.toList ++ rest).flatMap FileRecord.exports := by
  intro gs
  have wg : gs.tree.WellFormed := wf.set (wf.at? h).2 (by simp [FileTree.WellFormed.file])
  have hd : FileSystem.DifferOnlyAt place fs gs := ⟨FileTree.differOnlyAt_set h new, rfl⟩
  obtain ⟨front, rest, o, o', hf, hg, hpath⟩ := records_split wf wg hd s
  refine ⟨(found_congr wf wg hd s).symm, fun path hp hne => (record_congr wf hd hp hne).symm,
    front, rest, o, o', ?_, ?_, hpath, ?_, ?_⟩
  · rw [filesOf_outcome, hf]
  · rw [filesOf_outcome, hg]
  · rw [exportsOf_outcome, hf]
  · rw [exportsOf_outcome, hg]

/-- What a survey comes to.  It fails only if it finds no source file, or if none of those found
has a record; otherwise it holds the records of those that have one, in the order in which they
are found.  Each has the normal path of its file, and below the root that path is what is shown of
the file's own.  So the records have paths of their own, and each is found by its path, unless two
files with records are shown alike; that may be so only if the path of one of them spells no text.
The files without a record are told of one by one, and none of them for lack of a dialect.  How
many files may be read at once makes no difference, and whatever the bytes of one file are, what
comes of the other files is the same. -/
theorem outcome_spec (fs : FileSystem) (s : Survey) (wf : fs.tree.WellFormed) :
    (∀ r, outcome fs s = .error (.noSources r) ↔
      r = canonicalRoot fs s.root ∧ found fs s = []) ∧
    (∀ r n, outcome fs s = .error (.noneParsed r n) ↔
      r = canonicalRoot fs s.root ∧ n = (found fs s).length ∧ found fs s ≠ [] ∧
        ∀ path ∈ found fs s, (record fs s path).isOk = false) ∧
    ((∃ path ∈ found fs s, (record fs s path).isOk = true) → ∃ c, outcome fs s = .ok c ∧
      c.files = (found fs s).filterMap (fun path => (record fs s path).toOption) ∧
      c.files.map (·.relativePath) =
        ((found fs s).filter fun path => (record fs s path).isOk).map Path.normalize ∧
      (∀ f ∈ c.files, f.path = (Path.join (canonicalRoot fs s.root) f.relativePath).shown) ∧
      ((c.files.map (·.relativePath)).Nodup ↔
        ∀ path ∈ found fs s, ∀ other ∈ found fs s,
          (record fs s path).isOk → (record fs s other).isOk →
          Path.normalize path = Path.normalize other → path = other) ∧
      ((c.files.map (·.relativePath)).Nodup →
        ∀ f ∈ c.files, c.file? f.relativePath = some f)) ∧
    ((∀ path ∈ found fs s, path.text?.isSome) →
      ((filesOf (outcome fs s)).map (·.relativePath)).Nodup) ∧
    ((notices fs s).filterMap skipped? = (found fs s).filterMap fun path =>
      (fault? (record fs s path)).map fun fault => (Path.normalize path, fault)) ∧
    (found fs s).Nodup ∧
    (∀ path ∈ found fs s, ∀ p, record fs s path ≠ .error (.noDialect p)) ∧
    (∀ jobs, outcome fs { s with jobs := jobs } = outcome fs s ∧
      (notices fs { s with jobs := jobs }).filterMap skipped? =
        (notices fs s).filterMap skipped?) ∧
    (∀ place old new, fs.tree.at? place = some (.file old) →
      let gs := fs.set place (some (.file new))
      found gs s = found fs s ∧
      (∀ path ∈ found fs s, Path.join (canonicalRoot fs s.root) path ≠ pathOf place →
        record gs s path = record fs s path) ∧
      ∃ front rest, ∃ o o' : Option FileRecord,
        filesOf (outcome fs s) = front ++ o.toList ++ rest ∧
        filesOf (outcome gs s) = front ++ o'.toList ++ rest ∧
        (∀ f ∈ o.toList ++ o'.toList, f.path = (pathOf place).shown) ∧
        exportsOf (outcome fs s) = (front ++ o.toList ++ rest).flatMap FileRecord.exports ∧
        exportsOf (outcome gs s) = (front ++ o'.toList ++ rest).flatMap FileRecord.exports) := by
  refine ⟨?_, ?_, ?_, ?_, skipped_notices fs s, nodup_found wf s, ?_, ?_, ?_⟩
  · intro r
    rw [outcome_eq]
    by_cases hf : found fs s = []
    · simp [hf, eq_comm]
    · by_cases hr : records fs s = [] <;> simp [hf, hr]
  · intro r n
    rw [outcome_eq, ← records_eq_nil_iff]
    by_cases hf : found fs s = []
    · simp [hf]
    · by_cases hr : records fs s = []
      · simp [hf, hr, eq_comm]
      · simp [hf, hr]
  · rintro ⟨path, hp, hok⟩
    obtain ⟨hr, -⟩ | ⟨c, hc, hfiles, -⟩ := outcome_cases fs s
    · rw [records_eq_nil_iff.mp hr path hp] at hok
      cases hok
    · refine ⟨c, hc, ?_⟩
      unfold Codebase.file?
      rw [hfiles]
      exact ⟨rfl, map_relativePath_records fs s, fun f hf => path_of_mem_records wf hf,
        nodup_records_iff wf s, fun hd f hf => find?_relativePath hd hf⟩
  · intro htext
    rw [filesOf_outcome]
    exact nodup_records wf htext
  · intro path hp p
    exact FileRecord.ofFile?_ne_noDialect (dialect_source wf (mem_sources_of_mem_found hp)) p
  · intro jobs
    rw [skipped_notices, skipped_notices, outcome_eq, outcome_eq]
    exact ⟨rfl, rfl⟩
  · intro place old new h
    exact outcome_set wf h new s

end Together

/-! ### A project with names that are shown alike -/

/-- The declaration of a function without parameters on one line. -/
def functionOnLine (field : Option String) (start nameEnd stop : Nat) (statements : List Node) :
    Node :=
  .onLine "function_declaration" field start stop [
    .wordOnLine "function" start (start + 8),
    .onLine "identifier" (some "name") (start + 9) nameEnd [],
    .onLine "formal_parameters" (some "parameters") nameEnd (nameEnd + 2)
      [.wordOnLine "(" nameEnd (nameEnd + 1), .wordOnLine ")" (nameEnd + 1) (nameEnd + 2)],
    .onLine "statement_block" (some "body") (nameEnd + 3) stop
      (.wordOnLine "\x7b" (nameEnd + 3) (nameEnd + 4) :: statements ++
        [.wordOnLine "\x7d" (stop - 1) stop])]

/-- An exported one. -/
def exportOnLine (start nameEnd stop : Nat) : Node :=
  .onLine "export_statement" none start stop [.wordOnLine "export" start (start + 6),
    functionOnLine (some "declaration") (start + 7) nameEnd stop []]

/-- The text of functions: one that is exported, a private one that is exported, and one in which
there is another function by the name of the first. -/
def functionsText : String :=
  "export function f() \x7b\x7d export function _g() \x7b\x7d function h() \x7b function f() \x7b\x7d \x7d"

/-- The text of one function that is exported. -/
def functionText : String := "export function g() \x7b\x7d"

/-- A source of functions. -/
def functionsTree : Tree where
  source := .ofBytes functionsText.toUTF8
  root := .onLine "program" none 0 79 [exportOnLine 0 17 22, exportOnLine 23 41 46,
    functionOnLine none 47 57 79 [functionOnLine none 62 72 77 []]]

/-- A source of one function. -/
def functionTree : Tree where
  source := .ofBytes functionText.toUTF8
  root := .onLine "program" none 0 22 [exportOnLine 0 17 22]

/-- A source of nothing. -/
def emptyTree : Tree where
  source := .ofBytes "".toUTF8
  root := .onLine "program" none 0 0 []

/-- A source that ends too early. -/
def brokenTree : Tree where
  source := .ofBytes "function".toUTF8
  root := { Node.onLine "program" none 0 8 [
    { Node.onLine "ERROR" none 0 8 [.wordOnLine "function" 0 8] with faulty := true }] with
      faulty := true }

section Sample

/-- What the parser makes of the sample sources. -/
local instance sampleParser : SourceParser where
  parse _ bytes := return if bytes = functionsText.toUTF8 then functionsTree
    else if bytes = functionText.toUTF8 then functionTree
    else if bytes = "".toUTF8 then emptyTree
    else brokenTree

/-- The name of a file, of which the byte after the first letter spells no character. -/
def brokenName (b : UInt8) : RawText := ⟨[0x63, b, 0x2E, 0x74, 0x73]⟩

/-- A project of four files.  Two of them have names that are shown alike. -/
def sampleProject : FileSystem where
  tree := .directory [("app", .directory [(brokenName 0xFF, .file functionText.toUTF8),
    ("b.ts", .file "function".toUTF8), (brokenName 0xFE, .file "".toUTF8),
    ("a.ts", .file functionsText.toUTF8)])]
  here := []

theorem wellFormed_sampleProject : sampleProject.tree.WellFormed := by
  refine .directory (by decide) (by decide) ?_
  rw [List.forall_mem_singleton]
  refine .directory (by decide) (by decide) ?_
  simp [FileTree.WellFormed.file]

/-- A survey of it. -/
def sampleSurvey : Survey := ⟨"app", [], none⟩

theorem found_sampleProject : found sampleProject sampleSurvey =
    (["a.ts", "b.ts", brokenName 0xFE, brokenName 0xFF] : List RawText) := by cbv

theorem record_sampleProject :
    record sampleProject sampleSurvey "a.ts" = .ok (.ofTree "/app/a.ts" "a.ts" functionsTree) ∧
    record sampleProject sampleSurvey "b.ts" = .error (.malformed "/app/b.ts" 1 1) ∧
    record sampleProject sampleSurvey (brokenName 0xFE) =
      .ok (.ofTree "/app/c\uFFFD.ts" "c\uFFFD.ts" emptyTree) ∧
    record sampleProject sampleSurvey (brokenName 0xFF) =
      .ok (.ofTree "/app/c\uFFFD.ts" "c\uFFFD.ts" functionTree) :=
  ⟨by cbv, by cbv, by cbv, by cbv⟩

theorem exists_outcome_sampleProject :
    ∃ c, outcome sampleProject sampleSurvey = .ok c ∧
      c.files = [.ofTree "/app/a.ts" "a.ts" functionsTree,
        .ofTree "/app/c\uFFFD.ts" "c\uFFFD.ts" emptyTree,
        .ofTree "/app/c\uFFFD.ts" "c\uFFFD.ts" functionTree] := by
  obtain ⟨ha, hb, hc, hd⟩ := record_sampleProject
  have hr : records sampleProject sampleSurvey = [.ofTree "/app/a.ts" "a.ts" functionsTree,
      .ofTree "/app/c\uFFFD.ts" "c\uFFFD.ts" emptyTree,
      .ofTree "/app/c\uFFFD.ts" "c\uFFFD.ts" functionTree] := by
    rw [records, found_sampleProject]
    simp only [List.filterMap_cons, List.filterMap_nil, ha, hb, hc, hd, Except.toOption]
  obtain ⟨hnil, -⟩ | ⟨c, ho, hfiles, -⟩ := outcome_cases sampleProject sampleSurvey
  · rw [hr] at hnil
    cases hnil
  · exact ⟨c, ho, hfiles.trans hr⟩

/-- The file that is not well-formed is told of, and the records of the two files that are shown
alike have one path, by which only the first is found. -/
theorem outcome_sample :
    ∃ c, outcome sampleProject sampleSurvey = .ok c ∧
      c.files = [.ofTree "/app/a.ts" "a.ts" functionsTree,
        .ofTree "/app/c\uFFFD.ts" "c\uFFFD.ts" emptyTree,
        .ofTree "/app/c\uFFFD.ts" "c\uFFFD.ts" functionTree] ∧
      ¬ (c.files.map (·.relativePath)).Nodup ∧
      c.file? "c\uFFFD.ts" = some (.ofTree "/app/c\uFFFD.ts" "c\uFFFD.ts" emptyTree) ∧
      (notices sampleProject sampleSurvey).filterMap skipped? =
        [("b.ts", .malformed "/app/b.ts" 1 1)] := by
  obtain ⟨c, ho, hfiles⟩ := exists_outcome_sampleProject
  obtain ⟨ha, hb, hc, hd⟩ := record_sampleProject
  obtain ⟨-, -, hok, -, hskipped, -⟩ :=
    outcome_spec sampleProject sampleSurvey wellFormed_sampleProject
  obtain ⟨c', ho', -, -, -, hdistinct, -⟩ :=
    hok ⟨"a.ts", by simp [found_sampleProject], by rw [ha]; rfl⟩
  obtain rfl := Except.ok.inj (ho.symm.trans ho')
  rw [found_sampleProject] at hskipped
  simp only [List.filterMap_cons, List.filterMap_nil, ha, hb, hc, hd, fault?, Option.map_none,
    Option.map_some] at hskipped
  refine ⟨c, ho, hfiles, ?_, ?_, ?_⟩
  · intro h
    have e := hdistinct.mp h (brokenName 0xFE) (by simp [found_sampleProject]) (brokenName 0xFF)
      (by simp [found_sampleProject]) (by rw [hc]; rfl) (by rw [hd]; rfl) (by decide)
    cases e
  · rw [Codebase.file?, hfiles]
    decide +kernel
  · rw [hskipped]
    decide

end Sample

end Survey

end CodeSurvey
