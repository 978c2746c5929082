import CodeSurvey.Proofs.Excludes
import CodeSurvey.Proofs.Reach
import CodeSurvey.Proofs.SourcePlaces
import CodeSurvey.Survey

/-! # The source files below a root

The root of a survey is taken without links, so that it is the path of a place.

* `Survey.sources_cases`: at that place there is a directory, whose source files are listed, or
  a source file, which is listed under the empty path; or no file is listed at all.
* `Survey.mem_sources`: so each listed path, joined to the root, is the path of a file, apart
  from a slash behind a root that is a file itself.
* `ofExtension?_isSome_iff`: the extensions of source files are those that tell a dialect.

It follows that listed paths are different (`nodup_sources`), also if they are joined to the root
(`join_source_inj`), that their normal form is what is shown of them (`normalize_source`), that each
has a dialect (`dialect_source`), and that each leads to the place that it spells, if it leads
anywhere (`reach_source`).  None of this depends on what the files hold (`sources_congr`). -/

namespace CodeSurvey

open FileSystem (pathOf)

/-! ### Dialects -/

/-- The extensions of source files are those that tell a dialect. -/
theorem ofExtension?_isSome_iff (extension : String) :
    (TypeScript.Dialect.ofExtension? extension).isSome ↔
      extension ∈ Discovery.sourceExtensions := by
  simp only [TypeScript.Dialect.ofExtension?, List.find?_isSome, TypeScript.Dialect.all,
    TypeScript.Dialect.extensions, Discovery.sourceExtensions, List.mem_cons, List.not_mem_nil,
    or_false, exists_eq_or_imp, exists_eq_left, List.contains_iff_mem]
  tauto

theorem isSource_iff (path : RawText) :
    Discovery.isSource path ↔
      (TypeScript.Dialect.ofExtension? (Path.fileExtension path)).isSome := by
  rw [ofExtension?_isSome_iff, Discovery.isSource, List.contains_iff_mem]

namespace Survey

open Discovery (sources sourcesIn IsSourcePlace)

variable {fs gs : FileSystem} {root path : RawText} {place : List RawText}

/-! ### The root -/

/-- What is listed at a root without links. -/
theorem sources_cases (wf : fs.tree.WellFormed) (root : RawText) :
    sources fs (canonicalRoot fs root) = [] ∨
    ∃ loc, canonicalRoot fs root = pathOf loc ∧ (∀ n ∈ loc, Path.IsName n) ∧
      ((∃ es, fs.tree.at? loc = some (.directory es) ∧
          sources fs (canonicalRoot fs root) = sourcesIn (.directory es)) ∨
        (loc ≠ [] ∧ fs.tree.kindAt loc = some .file ∧ Discovery.isSource (pathOf loc) ∧
          sources fs (canonicalRoot fs root) = [("" : RawText)])) := by
  cases hroot : fs.look true root with
  | error e =>
      left
      have hr : canonicalRoot fs root = root := by
        simp [canonicalRoot, FileSystem.canonical, hroot, Except.map]
      rw [hr]
      unfold sources Discovery.sourcesAt
      cases hlook : fs.look false root with
      | error e => rfl
      | ok found =>
          obtain ⟨loc, t⟩ := found
          have hk := FileSystem.kindAt_of_look hlook
          cases t with
          | file =>
              have := FileSystem.look_true_of_false (FileTree.not_linkAt_of_file hk) hlook
              rw [hroot] at this
              cases this
          | directory =>
              have := FileSystem.look_true_of_false (FileTree.not_linkAt_of_directory hk) hlook
              rw [hroot] at this
              cases this
          | link => simp [hroot, Except.map, Except.toOption]
  | ok found =>
      obtain ⟨loc, t⟩ := found
      have hr : canonicalRoot fs root = pathOf loc := by
        simp [canonicalRoot, FileSystem.canonical, hroot, Except.map]
      have ht := (FileSystem.look_eq_ok_iff.mp hroot).2
      have hk := FileSystem.kindAt_of_look hroot
      have hl := FileSystem.not_linkAt_of_look hroot
      have hn := (wf.at? ht).2
      rw [hr]
      unfold sources Discovery.sourcesAt
      cases hlook : fs.look false (pathOf loc) with
      | error e => exact .inl rfl
      | ok found =>
          obtain ⟨loc', t'⟩ := found
          obtain ⟨hreach, ht'⟩ := FileSystem.look_eq_ok_iff.mp hlook
          have hloc := FileSystem.reach_pathOf hn (by rw [ht]; rfl) hl hreach
          obtain rfl : loc' = loc := Reached.found.inj hloc
          obtain rfl : t' = t := Option.some.inj (ht'.symm.trans ht)
          cases t' with
          | file =>
              by_cases hs : Discovery.isSource (pathOf loc')
              · refine .inr ⟨loc', rfl, hn, .inr ⟨?_, hk, hs, by simp [hs, Except.toOption]⟩⟩
                rintro rfl
                revert hs
                rw [Path.pathOf_nil]
                decide
              · exact .inl (by simp [hs, Except.toOption])
          | directory es => exact .inr ⟨loc', rfl, hn, .inl ⟨es, ht, rfl⟩⟩
          | link target => exact absurd ⟨target, hk⟩ hl

/-- Where the listed files lie. -/
theorem mem_sources (wf : fs.tree.WellFormed) (h : path ∈ sources fs (canonicalRoot fs root)) :
    ∃ loc, canonicalRoot fs root = pathOf loc ∧ (∀ n ∈ loc, Path.IsName n) ∧
      ((∃ names, path = Path.ofNames names ∧ (∀ n ∈ names, Path.IsName n) ∧
          IsSourcePlace names ∧ fs.tree.kindAt (loc ++ names) = some .file) ∨
        (path = "" ∧ loc ≠ [] ∧ fs.tree.kindAt loc = some .file ∧
          Discovery.isSource (pathOf loc))) := by
  rcases sources_cases wf root with hnil | ⟨loc, hr, hn, ⟨es, ht, hs⟩ | ⟨hne, hk, hsrc, hs⟩⟩
  · rw [hnil] at h
    cases h
  · rw [hs, Discovery.sourcesIn_eq, List.mem_map] at h
    obtain ⟨names, hmem, rfl⟩ := h
    have hw := (wf.at? ht).1
    obtain ⟨hf, hp⟩ := (Discovery.mem_placesIn hw).mp hmem
    refine ⟨loc, hr, hn, .inl ⟨names, rfl, Discovery.isName_of_mem_placesIn hw hmem, hp, ?_⟩⟩
    rw [FileTree.kindAt_append ht, hf]
  · rw [hs, List.mem_singleton] at h
    exact ⟨loc, hr, hn, .inr ⟨h, hne, hk, hsrc⟩⟩

/-! ### What follows -/

theorem nodup_sources (wf : fs.tree.WellFormed) (root : RawText) :
    (sources fs (canonicalRoot fs root)).Nodup := by
  rcases sources_cases wf root with hnil | ⟨loc, -, -, ⟨es, ht, hs⟩ | ⟨-, -, -, hs⟩⟩
  · rw [hnil]
    exact List.nodup_nil
  · rw [hs]
    exact Discovery.nodup_sourcesIn (wf.at? ht).1
  · rw [hs]
    exact List.nodup_singleton _

/-- The normal form of a listed path is what is shown of it. -/
theorem normalize_source (wf : fs.tree.WellFormed) (h : path ∈ sources fs (canonicalRoot fs root)) :
    Path.normalize path = path.shown := by
  obtain ⟨loc, -, -, ⟨names, rfl, hn, -⟩ | ⟨rfl, -⟩⟩ := mem_sources wf h
  · rw [Path.normalize_ofNames hn, Path.shown_ofNames]
  · rfl

/-- Joined to the root, listed paths are as different as they are. -/
theorem join_source_inj (wf : fs.tree.WellFormed) {other : RawText}
    (h : path ∈ sources fs (canonicalRoot fs root))
    (h' : other ∈ sources fs (canonicalRoot fs root))
    (e : Path.join (canonicalRoot fs root) path = Path.join (canonicalRoot fs root) other) :
    path = other := by
  rcases sources_cases wf root with hnil | ⟨loc, hr, hloc, ⟨es, ht, hs⟩ | ⟨-, -, -, hs⟩⟩
  · rw [hnil] at h
    cases h
  · rw [hs, Discovery.sourcesIn_eq, List.mem_map] at h h'
    obtain ⟨ms, hm, rfl⟩ := h
    obtain ⟨ns, hn, rfl⟩ := h'
    have hw := (wf.at? ht).1
    have hms := Discovery.isName_of_mem_placesIn hw hm
    have hns := Discovery.isName_of_mem_placesIn hw hn
    have hne : ∀ {names}, names ∈ Discovery.placesIn (.directory es) → names ≠ [] := fun h =>
      ((Discovery.mem_placesIn hw).mp h).2.ne_nil
    rw [hr, Path.join_pathOf (hne hm) hloc hms, Path.join_pathOf (hne hn) hloc hns] at e
    have hall := Path.pathOf_inj (List.forall_mem_append.mpr ⟨hloc, hms⟩)
      (List.forall_mem_append.mpr ⟨hloc, hns⟩) e
    rw [List.append_cancel_left hall]
  · rw [hs, List.mem_singleton] at h h'
    rw [h, h']

/-- Every listed file has a dialect. -/
theorem dialect_source (wf : fs.tree.WellFormed) (h : path ∈ sources fs (canonicalRoot fs root)) :
    (TypeScript.Dialect.ofExtension?
      (Path.fileExtension (Path.join (canonicalRoot fs root) path))).isSome := by
  rw [← isSource_iff]
  obtain ⟨loc, hr, hloc, ⟨names, rfl, hn, hp, -⟩ | ⟨rfl, hne, -, hs⟩⟩ := mem_sources wf h
  · have hnames := hp.ne_nil
    have hall : ∀ n ∈ loc ++ names, Path.IsName n := List.forall_mem_append.mpr ⟨hloc, hn⟩
    rw [hr, Path.join_pathOf hnames hloc hn]
    obtain ⟨front, n, rfl⟩ := (List.eq_nil_or_concat' names).resolve_left hnames
    obtain ⟨m, hm, hs⟩ := hp.source
    rw [List.getLast?_concat, Option.some.injEq] at hm
    rw [← List.append_assoc] at hall ⊢
    rw [Discovery.isSource, Path.fileExtension_pathOf hall]
    exact hm ▸ hs
  · rw [hr, Path.join_pathOf_empty hne hloc, Discovery.isSource,
      Path.fileExtension_pathOf_slash hne hloc]
    exact hs

/-- A listed file lies where its path says, if anything is there. -/
theorem reach_source (wf : fs.tree.WellFormed) (h : path ∈ sources fs (canonicalRoot fs root))
    (hr : fs.reach true (Path.join (canonicalRoot fs root) path) = .ok (.found place)) :
    Path.join (canonicalRoot fs root) path = pathOf place := by
  obtain ⟨loc, hroot, hloc, ⟨names, rfl, hn, hp, hk⟩ | ⟨rfl, hne, hk, -⟩⟩ := mem_sources wf h
  · rw [hroot, Path.join_pathOf (hp.ne_nil) hloc hn] at hr ⊢
    obtain ⟨content, hc⟩ := FileTree.kindAt_eq_file_iff.mp hk
    have e := FileSystem.reach_pathOf (List.forall_mem_append.mpr ⟨hloc, hn⟩)
      (by rw [hc]; rfl) (FileTree.not_linkAt_of_file hk) hr
    rw [Reached.found.inj e]
  · rw [hroot, Path.join_pathOf_empty hne hloc] at hr
    exact absurd hr (FileSystem.reach_pathOf_slash hloc hne hk _)

/-! ### Another content -/

theorem canonicalRoot_congr (h : FileSystem.DifferOnlyAt place fs gs) (root : RawText) :
    canonicalRoot fs root = canonicalRoot gs root := by
  unfold canonicalRoot FileSystem.canonical
  rcases FileSystem.look_congr h true root with ⟨e, hf, hg⟩ | ⟨loc, t, u, hf, hg, -⟩
  · rw [hf, hg]
  · rw [hf, hg]
    rfl

/-- The listed files do not depend on what files hold. -/
theorem sources_congr (wf : fs.tree.WellFormed) (wg : gs.tree.WellFormed)
    (h : FileSystem.DifferOnlyAt place fs gs) (root : RawText) :
    sources fs root = sources gs root := by
  have hin : ∀ {follow : Bool} {loc : List RawText} {t u : FileTree},
      fs.look follow root = .ok (loc, t) → gs.look follow root = .ok (loc, u) →
      (∀ names, t.kindAt names = u.kindAt names) → sourcesIn t = sourcesIn u := by
    intro follow loc t u hf hg hk
    have ht := (wf.at? (FileSystem.look_eq_ok_iff.mp hf).2).1
    have hu := (wg.at? (FileSystem.look_eq_ok_iff.mp hg).2).1
    rw [Discovery.sourcesIn_eq, Discovery.sourcesIn_eq, Discovery.placesIn_congr ht hu hk]
  unfold sources Discovery.sourcesAt
  rcases FileSystem.look_congr h false root with ⟨e, hf, hg⟩ | ⟨loc, t, u, hf, hg, hk⟩
  · rw [hf, hg]
  · have hkind : t.kind = u.kind := by simpa [FileTree.kindAt] using hk []
    have hs := hin hf hg hk
    rw [hf, hg]
    cases t with
    | file => cases u <;> first | rfl | cases hkind
    | directory =>
        cases u with
        | file => cases hkind
        | link => cases hkind
        | directory => simp only [hs]
    | link =>
        cases u with
        | file => cases hkind
        | directory => cases hkind
        | link =>
            rcases FileSystem.look_congr h true root with
              ⟨e, hf', hg'⟩ | ⟨loc', t', u', hf', hg', hk'⟩
            · simp only [hf', hg']
            · simp only [hf', hg', Except.map, hin hf' hg' hk']

end Survey

end CodeSurvey
