import CodeSurvey.Proofs.Excludes
import CodeSurvey.Proofs.Globs
import CodeSurvey.Proofs.Reach
import CodeSurvey.Proofs.SourcePlaces
import Mathlib

/-! # Which files are discovered

Without patterns of its own a discovery excludes what the patterns that always apply exclude.
These are read as globs of what is below a directory and of what has an ending
(`usable_defaultExcludes_eq`), so what they spare can be said of the names in a path
(`spares_defaultExcludes_iff`).  Together with what the walk enters and keeps this tells which
files are discovered (`mem_discover_nil`). -/

namespace CodeSurvey

open CodeSurvey.Path (IsName)

namespace Path

/-! ### Beginnings and endings of paths -/

/-- What stands before the first slash is the first name. -/
theorem eq_of_append_slash {a b s t : List Char} (ha : '/' ∉ a) (hb : '/' ∉ b)
    (h : a ++ '/' :: s = b ++ '/' :: t) : a = b := by
  have ha' : ∀ c ∈ a, (c != '/') = true := fun c hc => bne_iff_ne.mpr fun e => ha (e ▸ hc)
  have hb' : ∀ c ∈ b, (c != '/') = true := fun c hc => bne_iff_ne.mpr fun e => hb (e ▸ hc)
  have e := congrArg (List.takeWhile (· != '/')) h
  rw [List.takeWhile_append_of_pos ha', List.takeWhile_append_of_pos hb'] at e
  simpa using e

/-- Texts with slashes between them begin with one of them and a slash if that is the first one
and others follow. -/
theorem isPrefix_intercalate_iff {d : String} (hd : '/' ∉ d.toList) {names : List String}
    (hn : ∀ n ∈ names, '/' ∉ n.toList) :
    d.toList ++ ['/'] <+: ("/".intercalate names).toList ↔ d ∈ names.dropLast.head? := by
  cases names with
  | nil => simp
  | cons n rest =>
      rw [List.forall_mem_cons] at hn
      cases rest with
      | nil =>
          rw [String.intercalate_singleton]
          simp only [List.dropLast_singleton, List.head?_nil, Option.mem_def, reduceCtorEq,
            iff_false]
          rintro ⟨t, ht⟩
          exact hn.1 (by simp [← ht])
      | cons m ms =>
          have e : ("/".intercalate (n :: m :: ms)).toList =
              n.toList ++ '/' :: ("/".intercalate (m :: ms)).toList := by
            rw [String.intercalate_cons_cons, String.toList_append, String.toList_append]
            simp
          rw [e, List.dropLast_cons_cons, List.head?_cons, Option.mem_def, Option.some.injEq]
          constructor
          · rintro ⟨t, ht⟩
            rw [List.append_assoc] at ht
            exact (String.toList_inj.mp (eq_of_append_slash hd hn.1 ht)).symm
          · rintro rfl
            exact ⟨_, by rw [List.append_assoc]; rfl⟩

/-- Texts with slashes between them have an ending without a slash if the last one has it. -/
theorem isSuffix_intercalate_iff {e : List Char} (he : '/' ∉ e) {front : List String} {n : String} :
    e <:+ ("/".intercalate (front ++ [n])).toList ↔ e <:+ n.toList := by
  by_cases hf : front = []
  · rw [hf, List.nil_append, String.intercalate_singleton]
  · have hp : ("/".intercalate (front ++ [n])).toList =
        ("/".intercalate front).toList ++ '/' :: n.toList := by
      rw [String.intercalate_append_of_ne_nil hf (by simp), String.intercalate_singleton,
        String.toList_append, String.toList_append]
      simp
    rw [hp]
    have hs : n.toList <:+ ("/".intercalate front).toList ++ '/' :: n.toList :=
      (List.suffix_cons '/' n.toList).trans (List.suffix_append _ _)
    constructor
    · intro h
      by_cases hle : e.length ≤ n.toList.length
      · exact List.suffix_of_suffix_length_le h hs hle
      · have hs' : '/' :: n.toList <:+ ("/".intercalate front).toList ++ '/' :: n.toList :=
          List.suffix_append _ _
        have hsub := List.suffix_of_suffix_length_le hs' h (by simp at hle ⊢; omega)
        exact absurd (hsub.subset List.mem_cons_self) he
    · exact fun h => h.trans hs

/-! ### Extensions -/

/-- A name that does not begin with a dot has an extension if it ends with a dot and that. -/
theorem extensionOf_eq_iff {n : RawText} {e : String} (hn : ∀ rest, n ≠ "." ++ rest) (he : e ≠ "")
    (hdot : dot ∉ (RawText.ofText e).bytes) :
    extensionOf n = e ↔ ∃ stem : RawText, n = stem ++ "." ++ e := by
  have hd : ∀ b ∈ (RawText.ofText e).bytes.reverse, (b != dot) = true := by
    intro b hb
    exact bne_iff_ne.mpr fun h => hdot (by simpa [h] using hb)
  have hbytes : ∀ stem : RawText, (stem ++ "." ++ e : RawText).bytes =
      stem.bytes ++ dot :: (RawText.ofText e).bytes := by
    intro stem
    simp [bytes_dot]
  unfold extensionOf
  constructor
  · intro h
    simp only at h
    split at h
    next hlt =>
        have htext :
            (RawText.mk (n.bytes.reverse.takeWhile (· != dot)).reverse).text? = some e := by
          cases hx : (RawText.mk (n.bytes.reverse.takeWhile (· != dot)).reverse).text? with
          | none => rw [hx] at h; exact absurd h.symm he
          | some x => rw [hx] at h; exact congrArg some h
        have htail := congrArg RawText.bytes (RawText.text?_eq_some_iff.mp htext)
        have hsplit := List.takeWhile_append_dropWhile (p := (· != dot)) (l := n.bytes.reverse)
        cases hrest : n.bytes.reverse.dropWhile (· != dot) with
        | nil =>
            rw [hrest, List.append_nil] at hsplit
            rw [hsplit] at hlt
            omega
        | cons b rest =>
            have hb : b = dot := by
              have h := List.head_dropWhile_not (· != dot) (l := n.bytes.reverse) (by simp [hrest])
              simpa [hrest] using h
            have hall : n.bytes = (RawText.mk rest.reverse ++ "." ++ e : RawText).bytes := by
              rw [← List.reverse_inj, ← hsplit, hrest, hbytes, ← htail, hb]
              simp
            exact ⟨⟨rest.reverse⟩, congrArg RawText.mk hall⟩
    next => exact absurd h.symm he
  · rintro ⟨stem, rfl⟩
    have hstem : stem.bytes ≠ [] := by
      intro hs
      exact hn e (congrArg RawText.mk (by simp [hs]))
    have hrev : (stem ++ "." ++ e : RawText).bytes.reverse =
        (RawText.ofText e).bytes.reverse ++ dot :: stem.bytes.reverse := by
      rw [hbytes]
      simp
    have htext : (RawText.ofText e).text? = some e := RawText.text?_eq_some_iff.mpr rfl
    simp only [hrev]
    rw [List.takeWhile_append_of_pos hd]
    simp [hstem, htext]

end Path

namespace Discovery

/-! ### What is always excluded -/

/-- The directories at the top of a project that are always excluded. -/
def excludedDirectories : List String := ["node_modules", "dist", "build"]

/-- The endings of the names of files that are always excluded. -/
def excludedEndings : List String := [".test.ts", ".spec.ts", ".test.js", ".spec.js"]

theorem defaultExcludes_eq :
    defaultExcludes =
      excludedDirectories.map (· ++ "/**") ++ excludedEndings.map ("**/*" ++ ·) := by
  decide

theorem usable_map {f : String → String} {g : String → Glob} {xs : List String}
    (h : ∀ x ∈ xs, Glob.parse (f x) = .ok (g x)) : usable (xs.map f) = xs.map g := by
  rw [usable, List.filterMap_map, ← List.filterMap_eq_map]
  apply List.filterMap_congr
  intro x hx
  simp [h x hx, Except.toOption]

theorem usable_defaultExcludes_eq :
    usable defaultExcludes =
      excludedDirectories.map Glob.below ++ excludedEndings.map Glob.ending := by
  have hd : ∀ d ∈ excludedDirectories, ∀ c ∈ d.toList, Glob.IsPlain c := by
    simp [excludedDirectories, Glob.IsPlain]
  have he : ∀ e ∈ excludedEndings, ∀ c ∈ e.toList, Glob.IsPlain c := by
    simp [excludedEndings, Glob.IsPlain]
  rw [defaultExcludes_eq, usable_append, usable_map fun d hmem => Glob.parse_below (hd d hmem),
    usable_map fun e hmem => Glob.parse_ending (he e hmem)]

/-- What the patterns that always apply leave of texts with slashes between them. -/
theorem spares_defaultExcludes_iff {front : List String} {n : String}
    (hn : ∀ m ∈ front ++ [n], '/' ∉ m.toList) :
    spares defaultExcludes ("/".intercalate (front ++ [n])) = true ↔
      (∀ d ∈ front.head?, d ∉ excludedDirectories) ∧
      ∀ e ∈ excludedEndings, ¬ e.toList <:+ n.toList := by
  have hd : ∀ d ∈ excludedDirectories, '/' ∉ d.toList := by decide
  have he : ∀ e ∈ excludedEndings, '/' ∉ e.toList := by decide
  rw [spares, usable_defaultExcludes_eq, Bool.not_eq_true', List.any_eq_false]
  simp only [List.forall_mem_append, List.forall_mem_map, Glob.fits_below, Glob.fits_ending]
  constructor
  · rintro ⟨hbelow, hending⟩
    refine ⟨?_, ?_⟩
    · intro d hmem hx
      apply hbelow d hx
      rw [Path.isPrefix_intercalate_iff (hd d hx) hn, List.dropLast_concat]
      exact hmem
    · intro e hx hs
      exact hending e hx ((Path.isSuffix_intercalate_iff (he e hx)).mpr hs)
  · rintro ⟨hfirst, hlast⟩
    refine ⟨?_, ?_⟩
    · intro d hx hp
      rw [Path.isPrefix_intercalate_iff (hd d hx) hn, List.dropLast_concat] at hp
      exact hfirst d hp hx
    · intro e hx hs
      exact hlast e hx ((Path.isSuffix_intercalate_iff (he e hx)).mp hs)

/-! ### Which files are discovered -/

/-- The names that lead from the root of a project to a file that is discovered if no further
patterns are given. -/
structure IsListed (names : List RawText) : Prop where
  extension : ∃ stem : RawText, ∃ e ∈ ["js", "jsx", "ts", "tsx"],
    names.getLast? = some (stem ++ "." ++ e)
  visible : ∀ n ∈ names, ∀ rest, n ≠ "." ++ rest
  noPackage : ("node_modules" : RawText) ∉ names.dropLast
  noOutput : ∀ d ∈ names.dropLast.head?, d ≠ "dist" ∧ d ≠ "build"
  noTest : ∀ stem : RawText, ∀ e ∈ [".test.ts", ".spec.ts", ".test.js", ".spec.js"],
    names.getLast? ≠ some (stem ++ e)

theorem isHidden_eq_false_iff {n : RawText} : isHidden n = false ↔ ∀ rest, n ≠ "." ++ rest := by
  have hhead : isHidden n = true ↔ (RawText.chars n.bytes).head? = some '.' := by
    rw [isHidden, String.startsWith_string_iff, RawText.toList_shown]
    cases RawText.chars n.bytes <;> simp [eq_comm]
  have hdot : String.utf8EncodeChar '.' = ("." : RawText).bytes := rfl
  rw [← Bool.not_eq_true, hhead, RawText.head?_chars_eq_iff (by decide), hdot]
  constructor
  · rintro h rest rfl
    exact h (List.prefix_append _ _)
  · rintro h ⟨rest, hr⟩
    exact h ⟨rest⟩ (congrArg RawText.mk hr.symm)

theorem isSkipped_eq_false_iff {n : RawText} : isSkipped n = false ↔ n ≠ "node_modules" := by
  have hx : '\uFFFD' ∉ "node_modules".toList := by decide
  rw [← Bool.not_eq_true, isSkipped, List.contains_iff_mem, skippedDirectories,
    List.mem_singleton, RawText.shown_eq_iff hx]

theorem isSource_iff_of_visible {n : RawText} (hn : IsName n) (hv : ∀ rest, n ≠ "." ++ rest) :
    isSource n = true ↔
      ∃ stem : RawText, ∃ e ∈ ["js", "jsx", "ts", "tsx"], n = stem ++ "." ++ e := by
  have he : ∀ e ∈ ["js", "jsx", "ts", "tsx"], e ≠ "" ∧ Path.dot ∉ (RawText.ofText e).bytes := by
    decide
  rw [isSource, Path.fileExtension_name hn, List.contains_iff_mem]
  constructor
  · intro h
    obtain ⟨stem, hs⟩ := (Path.extensionOf_eq_iff hv (he _ h).1 (he _ h).2).mp rfl
    exact ⟨stem, _, h, hs⟩
  · rintro ⟨stem, e, h, hs⟩
    rw [(Path.extensionOf_eq_iff hv (he e h).1 (he e h).2).mpr ⟨stem, hs⟩]
    exact h

/-- The endings that are excluded are told by the bytes of a name. -/
theorem isSuffix_shown_iff {e : String} (he : e ∈ excludedEndings) (n : RawText) :
    e.toList <:+ n.shown.toList ↔ ∃ stem : RawText, n = stem ++ e := by
  have hascii : ∀ e ∈ excludedEndings, ∃ cs, e.toList = '.' :: cs ∧ '\uFFFD' ∉ cs := by
    simp [excludedEndings]
  obtain ⟨cs, hcs, hx⟩ := hascii e he
  rw [RawText.toList_shown, hcs, RawText.isSuffix_chars_iff (by decide) hx, ← hcs,
    ← RawText.bytes_ofText]
  constructor
  · rintro ⟨w, hw⟩
    exact ⟨⟨w⟩, congrArg RawText.mk hw.symm⟩
  · rintro ⟨stem, rfl⟩
    exact List.suffix_append _ _

theorem shown_mem_excludedDirectories_iff {d : RawText} :
    d.shown ∈ excludedDirectories ↔ d = "node_modules" ∨ d = "dist" ∨ d = "build" := by
  have hx : ∀ x ∈ excludedDirectories, '\uFFFD' ∉ x.toList := by decide
  simp only [excludedDirectories, List.forall_mem_cons] at hx
  simp only [excludedDirectories, List.mem_cons, List.not_mem_nil, or_false,
    RawText.shown_eq_iff hx.1, RawText.shown_eq_iff hx.2.1, RawText.shown_eq_iff hx.2.2.1]

/-- These are the source places that the patterns spare that always apply. -/
theorem isListed_iff {names : List RawText} (hn : ∀ n ∈ names, IsName n) :
    IsListed names ↔
      IsSourcePlace names ∧
        spares defaultExcludes (Path.normalize (Path.ofNames names)) = true := by
  rw [Path.normalize_ofNames hn]
  rcases List.eq_nil_or_concat' names with rfl | ⟨front, n, rfl⟩
  · constructor
    · rintro ⟨⟨stem, e, -, h⟩, -⟩
      cases h
    · rintro ⟨h, -⟩
      exact absurd h not_isSourcePlace_nil
  · have hlast : IsName n := hn n (by simp)
    have hslash : ∀ m ∈ front.map RawText.shown ++ [n.shown], '/' ∉ m.toList := by
      intro m hm
      rw [← List.map_singleton (f := RawText.shown), ← List.map_append] at hm
      obtain ⟨k, hk, rfl⟩ := List.mem_map.mp hm
      exact Path.slash_not_mem_shown (hn k hk).2.2.2
    rw [List.map_append, List.map_singleton, spares_defaultExcludes_iff hslash, List.head?_map]
    constructor
    · rintro ⟨⟨stem, e, he, hs⟩, hv, hp, ho, ht⟩
      rw [List.getLast?_concat, Option.some.injEq] at hs
      rw [List.dropLast_concat] at hp ho
      have hvn := hv n (by simp)
      refine ⟨⟨⟨n, List.getLast?_concat, ?_⟩, ?_, ?_⟩, ?_, ?_⟩
      · exact (isSource_iff_of_visible hlast hvn).mpr ⟨stem, e, he, hs⟩
      · exact fun m hm => isHidden_eq_false_iff.mpr (hv m hm)
      · rw [List.dropLast_concat]
        exact fun m hm => isSkipped_eq_false_iff.mpr fun e => hp (e ▸ hm)
      · intro d hd hx
        obtain ⟨m, hm, rfl⟩ := Option.map_eq_some_iff.mp hd
        rcases shown_mem_excludedDirectories_iff.mp hx with rfl | rfl | rfl
        · exact hp (List.mem_of_mem_head? hm)
        · exact (ho _ hm).1 rfl
        · exact (ho _ hm).2 rfl
      · intro e he hs
        obtain ⟨stem, rfl⟩ := (isSuffix_shown_iff he n).mp hs
        exact ht stem e he List.getLast?_concat
    · rintro ⟨⟨⟨m, hm, hs⟩, hv, he⟩, ho, ht⟩
      rw [List.getLast?_concat, Option.some.injEq] at hm
      subst hm
      rw [List.dropLast_concat] at he
      have hvn := isHidden_eq_false_iff.mp (hv n (by simp))
      obtain ⟨stem, e, hmem, hse⟩ := (isSource_iff_of_visible hlast hvn).mp hs
      refine ⟨⟨stem, e, hmem, by rw [List.getLast?_concat, hse]⟩, ?_, ?_, ?_, ?_⟩
      · exact fun m hm => isHidden_eq_false_iff.mp (hv m hm)
      · rw [List.dropLast_concat]
        exact fun h => isSkipped_eq_false_iff.mp (he _ h) rfl
      · rw [List.dropLast_concat]
        intro d hd
        have hx := ho d.shown (Option.map_eq_some_iff.mpr ⟨d, hd, rfl⟩)
        rw [shown_mem_excludedDirectories_iff, not_or, not_or] at hx
        exact hx.2
      · intro stem e hmem h
        rw [List.getLast?_concat, Option.some.injEq] at h
        exact ht e hmem ((isSuffix_shown_iff hmem n).mpr ⟨stem, h⟩)

/-- The root of a project may be given by a link, and what is found is below what that leads to. -/
theorem sources_of_look {fs : FileSystem} {root : RawText} {loc : List RawText}
    {es : List (RawText × FileTree)} (h : fs.look true root = .ok (loc, .directory es)) :
    sources fs root = sourcesIn (.directory es) := by
  unfold sources sourcesAt
  rcases FileSystem.look_false_of_true h with hf | ⟨l, target, hf⟩
  · simp only [hf]
    rfl
  · simp only [hf, h]
    rfl

/-- A discovery without further patterns finds the files below the root, not through links, to
which listed names lead; and that depends on nothing but the directory to which the root leads,
not on the name of the root. -/
theorem mem_discover_nil [Glob.Compiler] (fs : FileSystem) (root : RawText)
    (wf : fs.tree.WellFormed) {loc : List RawText} {es : List (RawText × FileTree)}
    (hroot : fs.look true root = .ok (loc, .directory es)) :
    (∀ path, path ∈ (discover fs root []).value ↔ ∃ names, path = Path.ofNames names ∧
      fs.tree.kindAt (loc ++ names) = some .file ∧ IsListed names) ∧
    ∀ gs other place, FileSystem.look gs true other = .ok (place, .directory es) →
      (discover gs other []).value = (discover fs root []).value := by
  have hvalue : ∀ {gs other place}, FileSystem.look gs true other = .ok (place, .directory es) →
      (discover gs other []).value =
        (sourcesIn (.directory es)).filter fun path =>
          spares (defaultExcludes ++ []) (Path.normalize path) := by
    intro gs other place h
    rw [value_discover_of_compiles gs other compiles_nil, sources_of_look h]
  refine ⟨?_, fun gs other place h => (hvalue h).trans (hvalue hroot).symm⟩
  intro path
  have ht := (FileSystem.look_eq_ok_iff.mp hroot).2
  have hw := (wf.at? ht).1
  rw [hvalue hroot, List.append_nil, List.mem_filter, sourcesIn_eq, List.mem_map]
  constructor
  · rintro ⟨⟨names, hmem, rfl⟩, hs⟩
    obtain ⟨hk, hp⟩ := (mem_placesIn hw).mp hmem
    refine ⟨names, rfl, (FileTree.kindAt_append ht names).trans hk, ?_⟩
    exact (isListed_iff (isName_of_mem_placesIn hw hmem)).mpr ⟨hp, hs⟩
  · rintro ⟨names, rfl, hk, hl⟩
    rw [FileTree.kindAt_append ht] at hk
    obtain ⟨content, hc⟩ := FileTree.kindAt_eq_file_iff.mp hk
    obtain ⟨hp, hs⟩ := (isListed_iff (hw.at? hc).2).mp hl
    exact ⟨⟨names, (mem_placesIn hw).mpr ⟨hk, hp⟩, rfl⟩, hs⟩

/-- What lies in a project: a source file, a test, a link and some output. -/
def projectEntries : List (RawText × FileTree) :=
  [("src", .directory [("a.ts", .file ⟨#[]⟩), ("a.test.ts", .file ⟨#[]⟩), ("b.ts", .link "a.ts")]),
    ("dist", .directory [("c.js", .file ⟨#[]⟩)])]

/-- A project in a hidden directory, to which a link leads. -/
def linkedProject : FileSystem where
  tree := .directory [("app", .link ".work/dist"),
    (".work", .directory [("dist", .directory projectEntries)])]
  here := []

theorem wellFormed_linkedProject : linkedProject.tree.WellFormed := by
  have src : (FileTree.directory [("a.ts", .file ⟨#[]⟩), ("a.test.ts", .file ⟨#[]⟩),
      ("b.ts", .link "a.ts")]).WellFormed :=
    .directory (by decide) (by decide)
      (by simp [FileTree.WellFormed.file, FileTree.WellFormed.link])
  have dist : (FileTree.directory [("c.js", .file ⟨#[]⟩)]).WellFormed :=
    .directory (by decide) (by decide) (by simp [FileTree.WellFormed.file])
  have project : (FileTree.directory projectEntries).WellFormed :=
    .directory (by decide) (by decide) (by simp [projectEntries, src, dist])
  have work : (FileTree.directory [("dist", .directory projectEntries)]).WellFormed :=
    .directory (by decide) (by decide) (by simp [project])
  exact .directory (by decide) (by decide) (by simp [work, FileTree.WellFormed.link])

/-- The source file of this project is found, and nothing changes if the project is not named by
the link. -/
theorem mem_discover_linkedProject :
    ("src/a.ts" : RawText) ∈ (discover linkedProject "app" []).value ∧
    (discover linkedProject "/.work/dist" []).value = (discover linkedProject "app" []).value := by
  have happ :
      linkedProject.look true "app" = .ok ([".work", "dist"], .directory projectEntries) := by
    cbv
  have hwork : linkedProject.look true "/.work/dist" =
      .ok ([".work", "dist"], .directory projectEntries) := by cbv
  obtain ⟨hmem, hname⟩ := mem_discover_nil linkedProject "app" wellFormed_linkedProject happ
  have visible : ∀ n ∈ (["src", "a.ts"] : List RawText), isHidden n = false := by
    rw [List.forall_mem_cons, List.forall_mem_singleton]
    exact ⟨by cbv, by cbv⟩
  have listed : IsListed ["src", "a.ts"] := by
    refine (isListed_iff (by decide)).mpr ⟨⟨⟨"a.ts", rfl, by cbv⟩, visible, by decide⟩, ?_⟩
    cbv
  exact ⟨(hmem _).mpr ⟨["src", "a.ts"], by decide, by cbv, listed⟩, hname _ _ _ hwork⟩

end Discovery
end CodeSurvey
