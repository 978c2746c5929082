import CodeSurvey.Files.System
import CodeSurvey.Proofs.RawTexts
import Mathlib.Data.List.Basic

/-! # Paths of names

A name stands for an entry of a directory: it is not empty, it holds no slash, and it is
neither of the two dots that stand for a directory itself (`Path.IsName`).  The path of a
place in a file tree joins names by slashes, and nothing of them is lost in that:

* `components_ofNames`: a relative path of names says exactly these names, and its normal form
  shows them one by one (`normalize_ofNames`);
* `join_pathOf`: a path of names below the path of a place is the path of the longer place;
* `ofPath_pathOf`: the path of a place is followed by entering the names one by one.

What is shown of a path of names shows the names, with slashes between them (`shown_ofNames`). -/

namespace CodeSurvey

open FileSystem (pathOf)

namespace Path

/-- Whether a raw text can be the name of an entry. -/
def IsName (n : RawText) : Prop := n ≠ "" ∧ n ≠ "." ∧ n ≠ ".." ∧ slash ∉ n.bytes

instance (n : RawText) : Decidable (IsName n) :=
  inferInstanceAs (Decidable (n ≠ "" ∧ n ≠ "." ∧ n ≠ ".." ∧ slash ∉ n.bytes))

theorem bytes_empty : ("" : RawText).bytes = [] := rfl

theorem bytes_slash : ("/" : RawText).bytes = [slash] := rfl

theorem bytes_dot : ("." : RawText).bytes = [dot] := rfl

/-- The bytes of a name are those of none of the three. -/
theorem IsName.bytes_ne {n : RawText} (h : IsName n) :
    n.bytes ≠ [] ∧ n.bytes ≠ [dot] ∧ n.bytes ≠ [dot, dot] :=
  ⟨fun e => h.1 (congrArg RawText.mk e), fun e => h.2.1 (congrArg RawText.mk e),
    fun e => h.2.2.1 (congrArg RawText.mk e)⟩

theorem IsName.of_bytes_ne {bs : List UInt8} (h : bs ≠ []) (h' : bs ≠ [dot]) (h'' : bs ≠ [dot, dot])
    (hs : slash ∉ bs) : IsName ⟨bs⟩ :=
  ⟨fun e => h (congrArg RawText.bytes e), fun e => h' (congrArg RawText.bytes e),
    fun e => h'' (congrArg RawText.bytes e), hs⟩

/-! ### Segments -/

theorem segments_eq_splitOn (bs : List UInt8) : segments bs = bs.splitOn slash := by
  induction bs with
  | nil => rfl
  | cons b rest ih =>
      rw [segments, List.splitOn_cons_eq_if_modifyHead, ih]
      by_cases hb : b = slash
      · simp [hb]
      · have hne := List.splitOn_ne_nil slash rest
        cases hs : rest.splitOn slash with
        | nil => exact absurd hs hne
        | cons s more => simp [hb]

theorem segments_cons_slash (bs : List UInt8) : segments (slash :: bs) = [] :: segments bs := by
  simp [segments]

theorem segments_ne_nil (bs : List UInt8) : segments bs ≠ [] := by
  rw [segments_eq_splitOn]
  exact List.splitOn_ne_nil slash bs

/-- Between slashes there is no slash. -/
theorem not_mem_segments {bs seg : List UInt8} (h : seg ∈ segments bs) : slash ∉ seg := by
  induction bs generalizing seg with
  | nil => simp_all [segments]
  | cons b rest ih =>
      rw [segments] at h
      split at h
      next =>
          rcases List.mem_cons.mp h with rfl | h
          · exact List.not_mem_nil
          · exact ih h
      next hb =>
          cases hs : segments rest with
          | nil =>
              rw [hs] at h
              rw [List.mem_singleton.mp h, List.mem_singleton]
              exact Ne.symm hb
          | cons s more =>
              rw [hs] at h ih
              rcases List.mem_cons.mp h with rfl | h
              · rw [List.mem_cons, not_or]
                exact ⟨Ne.symm hb, ih List.mem_cons_self⟩
              · exact ih (List.mem_cons_of_mem s h)

theorem bytes_ofNames (names : List RawText) :
    (ofNames names).bytes = [slash].intercalate (names.map RawText.bytes) := rfl

/-- The names of a path are what stands between its slashes. -/
theorem segments_ofNames {names : List RawText} (hne : names ≠ []) (hn : ∀ n ∈ names, IsName n) :
    segments (ofNames names).bytes = names.map RawText.bytes := by
  rw [segments_eq_splitOn, bytes_ofNames, List.splitOn_intercalate]
  · intro bs hbs
    obtain ⟨n, hmem, rfl⟩ := List.mem_map.mp hbs
    exact (hn n hmem).2.2.2
  · simpa using hne

theorem intercalate_append {s : List UInt8} {xs ys : List (List UInt8)} (hx : xs ≠ [])
    (hy : ys ≠ []) : s.intercalate (xs ++ ys) = s.intercalate xs ++ s ++ s.intercalate ys := by
  induction xs with
  | nil => exact absurd rfl hx
  | cons x rest ih =>
      cases rest with
      | nil =>
          obtain ⟨y, ys, rfl⟩ := List.exists_cons_of_ne_nil hy
          simp [List.intercalate_cons_cons]
      | cons x' rest =>
          have e := ih (by simp)
          simp only [List.cons_append] at e ⊢
          rw [List.intercalate_cons_cons, e, List.intercalate_cons_cons]
          simp

theorem ofNames_append {ms ns : List RawText} (hm : ms ≠ []) (hn : ns ≠ []) :
    ofNames (ms ++ ns) = ofNames ms ++ "/" ++ ofNames ns := by
  have e : (ofNames (ms ++ ns)).bytes = (ofNames ms ++ "/" ++ ofNames ns).bytes := by
    rw [bytes_ofNames, List.map_append, intercalate_append (by simpa using hm) (by simpa using hn)]
    rfl
  exact congrArg RawText.mk e

theorem ofNames_singleton (n : RawText) : ofNames [n] = n := by
  have e : (ofNames [n]).bytes = n.bytes := by
    rw [bytes_ofNames, List.map_singleton, List.intercalate_singleton]
  exact congrArg RawText.mk e

theorem ofNames_cons {names : List RawText} (n : RawText) (h : names ≠ []) :
    ofNames (n :: names) = n ++ "/" ++ ofNames names := by
  rw [← List.singleton_append, ofNames_append (List.cons_ne_nil n []) h, ofNames_singleton]

/-- A slash at the end adds an empty segment. -/
theorem segments_ofNames_slash {names : List RawText} (hne : names ≠ [])
    (hn : ∀ n ∈ names, IsName n) :
    segments (ofNames names ++ "/").bytes = names.map RawText.bytes ++ [[]] := by
  have e : (ofNames names ++ "/").bytes =
      [slash].intercalate (names.map RawText.bytes ++ [[]]) := by
    rw [intercalate_append (by simpa using hne) (List.cons_ne_nil _ _), List.intercalate_singleton,
      List.append_nil]
    rfl
  rw [e, segments_eq_splitOn, List.splitOn_intercalate]
  · intro bs hbs
    rw [List.mem_append, List.mem_map] at hbs
    rcases hbs with ⟨n, hmem, rfl⟩ | hbs
    · exact (hn n hmem).2.2.2
    · rw [List.mem_singleton.mp hbs]
      exact List.not_mem_nil
  · simp

/-! ### Components -/

theorem component?_bytes {n : RawText} (h : IsName n) : component? n.bytes = some (.normal n) := by
  obtain ⟨h₁, h₂, h₃⟩ := h.bytes_ne
  rw [component?, if_neg (by simp [h₁, h₂]), if_neg h₃]

theorem filterMap_component? {names : List RawText} (hn : ∀ n ∈ names, IsName n) :
    (names.map RawText.bytes).filterMap component? = names.map .normal := by
  induction names with
  | nil => rfl
  | cons n rest ih =>
      rw [List.map_cons, List.filterMap_cons, component?_bytes (hn n (by simp))]
      simp [ih fun m hm => hn m (by simp [hm])]

theorem start?_of_ne {s : List UInt8} {rest : List (List UInt8)} (h : s ≠ []) (h' : s ≠ [dot]) :
    start? (s :: rest) = none := by
  unfold start?
  split
  next e => exact absurd (List.cons.inj e).1 h
  next e => rw [← (List.cons.inj e).1, if_neg h']
  next => rfl

theorem components_ofNames {names : List RawText} (hn : ∀ n ∈ names, IsName n) :
    components (ofNames names) = names.map .normal := by
  by_cases hne : names = []
  · subst hne
    rfl
  · obtain ⟨n, rest, rfl⟩ := List.exists_cons_of_ne_nil hne
    obtain ⟨h₁, h₂, -⟩ := (hn n (by simp)).bytes_ne
    rw [components, segments_ofNames hne hn, filterMap_component? hn, List.map_cons,
      start?_of_ne h₁ h₂]
    rfl

/-- The normal form of a path of names shows the names. -/
theorem normalize_ofNames {names : List RawText} (hn : ∀ n ∈ names, IsName n) :
    normalize (ofNames names) = "/".intercalate (names.map RawText.shown) := by
  rw [normalize, components_ofNames hn, List.map_map]
  rfl

theorem components_slash_append (path : RawText) :
    components ("/" ++ path) = .root :: (segments path.bytes).filterMap component? := by
  have e : ("/" ++ path : RawText).bytes = slash :: path.bytes := rfl
  obtain ⟨s, rest, hs⟩ := List.exists_cons_of_ne_nil (segments_ne_nil path.bytes)
  rw [components, e, segments_cons_slash, hs]
  rfl

theorem components_pathOf {names : List RawText} (hn : ∀ n ∈ names, IsName n) :
    components (pathOf names) = .root :: names.map .normal := by
  rw [pathOf, components_slash_append]
  by_cases hne : names = []
  · subst hne
    rfl
  · rw [segments_ofNames hne hn, filterMap_component? hn]

theorem append_assoc (s t u : RawText) : s ++ t ++ u = s ++ (t ++ u) :=
  congrArg RawText.mk (List.append_assoc s.bytes t.bytes u.bytes)

theorem components_pathOf_slash {names : List RawText} (hne : names ≠ [])
    (hn : ∀ n ∈ names, IsName n) :
    components (pathOf names ++ "/") = .root :: names.map .normal := by
  rw [pathOf, append_assoc, components_slash_append, segments_ofNames_slash hne hn,
    List.filterMap_append, filterMap_component? hn]
  simp [component?]

/-! ### Extensions -/

theorem fileExtension_of_getLast? {path n : RawText}
    (h : (components path).getLast? = some (.normal n)) : fileExtension path = extensionOf n := by
  simp [fileExtension, fileName?, h]

theorem fileExtension_name {n : RawText} (h : IsName n) : fileExtension n = extensionOf n := by
  have e : components (ofNames [n]) = [.normal n] := components_ofNames (by simpa using h)
  rw [ofNames_singleton] at e
  exact fileExtension_of_getLast? (by rw [e]; rfl)

/-- The extension of a path of names is that of the last name. -/
theorem fileExtension_pathOf {names : List RawText} {n : RawText}
    (hn : ∀ m ∈ names ++ [n], IsName m) :
    fileExtension (pathOf (names ++ [n])) = fileExtension n := by
  rw [fileExtension_name (hn n (by simp))]
  apply fileExtension_of_getLast?
  rw [components_pathOf hn]
  simp [List.getLast?_cons]

/-- A slash at the end makes no difference to the extension. -/
theorem fileExtension_pathOf_slash {names : List RawText} (hne : names ≠ [])
    (hn : ∀ n ∈ names, IsName n) :
    fileExtension (pathOf names ++ "/") = fileExtension (pathOf names) := by
  simp only [fileExtension, fileName?, components_pathOf hn, components_pathOf_slash hne hn]

/-! ### Joining -/

theorem pathOf_nil : pathOf [] = "/" := rfl

theorem isAbsolute_pathOf (names : List RawText) : isAbsolute (pathOf names) = true := rfl

theorem isAbsolute_ofNames {names : List RawText} (hn : ∀ n ∈ names, IsName n) :
    isAbsolute (ofNames names) = false := by
  cases names with
  | nil => rfl
  | cons n rest =>
      have hname := hn n (by simp)
      obtain ⟨b, bs, hb⟩ := List.exists_cons_of_ne_nil hname.bytes_ne.1
      have hslash : b ≠ slash := fun e => hname.2.2.2 (by simp [hb, e])
      have hhead : (ofNames (n :: rest)).bytes.head? = some b := by
        by_cases hr : rest = []
        · rw [hr, ofNames_singleton, hb]
          rfl
        · simp [ofNames_cons n hr, hb]
      rw [isAbsolute, hhead]
      simpa using hslash

theorem getLast?_pathOf {names : List RawText} (hne : names ≠ []) (hn : ∀ n ∈ names, IsName n) :
    (pathOf names).bytes.getLast? ≠ some slash := by
  obtain ⟨front, n, rfl⟩ := (List.eq_nil_or_concat' names).resolve_left hne
  have hname := hn n (by simp)
  obtain ⟨bs, b, hb⟩ := (List.eq_nil_or_concat' n.bytes).resolve_left hname.bytes_ne.1
  have hslash : b ≠ slash := fun e => hname.2.2.2 (by simp [hb, e])
  have hlast : (pathOf (front ++ [n])).bytes.getLast? = some b := by
    by_cases hf : front = []
    · simp [hf, pathOf, ofNames_singleton, hb, List.getLast?_cons]
    · simp [pathOf, ofNames_append hf (List.cons_ne_nil n []), ofNames_singleton, hb]
  rw [hlast]
  simpa using hslash

/-- A path of names below the path of a place is the path of the longer place. -/
theorem join_pathOf {place names : List RawText} (hne : names ≠ [])
    (hp : ∀ n ∈ place, IsName n) (hn : ∀ n ∈ names, IsName n) :
    join (pathOf place) (ofNames names) = pathOf (place ++ names) := by
  unfold join
  rw [isAbsolute_ofNames hn, if_neg Bool.false_ne_true]
  by_cases he : place = []
  · subst he
    rfl
  · have hempty : (pathOf place).bytes.isEmpty = false := rfl
    rw [hempty, Bool.false_or, if_neg (by simpa using getLast?_pathOf he hp), pathOf,
      append_assoc, append_assoc, ← append_assoc (ofNames place), ← ofNames_append he hne]
    rfl

/-- The empty path below the path of a place is that path with a slash at its end. -/
theorem join_pathOf_empty {place : List RawText} (he : place ≠ []) (hp : ∀ n ∈ place, IsName n) :
    join (pathOf place) "" = pathOf place ++ "/" := by
  have hempty : (pathOf place).bytes.isEmpty = false := rfl
  have habsolute : isAbsolute "" = false := rfl
  unfold join
  rw [habsolute, if_neg Bool.false_ne_true, hempty, Bool.false_or,
    if_neg (by simpa using getLast?_pathOf he hp)]
  exact congrArg RawText.mk (List.append_nil _)

/-- Different places of names have different paths. -/
theorem ofNames_inj {ms ns : List RawText} (hm : ∀ n ∈ ms, IsName n) (hn : ∀ n ∈ ns, IsName n)
    (h : ofNames ms = ofNames ns) : ms = ns := by
  have e := components_ofNames hm
  rw [h, components_ofNames hn] at e
  exact (List.map_injective_iff.mpr (fun _ _ h => Component.normal.inj h) e).symm

theorem pathOf_inj {ms ns : List RawText} (hm : ∀ n ∈ ms, IsName n) (hn : ∀ n ∈ ns, IsName n)
    (h : pathOf ms = pathOf ns) : ms = ns := by
  have e := components_pathOf hm
  rw [h, components_pathOf hn, List.cons.injEq] at e
  exact (List.map_injective_iff.mpr (fun _ _ h => Component.normal.inj h) e.2).symm

end Path

/-! ### Steps -/

namespace PathStep

open CodeSurvey.Path (IsName)

theorem ofSegment_name {n : RawText} (h : IsName n) : ofSegment n.bytes = .enter n := by
  obtain ⟨h₁, h₂, h₃⟩ := h.bytes_ne
  rw [ofSegment, if_neg (by simp [h₁, h₂]), if_neg h₃]

theorem map_ofSegment {names : List RawText} (hn : ∀ n ∈ names, IsName n) :
    (names.map RawText.bytes).map ofSegment = names.map .enter := by
  rw [List.map_map]
  exact List.map_congr_left fun n h => ofSegment_name (hn n h)

theorem filter_ne_nil {names : List RawText} (hn : ∀ n ∈ names, IsName n) :
    (names.map RawText.bytes).filter (· ≠ []) = names.map RawText.bytes := by
  rw [List.filter_eq_self, List.forall_mem_map]
  exact fun n h => by simpa using (hn n h).bytes_ne.1

/-- The path of a place is followed by entering its names. -/
theorem ofPath_pathOf {names : List RawText} (hne : names ≠ []) (hn : ∀ n ∈ names, IsName n) :
    ofPath (pathOf names) = names.map .enter := by
  have hs : Path.segments (pathOf names).bytes = [] :: names.map RawText.bytes := by
    rw [← Path.segments_ofNames hne hn]
    exact Path.segments_cons_slash _
  obtain ⟨front, n, rfl⟩ := (List.eq_nil_or_concat' names).resolve_left hne
  have hf := filter_ne_nil fun m hm => hn m (List.mem_append_left [n] hm)
  have hl : (front ++ [n]).map RawText.bytes = front.map RawText.bytes ++ [n.bytes] :=
    List.map_append
  rw [← map_ofSegment hn]
  simp only [ofPath, hs, hl]
  rw [← List.cons_append, List.dropLast_concat, List.getLast?_concat,
    List.filter_cons_of_neg (by simp), hf]
  rfl

/-- With a slash at its end it is to lead to a directory. -/
theorem ofPath_pathOf_slash {names : List RawText} (hne : names ≠ []) (hn : ∀ n ∈ names, IsName n) :
    ofPath (pathOf names ++ "/") = names.map .enter ++ [.stay] := by
  have hs : Path.segments (pathOf names ++ "/").bytes =
      [] :: names.map RawText.bytes ++ [[]] := by
    rw [List.cons_append, ← Path.segments_ofNames_slash hne hn]
    exact Path.segments_cons_slash _
  rw [← map_ofSegment hn]
  simp only [ofPath, hs]
  rw [List.dropLast_concat, List.getLast?_concat, List.filter_cons_of_neg (by simp),
    filter_ne_nil hn, List.map_append]
  rfl

/-- The names that are entered on a path are names. -/
theorem isName_of_mem_ofPath {path n : RawText} (h : enter n ∈ ofPath path) :
    Path.IsName n := by
  unfold ofPath at h
  obtain ⟨seg, hs, e⟩ := List.mem_map.mp h
  have hseg : seg ∈ Path.segments path.bytes := by
    rcases List.mem_append.mp hs with h | h
    · exact List.dropLast_subset _ (List.mem_of_mem_filter h)
    · exact List.mem_of_getLast? (Option.mem_toList.mp h)
  unfold ofSegment at e
  split at e
  next => cases e
  next h₁ =>
      split at e
      next => cases e
      next h₂ =>
          rw [not_or] at h₁
          cases e
          exact .of_bytes_ne h₁.1 h₁.2 h₂ (Path.not_mem_segments hseg)

theorem ofPath_slash : ofPath "/" = [.stay] := rfl

/-- There is no path without a step. -/
theorem ofPath_ne_nil (path : RawText) : ofPath path ≠ [] := by
  obtain ⟨front, n, e⟩ :=
    (List.eq_nil_or_concat' _).resolve_left (Path.segments_ne_nil path.bytes)
  simp [ofPath, e]

end PathStep

/-! ### What is shown -/

namespace Path

theorem startsAscii_slash (bs : List UInt8) : RawText.StartsAscii (slash :: bs) := by
  simp [RawText.StartsAscii, slash]

theorem chars_slash_cons (bs : List UInt8) :
    RawText.chars (slash :: bs) = '/' :: RawText.chars bs :=
  RawText.chars_encode_append '/' bs

/-- A slash stands between what is shown before it and behind it. -/
theorem shown_append_slash (s t : RawText) : (s ++ "/" ++ t).shown = s.shown ++ "/" ++ t.shown := by
  have e : (s ++ "/" ++ t).bytes = s.bytes ++ slash :: t.bytes := by
    simp [bytes_slash]
  rw [← String.toList_inj, RawText.toList_shown, e, RawText.chars_append (startsAscii_slash _),
    chars_slash_cons]
  simp [RawText.toList_shown]

/-- Nothing but a slash is shown as one. -/
theorem slash_not_mem_shown {n : RawText} (h : slash ∉ n.bytes) : '/' ∉ n.shown.toList := by
  intro hmem
  rw [RawText.toList_shown] at hmem
  obtain ⟨front, rest, hcs⟩ := List.append_of_mem hmem
  obtain ⟨as, ds, e, -⟩ := RawText.exists_of_chars_eq (by decide) hcs
  have hslash : String.utf8EncodeChar '/' = [slash] := rfl
  exact h (by simp [e, hslash])

theorem shown_ofNames (names : List RawText) :
    (ofNames names).shown = "/".intercalate (names.map RawText.shown) := by
  induction names with
  | nil => rfl
  | cons n rest ih =>
      by_cases hr : rest = []
      · rw [hr, ofNames_singleton, List.map_singleton, String.intercalate_singleton]
      · rw [ofNames_cons n hr, shown_append_slash, ih, List.map_cons,
          String.intercalate_cons_of_ne_nil (by simpa using hr)]

/-- A slash at the beginning is shown, and nothing else is shown as one. -/
theorem isAbsolute_iff_shown {path : RawText} :
    isAbsolute path ↔ path.shown.toList.head? = some '/' := by
  have hslash : String.utf8EncodeChar '/' = [slash] := rfl
  rw [RawText.toList_shown, RawText.head?_chars_eq_iff (by decide), hslash, isAbsolute,
    decide_eq_true_iff]
  cases path.bytes <;> simp [eq_comm]

theorem isAbsolute_congr {path path' : RawText} (h : path.shown = path'.shown) :
    isAbsolute path = isAbsolute path' := by
  rw [Bool.eq_iff_iff, isAbsolute_iff_shown, isAbsolute_iff_shown, h]

/-- What is shown of a path below another is told by what is shown of it. -/
theorem shown_join_congr (base : RawText) {path path' : RawText} (h : path.shown = path'.shown) :
    (join base path).shown = (join base path').shown := by
  unfold join
  rw [isAbsolute_congr h]
  split
  next => exact h
  next =>
      split
      next hb =>
          have hbase : base.bytes = [] ∨ ∃ bs, base.bytes = bs ++ [slash] := by
            simpa [List.getLast?_eq_some_iff] using hb
          rw [← String.toList_inj, RawText.toList_shown, RawText.toList_shown] at h ⊢
          rw [RawText.bytes_append, RawText.bytes_append]
          obtain hnil | ⟨bs, hbs⟩ := hbase
          · rw [hnil, List.nil_append, List.nil_append, h]
          · rw [hbs, List.append_assoc, List.append_assoc, List.singleton_append,
              List.singleton_append, RawText.chars_append (startsAscii_slash _),
              RawText.chars_append (startsAscii_slash _), chars_slash_cons, chars_slash_cons, h]
      next => rw [shown_append_slash, shown_append_slash, h]

end Path

end CodeSurvey
