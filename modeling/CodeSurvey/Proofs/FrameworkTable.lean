import CodeSurvey.Proofs.Descriptions
import CodeSurvey.Proofs.Frameworks
import CodeSurvey.Report.Summary

/-! # The table of frameworks

The columns of the table are kept apart only by the blanks that fill up narrow entries.

* An entry that is narrower than its column is a word of its own (`words_fill`).  So are names and
  categories (`words_row`), for the known ones are narrow.
* Half of a hundred begins with a blank, hence it is a word as well (`isReadable_of_half`), and so
  is a hundred behind a narrow version (`isReadable_of_lt`).
* Nothing comes between a wide version and a hundred, and then the two are one word
  (`words_row_of_one`).

A row is one line (`not_mem_row`), so this holds of the lines of the table (`readable_rows`). -/

namespace CodeSurvey.Report

/-! ### Words -/

/-- The words of a text: its longest parts without blanks. -/
def words (cs : List Char) : List (List Char) :=
  (cs.splitOnP Text.isBlank).filter (· ≠ [])

/-- Whether a text is a word. -/
structure IsWord (cs : List Char) : Prop where
  ne_nil : cs ≠ []
  not_blank : ∀ c ∈ cs, Text.isBlank c = false

theorem isWord_iff {cs : List Char} :
    IsWord cs ↔ (!cs.isEmpty && cs.all fun c => !Text.isBlank c) = true := by
  constructor
  · rintro ⟨hne, hblank⟩
    simpa [hne] using hblank
  · intro h
    rw [Bool.and_eq_true, List.all_eq_true] at h
    exact ⟨by simpa using h.1, fun c hc => by simpa using h.2 c hc⟩

theorem words_append_blank {c : Char} (hc : Text.isBlank c = true) (cs rest : List Char) :
    words (cs ++ c :: rest) = words cs ++ words rest := by
  rw [words, List.splitOnP_append_cons cs rest hc, List.filter_append]
  rfl

theorem words_cons_blank {c : Char} (hc : Text.isBlank c = true) (rest : List Char) :
    words (c :: rest) = words rest := by
  simpa [words] using words_append_blank hc [] rest

theorem IsWord.words_eq {cs : List Char} (h : IsWord cs) : words cs = [cs] := by
  rw [words, List.splitOnP_eq_singleton h.not_blank]
  simp [h.ne_nil]

theorem IsWord.append {cs cs' : List Char} (h : IsWord cs) (h' : IsWord cs') :
    IsWord (cs ++ cs') := by
  refine ⟨fun hnil => h.ne_nil (List.append_eq_nil_iff.mp hnil).1, ?_⟩
  rw [List.forall_mem_append]
  exact ⟨h.not_blank, h'.not_blank⟩

theorem words_blanks (n : Nat) (rest : List Char) :
    words (List.replicate n ' ' ++ rest) = words rest := by
  induction n with
  | zero => rfl
  | succ n ih => rw [List.replicate_succ, List.cons_append, words_cons_blank (by decide), ih]

/-- An entry that is narrower than its column is a word of its own. -/
theorem words_fill {cs : List Char} (h : IsWord cs) {width : Nat} (hw : cs.length < width)
    (rest : List Char) : words (Piece.fill width cs ++ rest) = cs :: words rest := by
  obtain ⟨n, hn⟩ : ∃ n, width - cs.length = n + 1 := ⟨width - cs.length - 1, by omega⟩
  rw [Piece.fill, hn, List.replicate_succ, List.append_assoc, List.cons_append,
    words_append_blank (by decide), words_blanks, h.words_eq, List.singleton_append]

/-! ### Entries -/

/-- What the table shows as the version of a framework. -/
def versionEntry (f : DetectedFramework) : List Char := (f.version.getD "-").toList

theorem isWord_name {s : FrameworkSignature} (h : s ∈ FrameworkSignature.known) :
    IsWord s.name.toList ∧ s.name.toList.length < 14 := by
  have hknown : ∀ s ∈ FrameworkSignature.known,
      (!s.name.toList.isEmpty && s.name.toList.all fun c => !Text.isBlank c) = true ∧
        s.name.toList.length < 14 := by
    decide
  rw [isWord_iff]
  exact hknown s h

theorem isWord_category (k : FrameworkCategory) :
    IsWord k.word.toList ∧ k.word.toList.length < 10 := by
  rw [isWord_iff]
  cases k <;> decide

theorem not_isBlank_of_plain {c : Char} (h : (c.isDigit || c == '.') = true) :
    Text.isBlank c = false := by
  have hrange : ∀ n < 58, 46 ≤ n → Text.isBlank (Char.ofNat n) = false := by decide
  have hc : 46 ≤ c.toNat ∧ c.toNat < 58 := by
    rw [Bool.or_eq_true, beq_iff_eq] at h
    rcases h with h | rfl
    · have hdigit := Char.isDigit_iff_toNat.mp h
      have hzero : '0'.toNat = 48 := rfl
      have hnine : '9'.toNat = 57 := rfl
      omega
    · decide
  rw [← Char.ofNat_toNat c]
  exact hrange _ hc.2 hc.1

/-- A detected framework has an entry for its version that is a word. -/
theorem isWord_versionEntry {version? : String → Option String} {s : FrameworkSignature}
    {f : DetectedFramework} (h : s.IsRecord version? f) : IsWord (versionEntry f) := by
  rw [versionEntry]
  cases hv : f.version with
  | none => exact isWord_iff.mpr (by decide)
  | some plain =>
      obtain ⟨package, text, -, -, hplain⟩ := h.version
      obtain ⟨hne, hchars⟩ := (hplain plain).mp hv
      refine ⟨by simpa using hne, fun c hc => ?_⟩
      rw [Option.getD_some, hchars] at hc
      exact not_isBlank_of_plain (List.mem_filter.mp hc).2

/-! ### Rows -/

/-- The row of a framework, without the line break. -/
def row (f : DetectedFramework) : List Char := (frameworkLine f).flatMap (Piece.render false)

theorem row_eq (f : DetectedFramework) :
    row f = List.replicate 4 ' ' ++ (Piece.fill 14 f.name.toList ++
      (Piece.fill 10 f.category.word.toList ++
        (Piece.fill 10 (versionEntry f) ++ (percentage f.confidence).toList))) := by
  simp [row, frameworkLine, Piece.render, Piece.plain, Piece.styled, Piece.fill, versionEntry]

theorem percentage_half : (percentage (.ofRatio 1 2)).toList = ' ' :: "50%".toList := by
  decide +kernel

theorem percentage_one : (percentage (.ofRatio 1 1)).toList = "100%".toList := by
  decide +kernel

theorem value_half : (Binary64.ofRatio 1 2).value = 1 / 2 := by
  simpa using (Binary64.ofRatio_of_le_two (m := 1) (n := 2) (.inr rfl) (by decide)).2

theorem value_one : (Binary64.ofRatio 1 1).value = 1 := by
  simpa using (Binary64.ofRatio_of_le_two (m := 1) (n := 1) (.inl rfl) (by decide)).2

/-- Whether a text has the entries of a framework as its words. -/
def IsReadable (f : DetectedFramework) (cs : List Char) : Prop :=
  ∃ percent : Nat, (percent : ℚ) = 100 * f.confidence.value ∧
    words cs = [f.name.toList, f.category.word.toList, versionEntry f,
      (toString percent ++ "%").toList]

section rows

variable {d : Dependencies} {f : DetectedFramework}

/-- The entries of a detected framework are words, of which the first two are narrow. -/
theorem isWord_entries (hf : f ∈ detectFrameworks d) :
    (IsWord f.name.toList ∧ f.name.toList.length < 14) ∧ IsWord (versionEntry f) := by
  rw [detectFrameworks_eq, List.mem_map] at hf
  obtain ⟨s, hs, rfl⟩ := hf
  obtain ⟨hknown, hshown⟩ := mem_shown.mp hs
  exact ⟨isWord_name hknown, isWord_versionEntry (FrameworkSignature.isRecord_found hknown hshown)⟩

theorem words_row (hf : f ∈ detectFrameworks d) :
    words (row f) = f.name.toList :: f.category.word.toList ::
      words (Piece.fill 10 (versionEntry f) ++ (percentage f.confidence).toList) := by
  obtain ⟨⟨hname, hnarrow⟩, -⟩ := isWord_entries hf
  obtain ⟨hcategory, hnarrow'⟩ := isWord_category f.category
  rw [row_eq, words_blanks, words_fill hname hnarrow, words_fill hcategory hnarrow']

theorem words_row_of_lt (hf : f ∈ detectFrameworks d) (h : (versionEntry f).length < 10) :
    words (row f) = f.name.toList :: f.category.word.toList :: versionEntry f ::
      words (percentage f.confidence).toList := by
  rw [words_row hf, words_fill (isWord_entries hf).2 h]

theorem words_row_of_le (hf : f ∈ detectFrameworks d) (h : 10 ≤ (versionEntry f).length) :
    words (row f) = f.name.toList :: f.category.word.toList ::
      words (versionEntry f ++ (percentage f.confidence).toList) := by
  rw [words_row hf, Piece.fill, Nat.sub_eq_zero_of_le h, List.replicate_zero, List.append_nil]

theorem isReadable_of_half (hf : f ∈ detectFrameworks d) (h : f.confidence = .ofRatio 1 2) :
    IsReadable f (row f) := by
  have hhalf : IsWord "50%".toList := isWord_iff.mpr (by decide)
  refine ⟨50, by rw [h, value_half]; norm_num, ?_⟩
  change _ = [_, _, _, "50%".toList]
  rcases Nat.lt_or_ge (versionEntry f).length 10 with hlt | hle
  · rw [words_row_of_lt hf hlt, h, percentage_half, words_cons_blank (by decide), hhalf.words_eq]
  · rw [words_row_of_le hf hle, h, percentage_half, words_append_blank (by decide),
      (isWord_entries hf).2.words_eq, hhalf.words_eq, List.singleton_append]

theorem isReadable_of_lt (hf : f ∈ detectFrameworks d) (h : f.confidence = .ofRatio 1 1)
    (hlt : (versionEntry f).length < 10) : IsReadable f (row f) := by
  have hone : IsWord "100%".toList := isWord_iff.mpr (by decide)
  refine ⟨100, by rw [h, value_one]; norm_num, ?_⟩
  change _ = [_, _, _, "100%".toList]
  rw [words_row_of_lt hf hlt, h, percentage_one, hone.words_eq]

/-- The version and the percentage are one word if nothing fills up the one nor begins the other. -/
theorem words_row_of_one (hf : f ∈ detectFrameworks d) (h : f.confidence = .ofRatio 1 1)
    (hle : 10 ≤ (versionEntry f).length) : words (row f) =
      [f.name.toList, f.category.word.toList, versionEntry f ++ "100%".toList] := by
  have hone : IsWord "100%".toList := isWord_iff.mpr (by decide)
  rw [words_row_of_le hf hle, h, percentage_one, ((isWord_entries hf).2.append hone).words_eq]

theorem isReadable_row_iff (hf : f ∈ detectFrameworks d) :
    (IsReadable f (row f) ↔ (versionEntry f).length < 10 ∨ f.confidence.value < 1) ∧
    (¬ IsReadable f (row f) → words (row f) =
      [f.name.toList, f.category.word.toList, versionEntry f ++ "100%".toList]) := by
  rcases isSureOrHalf_of_mem_detectFrameworks hf with hhalf | hone
  · have hreadable := isReadable_of_half hf hhalf
    have hlt : f.confidence.value < 1 := by
      rw [hhalf, value_half]
      norm_num
    exact ⟨iff_of_true hreadable (.inr hlt), absurd hreadable⟩
  · rcases Nat.lt_or_ge (versionEntry f).length 10 with hlt | hle
    · have hreadable := isReadable_of_lt hf hone hlt
      exact ⟨iff_of_true hreadable (.inl hlt), absurd hreadable⟩
    · have hwords := words_row_of_one hf hone hle
      have hnot : ¬ IsReadable f (row f) := by
        rintro ⟨percent, -, hfour⟩
        have hlength := congrArg List.length (hwords.symm.trans hfour)
        simp at hlength
      refine ⟨iff_of_false hnot ?_, fun _ => hwords⟩
      rw [hone, value_one]
      exact not_or.mpr ⟨Nat.not_lt.mpr hle, lt_irrefl 1⟩

end rows

/-! ### The table -/

/-- The lines below the headline of the table, up to the empty one. -/
def shownRows (fs : List DetectedFramework) : List (List Char) :=
  (Text.lines ((frameworkLines fs).flatMap (Line.render false))).tail.dropLast

theorem IsWord.not_mem {cs : List Char} (h : IsWord cs) : '\n' ∉ cs := by
  intro hmem
  exact absurd (h.not_blank _ hmem) (by decide)

theorem not_mem_fill_break {cs : List Char} (h : '\n' ∉ cs) (width : Nat) :
    '\n' ∉ Piece.fill width cs := by
  simp [Piece.fill, h]

theorem not_mem_toDigits (n : Nat) : '\n' ∉ Nat.toDigits 10 n := by
  intro hmem
  have hdigit : '\n'.isDigit = true :=
    Nat.isDigit_of_mem_toDigits (by decide) (by decide) hmem
  exact absurd hdigit (by decide)

theorem not_mem_percentage (x : Binary64) : '\n' ∉ (percentage x).toList := by
  simp [percentage, not_mem_toDigits]

/-- A row is one line. -/
theorem not_mem_row {d : Dependencies} {f : DetectedFramework} (hf : f ∈ detectFrameworks d) :
    '\n' ∉ row f := by
  obtain ⟨⟨hname, -⟩, hversion⟩ := isWord_entries hf
  have hcategory := (isWord_category f.category).1
  simp [row_eq, not_mem_fill_break, hname.not_mem, hcategory.not_mem, hversion.not_mem,
    not_mem_percentage]

theorem not_mem_headline (title : String) (h : '\n' ∉ title.toList) (n : Nat) :
    '\n' ∉ (headline title n).flatMap (Piece.render false) := by
  simp [headline, Piece.render, Piece.plain, Piece.styled, Piece.fill, h, not_mem_toDigits]

theorem lines_render {ls : List Line}
    (h : ∀ l ∈ ls, '\n' ∉ l.flatMap (Piece.render false)) :
    Text.lines (ls.flatMap (Line.render false)) =
      ls.map fun l => l.flatMap (Piece.render false) := by
  induction ls with
  | nil => rw [List.flatMap_nil, Text.lines, List.map_nil]
  | cons l ls ih =>
      rw [List.forall_mem_cons] at h
      rw [List.flatMap_cons, Line.render, List.append_assoc, List.singleton_append,
        Text.lines_append h.1, ih h.2, List.map_cons]

theorem shownRows_eq (d : Dependencies) :
    shownRows (detectFrameworks d) = (detectFrameworks d).map row := by
  rw [shownRows, frameworkLines]
  split
  next h => rw [List.isEmpty_iff.mp h]; rfl
  next h =>
      have hlines : ∀ l ∈ headline "Frameworks" (detectFrameworks d).length ::
          (detectFrameworks d).map frameworkLine ++ [[]],
          '\n' ∉ l.flatMap (Piece.render false) := by
        simp only [List.cons_append, List.forall_mem_cons, List.forall_mem_append,
          List.forall_mem_map]
        exact ⟨not_mem_headline _ (by decide) _, fun f hf => not_mem_row hf, by simp⟩
      rw [lines_render hlines]
      simp [row]

/-- A row of the table has the entries of its framework as its words, unless the version has ten
characters or more and all packages of the framework are there; then the last two entries are one
word. -/
theorem readable_rows (d : Dependencies) :
    List.Forall₂ (fun f cs =>
        (IsReadable f cs ↔ (versionEntry f).length < 10 ∨ f.confidence.value < 1) ∧
        (¬ IsReadable f cs → words cs =
          [f.name.toList, f.category.word.toList, versionEntry f ++ "100%".toList]))
      (detectFrameworks d) (shownRows (detectFrameworks d)) := by
  rw [shownRows_eq, List.forall₂_map_right_iff, List.forall₂_same]
  exact fun f hf => isReadable_row_iff hf

/-- A package for development with the version of a nightly build. -/
def nightlyDependencies : Dependencies where
  production := .empty
  development := .ofList [("typescript", "5.4.0-dev.20240115")]
  peer := .empty

example : (shownRows (detectFrameworks nightlyDependencies)).map words =
    [["typescript".toList, "utility".toList, "5.4.0.20240115100%".toList]] := by
  decide +kernel

end CodeSurvey.Report
