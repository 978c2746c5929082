import CodeSurvey.Report.Summary
import Mathlib.Data.List.Basic

/-! # A summary without its colours

A terminal style sequence consists of an escape character, a bracket, parameters and the letter `m`.
`unstyled` takes all of them away from a text.

* `afterStyle?_opening`: what begins a style is such a sequence, whatever the style is, and so is
  what ends it;
* `Piece.unstyled_render`: so a piece without escape characters is left as it is without colours,
  with the blanks that fill it up; it makes no difference what follows it;
* `isBare_summaryLines`: no line of a summary has an escape character that is not in the texts that
  the summary shows;
* `unstyled_summary`: so the summary with colours is left as the summary without them. -/

namespace CodeSurvey.Report

/-! ### Style sequences -/

/-- Whether a character may stand in the parameters of a style sequence. -/
def isParameter (c : Char) : Bool := c.isDigit || c == ';'

/-- What follows the style sequence at the beginning of a text, if there is one. -/
def afterStyle? : List Char → Option (List Char)
  | '\x1b' :: '[' :: cs =>
    match cs.dropWhile isParameter with
    | 'm' :: rest => some rest
    | _ => none
  | _ => none

theorem length_afterStyle? {cs rest : List Char} (h : afterStyle? cs = some rest) :
    rest.length < cs.length := by
  unfold afterStyle? at h
  split at h
  next cs =>
      split at h
      next rest' hdrop =>
          obtain rfl := Option.some.inj h
          have hle := (List.dropWhile_sublist isParameter (l := cs)).length_le
          rw [hdrop] at hle
          simp only [List.length_cons] at hle ⊢
          omega
      next => cases h
  next => cases h

/-- A text without its style sequences. -/
def unstyled : List Char → List Char
  | [] => []
  | c :: cs =>
    if h : (afterStyle? (c :: cs)).isSome then unstyled ((afterStyle? (c :: cs)).get h)
    else c :: unstyled cs
termination_by cs => cs.length
decreasing_by
  · exact length_afterStyle? (Option.some_get h).symm
  · simp

theorem unstyled_of_afterStyle? {cs rest : List Char} (h : afterStyle? cs = some rest) :
    unstyled cs = unstyled rest := by
  cases cs with
  | nil => cases h
  | cons c cs =>
      rw [unstyled]
      simp [h]

theorem afterStyle?_of_ne {c : Char} (hc : c ≠ '\x1b') (cs : List Char) :
    afterStyle? (c :: cs) = none := by
  unfold afterStyle?
  split
  next h => exact absurd (List.cons.inj h).1 hc
  next => rfl

/-- Characters other than escapes are kept. -/
theorem unstyled_append {cs : List Char} (h : '\x1b' ∉ cs) (rest : List Char) :
    unstyled (cs ++ rest) = cs ++ unstyled rest := by
  induction cs with
  | nil => rfl
  | cons c cs ih =>
      rw [List.mem_cons, not_or] at h
      have hnone : ¬ (afterStyle? (c :: (cs ++ rest))).isSome = true := by
        simp [afterStyle?_of_ne (Ne.symm h.1)]
      rw [List.cons_append, List.cons_append, unstyled, dif_neg hnone, ih h.2]

/-! ### Styles -/

theorem afterStyle?_parameters {ps : List Char} (h : ∀ c ∈ ps, isParameter c = true)
    (rest : List Char) : afterStyle? ('\x1b' :: '[' :: (ps ++ 'm' :: rest)) = some rest := by
  have hm : isParameter 'm' = false := by decide
  have hdrop : (ps ++ 'm' :: rest).dropWhile isParameter = 'm' :: rest := by
    rw [List.dropWhile_append_of_pos h, List.dropWhile_cons_of_neg (by simp [hm])]
  simp only [afterStyle?, hdrop]

theorem isParameter_codes (s : Style) :
    ∀ c ∈ (";".intercalate s.codes).toList, isParameter c = true := by
  rw [← List.all_eq_true]
  obtain ⟨bold, dimmed, colour⟩ := s
  rcases bold <;> rcases dimmed <;> rcases colour with _ | _ | _ | _ | _ <;> decide

theorem afterStyle?_opening (s : Style) (rest : List Char) :
    afterStyle? (s.opening ++ rest) = some rest := by
  rw [Style.opening]
  simpa using afterStyle?_parameters (isParameter_codes s) rest

theorem afterStyle?_closing (rest : List Char) :
    afterStyle? (Style.closing ++ rest) = some rest := by
  have hzero : ∀ c ∈ ['0'], isParameter c = true := List.forall_mem_singleton.mpr (by decide)
  exact afterStyle?_parameters hzero rest

/-! ### Pieces and lines -/

/-- Whether there is no escape character in a text. -/
def IsBare (text : String) : Prop := '\x1b' ∉ text.toList

instance : DecidablePred IsBare := fun text =>
  inferInstanceAs (Decidable ('\x1b' ∉ text.toList))

namespace Piece

@[simp] theorem text_plain (text : String) : (plain text).text = text := rfl

@[simp] theorem text_styled (style : Style) (text : String) : (styled style text).text = text := rfl

theorem restyle_of_not_mem {cs : List Char} (h : '\x1b' ∉ cs) (opening : List Char) :
    restyle opening cs = cs := by
  induction cs with
  | nil => rw [restyle]
  | cons c cs ih =>
      rw [List.mem_cons, not_or] at h
      have hclosing : ¬ Style.closing.isPrefixOf (c :: cs) = true := by
        simp [Style.closing, List.isPrefixOf, h.1]
      rw [restyle, if_neg hclosing, ih h.2]

theorem not_mem_fill {cs : List Char} (h : '\x1b' ∉ cs) (width : Nat) :
    '\x1b' ∉ fill width cs := by
  simp [fill, h]

theorem not_mem_render {p : Piece} (h : IsBare p.text) : '\x1b' ∉ p.render false := by
  simpa [render] using not_mem_fill h p.width

/-- What is left of a piece with colours is the piece without them, whatever follows. -/
theorem unstyled_render {p : Piece} (h : IsBare p.text) (rest : List Char) :
    unstyled (p.render true ++ rest) = p.render false ++ unstyled rest := by
  have hfill := unstyled_append (not_mem_fill h p.width)
  have hplain : p.render false = fill p.width p.text.toList := by simp [render]
  rw [hplain, render]
  split
  next =>
      rw [restyle_of_not_mem h, List.append_assoc, List.append_assoc,
        unstyled_of_afterStyle? (afterStyle?_opening ..), hfill,
        unstyled_of_afterStyle? (afterStyle?_closing ..)]
  next => exact hfill rest

end Piece

namespace Line

/-- Whether there is no escape character in a line. -/
def IsBare (l : Line) : Prop := ∀ p ∈ l, Report.IsBare p.text

@[simp] theorem isBare_nil : IsBare [] := by
  rintro p ⟨⟩

@[simp] theorem isBare_cons {p : Piece} {l : Line} :
    IsBare (p :: l) ↔ Report.IsBare p.text ∧ l.IsBare := List.forall_mem_cons

theorem not_mem_render {l : Line} (h : l.IsBare) : '\x1b' ∉ l.render false := by
  intro hmem
  rw [render, List.mem_append, List.mem_flatMap] at hmem
  rcases hmem with ⟨p, hp, hmem⟩ | hmem
  · exact Piece.not_mem_render (h p hp) hmem
  · exact absurd hmem (by decide)

theorem unstyled_render {l : Line} (h : l.IsBare) (rest : List Char) :
    unstyled (l.render true ++ rest) = l.render false ++ unstyled rest := by
  rw [render, render, List.append_assoc, List.append_assoc,
    ← unstyled_append (show '\x1b' ∉ ['\n'] by decide)]
  induction l with
  | nil => rfl
  | cons p l ih =>
      rw [IsBare, List.forall_mem_cons] at h
      rw [List.flatMap_cons, List.flatMap_cons, List.append_assoc, List.append_assoc,
        Piece.unstyled_render h.1, ih h.2]

end Line

theorem unstyled_lines {ls : List Line} (h : ∀ l ∈ ls, l.IsBare) :
    unstyled (ls.flatMap (Line.render true)) = ls.flatMap (Line.render false) := by
  induction ls with
  | nil => rw [List.flatMap_nil, List.flatMap_nil, unstyled]
  | cons l ls ih =>
      rw [List.forall_mem_cons] at h
      rw [List.flatMap_cons, List.flatMap_cons, Line.unstyled_render h.1, ih h.2]

/-! ### Texts without some character -/

section texts

variable {c : Char}

theorem not_mem_repr (hc : c.isDigit = false) (n : Nat) : c ∉ n.repr.toList := by
  intro hmem
  have hdigit : c.isDigit = true :=
    Nat.isDigit_of_mem_toDigits (by decide) (by decide) (Nat.toList_repr ▸ hmem)
  rw [hc] at hdigit
  cases hdigit

theorem not_mem_intercalate {s : String} {ts : List String} (hs : c ∉ s.toList)
    (h : ∀ t ∈ ts, c ∉ t.toList) : c ∉ (s.intercalate ts).toList := by
  induction ts with
  | nil => exact List.not_mem_nil
  | cons t ts ih =>
      rw [List.forall_mem_cons] at h
      cases ts with
      | nil => simpa using h.1
      | cons u us =>
          rw [String.intercalate_cons_cons, String.toList_append, String.toList_append,
            List.mem_append, List.mem_append, not_or, not_or]
          exact ⟨⟨h.1, hs⟩, ih h.2⟩

theorem not_mem_plural {noun : String} (hc : c.isDigit = false) (hletters : c ∉ " es".toList)
    (h : c ∉ noun.toList) (n : Nat) : c ∉ (plural n noun).toList := by
  have hblank : c ∉ " ".toList := fun hmem => hletters (by simp_all)
  have hes : c ∉ "es".toList := fun hmem => hletters (List.mem_cons_of_mem _ hmem)
  have hs : c ∉ "s".toList := fun hmem => hes (List.mem_cons_of_mem _ hmem)
  rw [plural, String.toList_append, String.toList_append, List.mem_append, List.mem_append, not_or,
    not_or]
  refine ⟨⟨not_mem_repr hc n, hblank⟩, ?_⟩
  split
  next => exact h
  next =>
      split
      next => simp only [String.toList_append, List.mem_append, not_or]; exact ⟨h, hes⟩
      next => simp only [String.toList_append, List.mem_append, not_or]; exact ⟨h, hs⟩

/-- The counts of declarations consist of digits and of the characters of some words. -/
theorem not_mem_declarationCounts (hc : c.isDigit = false)
    (hwords : ∀ word ∈ ["no declarations", ", ", " es", "function", "class", "interface", "type"],
      c ∉ word.toList) (f : FileRecord) : c ∉ (declarationCounts f).toList := by
  rw [declarationCounts]
  split
  next => exact hwords _ (by simp)
  next =>
      refine not_mem_intercalate (hwords _ (by simp)) ?_
      intro t ht
      obtain ⟨⟨n, noun⟩, hmem, rfl⟩ := List.mem_map.mp ht
      refine not_mem_plural hc (hwords _ (by simp)) (hwords noun ?_) n
      have hpair := List.mem_of_mem_filter hmem
      simp only [List.mem_cons, Prod.mk.injEq, List.not_mem_nil, or_false] at hpair ⊢
      tauto

end texts

/-! ### Texts without escape characters -/

theorem isBare_append {s t : String} : IsBare (s ++ t) ↔ IsBare s ∧ IsBare t := by
  rw [IsBare, String.toList_append, List.mem_append, not_or]
  rfl

theorem isBare_repr (n : Nat) : IsBare n.repr := not_mem_repr (by decide) n

theorem isBare_plural {noun : String} (h : IsBare noun) (n : Nat) : IsBare (plural n noun) :=
  not_mem_plural (by decide) (by decide) h n

theorem isBare_percentage (x : Binary64) : IsBare (percentage x) := by
  have hblanks : ∀ n, IsBare (String.ofList (List.replicate n ' ')) := by
    intro n
    simp [IsBare]
  have hsign : IsBare "%" := by decide
  exact isBare_append.mpr ⟨isBare_append.mpr ⟨hblanks _, isBare_repr _⟩, hsign⟩

theorem isBare_declarationCounts (f : FileRecord) : IsBare (declarationCounts f) :=
  not_mem_declarationCounts (by decide) (by decide) f

/-! ### The lines of a summary -/

/-- The texts that a summary shows. -/
def shownTexts (root : String) (c : Codebase) : List String :=
  let packageTexts : List String := match c.package with
    | none => []
    | some p => p.name :: p.version :: p.description.toList
  root :: packageTexts ++ c.frameworks.flatMap (fun f => f.name :: f.version.toList)
    ++ c.files.map (·.relativePath)

variable {root : String} {c : Codebase}

theorem isBare_heading (h : ∀ text ∈ shownTexts root c, IsBare text) :
    ∀ l ∈ heading root c.package, l.IsBare := by
  have hroot : IsBare root := h root (by simp [shownTexts])
  cases hp : c.package with
  | none => simp +decide [heading, hroot]
  | some p =>
      have hname : IsBare p.name := h p.name (by simp [shownTexts, hp])
      have hversion : IsBare ("@" ++ p.version) :=
        isBare_append.mpr ⟨by decide, h p.version (by simp [shownTexts, hp])⟩
      have hmark :
          Line.IsBare (if p.version = "" then [] else [Piece.plain ("@" ++ p.version)]) := by
        split
        next => exact Line.isBare_nil
        next => exact Line.isBare_cons.mpr ⟨hversion, Line.isBare_nil⟩
      cases hd : p.description with
      | none => simp +decide [heading, hroot, hname, hmark, hd]
      | some d =>
          have hdescription : IsBare d := h d (by simp [shownTexts, hp, hd])
          simp +decide [heading, hroot, hname, hmark, hd, hdescription]

theorem isBare_counts (c : Codebase) : ∀ l ∈ counts c, l.IsBare := by
  cases hd : c.dependencies.isEmpty with
  | true => simp +decide [counts, isBare_append, isBare_plural, hd]
  | false => simp +decide [counts, isBare_append, isBare_repr, isBare_plural, hd]

theorem isBare_frameworkLine {f : DetectedFramework} (hname : IsBare f.name)
    (hversion : ∀ v ∈ f.version, IsBare v) : (frameworkLine f).IsBare := by
  have hword : IsBare f.category.word := by cases f.category <;> decide
  have hshown : IsBare (f.version.getD "-") := by
    cases hv : f.version with
    | none => decide
    | some v => exact hversion v hv
  simp +decide [frameworkLine, hname, hword, hshown, isBare_percentage]

theorem isBare_headline {title : String} (h : IsBare title) (n : Nat) :
    (headline title n).IsBare := by
  simp +decide [headline, isBare_append, isBare_repr, h]

theorem isBare_frameworkLines (h : ∀ text ∈ shownTexts root c, IsBare text) :
    ∀ l ∈ frameworkLines c.frameworks, l.IsBare := by
  rw [frameworkLines]
  split
  next => exact List.forall_mem_nil _
  next =>
      have hlines : ∀ l ∈ c.frameworks.map frameworkLine, l.IsBare := by
        rw [List.forall_mem_map]
        intro f hf
        refine isBare_frameworkLine (h _ ?_) fun v hv => h _ ?_
        · simp only [shownTexts, List.mem_append, List.mem_flatMap]
          exact .inl (.inr ⟨f, hf, List.mem_cons_self⟩)
        · simp only [shownTexts, List.mem_append, List.mem_flatMap]
          exact .inl (.inr ⟨f, hf, List.mem_cons_of_mem _ (Option.mem_toList.mpr hv)⟩)
      rw [List.forall_mem_append, List.forall_mem_cons]
      exact ⟨⟨isBare_headline (by decide) _, hlines⟩, by simp⟩

theorem isBare_fileLines {files : List FileRecord} (h : ∀ f ∈ files, IsBare f.relativePath) :
    ∀ l ∈ fileLines files, l.IsBare := by
  rw [fileLines, List.forall_mem_cons, List.forall_mem_map]
  refine ⟨isBare_headline (by decide) _, fun f hf => ?_⟩
  simp +decide [fileLine, h f hf, isBare_declarationCounts]

theorem isBare_summaryLines (h : ∀ text ∈ shownTexts root c, IsBare text) :
    ∀ l ∈ summaryLines root c, l.IsBare := by
  have hpaths : ∀ f ∈ c.files, IsBare f.relativePath := fun f hf =>
    h _ (List.mem_append_right _ (List.mem_map_of_mem hf))
  simp only [summaryLines, List.forall_mem_append]
  exact ⟨⟨⟨⟨isBare_heading h, isBare_counts c⟩, isBare_frameworkLines h⟩, isBare_fileLines hpaths⟩,
    by simp⟩

/-! ### Whole summaries -/

/-- If no text that a summary shows has an escape character, then the summary without colours has
none either, and it is what is left of the summary with colours, character by character. -/
theorem unstyled_summary (h : ∀ text ∈ shownTexts root c, IsBare text) :
    unstyled (summary true root c).toList = (summary false root c).toList ∧
    '\x1b' ∈ (summary true root c).toList ∧ '\x1b' ∉ (summary false root c).toList := by
  have hlines := isBare_summaryLines h
  simp only [summary, String.toList_ofList]
  refine ⟨unstyled_lines hlines, ?_, ?_⟩
  · have hstyled : '\x1b' ∈ (Piece.styled .faint "Root:    ").render true := by decide
    refine List.mem_flatMap.mpr
      ⟨[.plain "  ", .styled .faint "Root:    ", .plain root], by simp [summaryLines, heading], ?_⟩
    exact List.mem_append_left _ (List.mem_flatMap.mpr ⟨_, by simp, hstyled⟩)
  · intro hmem
    obtain ⟨l, hl, hmem⟩ := List.mem_flatMap.mp hmem
    exact Line.not_mem_render (hlines l hl) hmem

/-- A codebase that has something to show in every section of its summary, and what looks like a
style sequence but for the escape character. -/
def manifoldCodebase : Codebase where
  files := [⟨"/p/é[1m.ts", "é[1m.ts", [], [], [], [], [⟨"A", true⟩]⟩,
    ⟨"/p/b.ts", "b.ts", [], [], [], [], []⟩]
  dependencies := ⟨.ofList [("react", "^18.2.0")], .empty, .empty⟩
  exports := []
  frameworks := [⟨"react", some "18.2.0", .frontend, .ofRatio 1 2⟩]
  package := some {
    name := "p", version := "1.0.0", description := some "[0m", license := none, author := none
    repository := none, homepage := none, keywords := none, main := none, bin := none
    scripts := none, isPrivate := none }

theorem unstyled_summary_manifold :
    (∀ text ∈ shownTexts "/p" manifoldCodebase, IsBare text) ∧
    unstyled (summary true "/p" manifoldCodebase).toList =
      (summary false "/p" manifoldCodebase).toList := by
  have h : ∀ text ∈ shownTexts "/p" manifoldCodebase, IsBare text := by decide
  exact ⟨h, (unstyled_summary h).1⟩

end CodeSurvey.Report
