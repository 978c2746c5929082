import CodeSurvey.Extraction.Description
import Mathlib

/-! # What comments describe

A documentation comment is a block, and what its lines say once their margins are taken away are
its texts (`AreTexts`).  Every block has exactly one list of texts (`existsUnique_areTexts`).

A description joins the texts before the first tag (`ofComment?_of_areTexts`).  What stands after
the tag is never read, hence the description joins all texts but the tags exactly if nothing but
tags and empty texts comes after the first one (`ofComment?_spec`). -/

namespace CodeSurvey

namespace Text

variable {α : Type} {p : α → Bool} {as : List α} {line text b b' : List Char}
  {lines : List (List Char)}

/-! ### Lines -/

/-- Whether a text has these lines: a line feed ends a line, and the last one may do without.  A
return before the line feed is a blank at the end of the line. -/
inductive AreLines : List Char → List (List Char) → Prop
  | nil : AreLines [] []
  | last {line : List Char} (hne : line ≠ []) (h : '\n' ∉ line) : AreLines line [line]
  | cons {line text : List Char} {lines : List (List Char)} (h : '\n' ∉ line)
      (hrest : AreLines text lines) : AreLines (line ++ '\n' :: text) (line :: lines)

theorem lines_of_not_mem (hne : line ≠ []) (h : '\n' ∉ line) : Text.lines line = [line] := by
  induction line with
  | nil => exact absurd rfl hne
  | cons c line ih =>
      obtain ⟨hc, hline⟩ := not_or.mp (mt List.mem_cons.mpr h)
      rw [Text.lines, if_neg (Ne.symm hc)]
      by_cases hnil : line = []
      · rw [hnil, Text.lines]
      · rw [ih hnil hline]

theorem lines_append (h : '\n' ∉ line) (text : List Char) :
    Text.lines (line ++ '\n' :: text) = line :: Text.lines text := by
  induction line with
  | nil => rw [List.nil_append, Text.lines, if_pos rfl]
  | cons c line ih =>
      obtain ⟨hc, hline⟩ := not_or.mp (mt List.mem_cons.mpr h)
      rw [List.cons_append, Text.lines, if_neg (Ne.symm hc), ih hline]

/-- Every text has its lines and no others. -/
theorem areLines_iff : AreLines text lines ↔ Text.lines text = lines := by
  constructor
  · intro h
    induction h with
    | nil => rw [Text.lines]
    | last hne h => exact lines_of_not_mem hne h
    | cons h _ ih => rw [lines_append h, ih]
  · rintro rfl
    induction hlength : text.length using Nat.strong_induction_on generalizing text with
    | _ n ih =>
        by_cases h : '\n' ∈ text
        · obtain ⟨line, rest, rfl, hline⟩ := List.eq_append_cons_of_mem h
          rw [lines_append hline]
          refine .cons hline (ih rest.length ?_ rfl)
          rw [← hlength, List.length_append, List.length_cons]
          omega
        · by_cases hnil : text = []
          · rw [hnil, Text.lines]
            exact .nil
          · rw [lines_of_not_mem hnil h]
            exact .last hnil h

/-! ### Blanks at the ends -/

/-- Whether no blank stands at either end of a text. -/
structure IsTrimmed (text : List Char) : Prop where
  first : ∀ c ∈ text.head?, ¬ isBlank c
  last : ∀ c ∈ text.getLast?, ¬ isBlank c

theorem dropWhile_eq_self (h : ∀ a ∈ as.head?, ¬ p a) : as.dropWhile p = as := by
  cases as with
  | nil => rfl
  | cons a as => exact List.dropWhile_cons_of_neg (h a rfl)

/-- A list falls into the longest beginning whose members have a property and the rest. -/
theorem exists_dropWhile (p : α → Bool) (as : List α) :
    ∃ bs, as = bs ++ as.dropWhile p ∧ (∀ a ∈ bs, p a) ∧ ∀ a ∈ (as.dropWhile p).head?, ¬ p a := by
  refine ⟨as.takeWhile p, (List.takeWhile_append_dropWhile).symm,
    fun a ha => List.mem_takeWhile_imp ha, fun a ha => ?_⟩
  have h := List.head?_dropWhile_not p as
  rw [Option.mem_def.mp ha] at h
  simpa using h

theorem trim_append (hb : ∀ c ∈ b, isBlank c) (h : IsTrimmed text) (hb' : ∀ c ∈ b', isBlank c) :
    trim (b ++ (text ++ b')) = text := by
  have hend : ∀ cs : List Char, IsTrimmed cs → trimEnd (cs ++ b') = cs := by
    intro cs hcs
    have hfirst : ∀ c ∈ cs.reverse.head?, ¬ isBlank c := by
      rw [List.head?_reverse]
      exact hcs.last
    rw [trimEnd, List.reverse_append, List.dropWhile_append_of_pos (by simpa using hb'),
      dropWhile_eq_self hfirst, List.reverse_reverse]
  rw [trim, trimStart, List.dropWhile_append_of_pos hb]
  cases text with
  | nil => rw [List.nil_append, List.dropWhile_eq_nil_iff.mpr hb', trimEnd]; rfl
  | cons c cs =>
      rw [dropWhile_eq_self (by simpa using h.first), hend _ h]

theorem trim_blanks_append (hb : ∀ c ∈ b, isBlank c) (h : IsTrimmed text) :
    trim (b ++ text) = text := by
  simpa using trim_append hb h (List.forall_mem_nil _)

theorem trim_of_isTrimmed (h : IsTrimmed text) : trim text = text :=
  trim_blanks_append (List.forall_mem_nil _) h

/-- Every text is trimmed but for blanks around it. -/
theorem exists_trim (cs : List Char) :
    ∃ b b', cs = b ++ (trim cs ++ b') ∧ (∀ c ∈ b, isBlank c) ∧ IsTrimmed (trim cs) ∧
      ∀ c ∈ b', isBlank c := by
  obtain ⟨b, hcs, hb, hfirst⟩ := exists_dropWhile isBlank cs
  obtain ⟨b', hrest, hb', hlast⟩ := exists_dropWhile isBlank (cs.dropWhile isBlank).reverse
  have hrest' : cs.dropWhile isBlank = trim cs ++ b'.reverse := by
    rw [← List.reverse_reverse (cs.dropWhile isBlank), hrest, List.reverse_append]
    rfl
  refine ⟨b, b'.reverse, by rw [← hrest']; exact hcs, hb, ⟨fun c hc => ?_, fun c hc => ?_⟩,
    by simpa using hb'⟩
  · refine hfirst c ?_
    rw [hrest', List.head?_append, Option.mem_def.mp hc]
    rfl
  · refine hlast c ?_
    rwa [trim, trimEnd, List.getLast?_reverse] at hc

end Text

namespace Description

open Text (AreLines IsTrimmed isBlank trim)

variable {comment : String} {line text body : List Char}
  {lines texts before after : List (List Char)}

/-! ### Texts of a comment -/

/-- Whether `text` is what a line says: what is left of it without the blanks around it, the
asterisks at its beginning and the blanks behind these.  Asterisks after such blanks stay. -/
inductive IsStripped : List Char → List Char → Prop
  | mk {b stars gap text b' : List Char} (hb : ∀ c ∈ b, isBlank c) (hstars : ∀ c ∈ stars, c = '*')
      (hgap : ∀ c ∈ gap, isBlank c) (htext : IsTrimmed text) (hb' : ∀ c ∈ b', isBlank c)
      (hmost : text.head? = some '*' → stars ≠ [] ∧ gap ≠ []) :
      IsStripped (b ++ (stars ++ (gap ++ (text ++ b')))) text

/-- Whether these are the texts of a comment: those of the lines between its delimiters. -/
def AreTexts (comment : String) (texts : List (List Char)) : Prop :=
  ∃ body lines, comment.toList = ['/', '*', '*'] ++ (body ++ ['*', '/']) ∧ AreLines body lines ∧
    List.Forall₂ IsStripped lines texts

/-- Whether a text is a tag. -/
def IsTag (text : List Char) : Prop := text.head? = some '@'

instance : DecidablePred IsTag := fun text => inferInstanceAs (Decidable (text.head? = some '@'))

/-- The texts that are not empty, joined by blanks, if there are any. -/
def joined? (texts : List (List Char)) : Option String :=
  if ∀ text ∈ texts, text = [] then none
  else some (" ".intercalate ((texts.filter (· ≠ [])).map String.ofList))

/-- Whether texts fall into those before the first tag and the others. -/
structure SplitsAtTag (texts before after : List (List Char)) : Prop where
  eq_append : texts = before ++ after
  not_isTag : ∀ text ∈ before, ¬ IsTag text
  isTag : ∀ text ∈ after.head?, IsTag text

theorem not_isBlank_star : ¬ isBlank '*' := by decide

theorem isTrimmed_stars {stars : List Char} (h : ∀ c ∈ stars, c = '*') : IsTrimmed stars where
  first c hc := h c (List.mem_of_mem_head? hc) ▸ not_isBlank_star
  last c hc := h c (List.mem_of_mem_getLast? hc) ▸ not_isBlank_star

/-- A line without asterisks before its text. -/
theorem cleanLine_unmarked {b b' : List Char} (hb : ∀ c ∈ b, isBlank c) (htext : IsTrimmed text)
    (hb' : ∀ c ∈ b', isBlank c) (hstar : text.head? ≠ some '*') :
    cleanLine (b ++ (text ++ b')) = text := by
  have hfirst : ∀ c ∈ text.head?, ¬ (c == '*') := by
    intro c hc heq
    obtain rfl : c = '*' := by simpa using heq
    exact hstar hc
  rw [cleanLine, Text.trim_append hb htext hb', Text.dropWhile_eq_self hfirst,
    Text.trim_of_isTrimmed htext]

/-- A line of asterisks. -/
theorem cleanLine_stars {b stars b' : List Char} (hb : ∀ c ∈ b, isBlank c)
    (hstars : ∀ c ∈ stars, c = '*') (hb' : ∀ c ∈ b', isBlank c) :
    cleanLine (b ++ (stars ++ b')) = [] := by
  rw [cleanLine, Text.trim_append hb (isTrimmed_stars hstars) hb',
    List.dropWhile_eq_nil_iff.mpr (by simpa using hstars)]
  rfl

/-- A text after asterisks and, if it begins with one more, a blank. -/
theorem dropWhile_stars {stars gap : List Char} (hstars : ∀ c ∈ stars, c = '*')
    (hgap : ∀ c ∈ gap, isBlank c) (hmost : text.head? = some '*' → gap ≠ []) :
    (stars ++ (gap ++ text)).dropWhile (· == '*') = gap ++ text := by
  rw [List.dropWhile_append_of_pos (by simpa using hstars)]
  refine Text.dropWhile_eq_self fun c hc heq => ?_
  obtain rfl : c = '*' := by simpa using heq
  cases gap with
  | nil => exact hmost hc rfl
  | cons d gap =>
      obtain rfl : d = '*' := by simpa using hc
      exact not_isBlank_star (hgap _ List.mem_cons_self)

/-- A line with asterisks before its text. -/
theorem cleanLine_marked {b stars gap b' : List Char} (hb : ∀ c ∈ b, isBlank c)
    (hstars : ∀ c ∈ stars, c = '*') (hgap : ∀ c ∈ gap, isBlank c) (htext : IsTrimmed text)
    (hb' : ∀ c ∈ b', isBlank c) (hs : stars ≠ []) (ht : text ≠ [])
    (hmost : text.head? = some '*' → gap ≠ []) :
    cleanLine (b ++ (stars ++ (gap ++ text) ++ b')) = text := by
  have hinner : IsTrimmed (stars ++ (gap ++ text)) := by
    refine ⟨fun c hc => (isTrimmed_stars hstars).first c ?_, fun c hc => htext.last c ?_⟩
    · rwa [List.head?_append_of_ne_nil _ hs] at hc
    · rwa [← List.append_assoc, List.getLast?_append_of_ne_nil _ ht] at hc
  rw [cleanLine, Text.trim_append hb hinner hb', dropWhile_stars hstars hgap hmost,
    Text.trim_blanks_append hgap htext]

theorem cleanLine_of_isStripped (h : IsStripped line text) : cleanLine line = text := by
  obtain @⟨b, stars, gap, _, b', hb, hstars, hgap, htext, hb', hmost⟩ := h
  by_cases hs : stars = []
  · -- without asterisks the gap is part of the blanks before the text
    subst hs
    have hblanks : ∀ c ∈ b ++ gap, isBlank c := List.forall_mem_append.mpr ⟨hb, hgap⟩
    rw [List.nil_append, ← List.append_assoc]
    exact cleanLine_unmarked hblanks htext hb' fun hstar => (hmost hstar).1 rfl
  by_cases ht : text = []
  · -- without a text the gap is part of the blanks at the end
    subst ht
    exact cleanLine_stars hb hstars (List.forall_mem_append.mpr ⟨hgap, hb'⟩)
  have hline : b ++ (stars ++ (gap ++ (text ++ b'))) = b ++ (stars ++ (gap ++ text) ++ b') := by
    simp only [List.append_assoc]
  rw [hline]
  exact cleanLine_marked hb hstars hgap htext hb' hs ht fun hstar => (hmost hstar).2

theorem isStripped_cleanLine (line : List Char) : IsStripped line (cleanLine line) := by
  obtain ⟨b, b', hline, hb, htrim, hb'⟩ := Text.exists_trim line
  obtain ⟨stars, hinner, hstars, hrest⟩ := Text.exists_dropWhile (· == '*') (trim line)
  obtain ⟨gap, gap', htext, hgap, hclean, hgap'⟩ :=
    Text.exists_trim ((trim line).dropWhile (· == '*'))
  have hwhole : line = b ++ (stars ++ (gap ++ (cleanLine line ++ (gap' ++ b')))) := by
    conv_lhs => rw [hline, hinner, htext]
    simp only [List.append_assoc]
    rfl
  have hmost : (cleanLine line).head? = some '*' → stars ≠ [] ∧ gap ≠ [] := by
    intro hstar
    have hgapne : gap ≠ [] := by
      rintro rfl
      refine hrest '*' ?_ (by decide)
      rw [htext, List.nil_append, List.head?_append]
      exact congrArg (Option.or · _) hstar
    refine ⟨?_, hgapne⟩
    rintro rfl
    -- otherwise the trimmed line begins with the first blank of the gap
    obtain ⟨c, gap, rfl⟩ := List.exists_cons_of_ne_nil hgapne
    refine htrim.first c ?_ (hgap c List.mem_cons_self)
    rw [hinner, htext]
    rfl
  have h : IsStripped (b ++ (stars ++ (gap ++ (cleanLine line ++ (gap' ++ b')))))
      (cleanLine line) :=
    .mk hb (by simpa using hstars) hgap hclean (List.forall_mem_append.mpr ⟨hgap', hb'⟩) hmost
  rwa [← hwhole] at h

theorem isStripped_iff : IsStripped line text ↔ cleanLine line = text :=
  ⟨cleanLine_of_isStripped, fun h => h ▸ isStripped_cleanLine line⟩

theorem forall₂_isStripped_iff :
    List.Forall₂ IsStripped lines texts ↔ lines.map cleanLine = texts := by
  have h : IsStripped = fun line text => cleanLine line = text :=
    funext₂ fun _ _ => propext isStripped_iff
  rw [h, ← List.forall₂_map_left_iff, List.forall₂_eq_eq_eq]

/-! ### The block -/

theorem dropStart?_append (beginning cs : List Char) :
    dropStart? beginning (beginning ++ cs) = some cs := by
  have h : beginning.isPrefixOf (beginning ++ cs) = true :=
    List.isPrefixOf_iff_prefix.mpr (List.prefix_append _ _)
  rw [dropStart?, if_pos h, List.drop_left]

theorem eq_append_of_dropStart? {beginning cs rest : List Char}
    (h : dropStart? beginning cs = some rest) : cs = beginning ++ rest := by
  unfold dropStart? at h
  split at h
  next hprefix =>
      obtain ⟨rest', rfl⟩ := List.isPrefixOf_iff_prefix.mp hprefix
      rw [List.drop_left] at h
      rw [Option.some.inj h]
  next => cases h

theorem dropEnd?_append (cs ending : List Char) : dropEnd? ending (cs ++ ending) = some cs := by
  have h : ending.isSuffixOf (cs ++ ending) = true :=
    List.isSuffixOf_iff_suffix.mpr (List.suffix_append _ _)
  rw [dropEnd?, if_pos h, List.length_append, Nat.add_sub_cancel, List.take_left]

theorem eq_append_of_dropEnd? {ending cs rest : List Char} (h : dropEnd? ending cs = some rest) :
    cs = rest ++ ending := by
  unfold dropEnd? at h
  split at h
  next hsuffix =>
      obtain ⟨rest', rfl⟩ := List.isSuffixOf_iff_suffix.mp hsuffix
      rw [List.length_append, Nat.add_sub_cancel, List.take_left] at h
      rw [Option.some.inj h]
  next => cases h

/-- A block has exactly one list of texts. -/
theorem existsUnique_areTexts (h : comment.toList = ['/', '*', '*'] ++ (body ++ ['*', '/'])) :
    ∃! texts, AreTexts comment texts := by
  refine ⟨(Text.lines body).map cleanLine,
    ⟨body, _, h, Text.areLines_iff.mpr rfl, forall₂_isStripped_iff.mpr rfl⟩, ?_⟩
  rintro texts ⟨body', lines, h', hlines, htexts⟩
  obtain rfl : body' = body :=
    List.append_cancel_right (List.append_cancel_left (h'.symm.trans h))
  rw [← Text.areLines_iff.mp hlines, forall₂_isStripped_iff] at htexts
  exact htexts.symm

theorem joined?_eq_none : joined? texts = none ↔ ∀ text ∈ texts, text = [] := by
  simp [joined?]

theorem joined?_eq (texts : List (List Char)) :
    joined? texts = match texts.filter (!·.isEmpty) with
      | [] => none
      | kept => some (" ".intercalate (kept.map String.ofList)) := by
  have hfilter : texts.filter (· ≠ []) = texts.filter (!·.isEmpty) :=
    List.filter_congr fun text _ => by cases text <;> rfl
  cases hkept : texts.filter (!·.isEmpty) with
  | nil =>
      rw [joined?_eq_none]
      simpa [List.filter_eq_nil_iff] using hkept
  | cons first kept =>
      have hne : ¬ ∀ text ∈ texts, text = [] := by
        intro hall
        have hmem : first ∈ texts.filter (!·.isEmpty) := by rw [hkept]; exact List.mem_cons_self
        obtain ⟨htexts, hfirst⟩ := List.mem_filter.mp hmem
        rw [hall first htexts] at hfirst
        cases hfirst
      rw [joined?, if_neg hne, hfilter, hkept]

/-! ### Tags -/

theorem exists_splitsAtTag (texts : List (List Char)) :
    ∃ before after, SplitsAtTag texts before after := by
  obtain ⟨before, h, hbefore, hafter⟩ :=
    Text.exists_dropWhile (fun text => !decide (IsTag text)) texts
  exact ⟨before, _, h, by simpa using hbefore, by simpa using hafter⟩

/-- A description joins the texts before the first tag. -/
theorem ofComment?_of_areTexts (h : AreTexts comment texts) (hs : SplitsAtTag texts before after) :
    ofComment? comment = joined? before := by
  obtain ⟨body, lines, hcomment, hlines, htexts⟩ := h
  have htake : (texts.takeWhile fun text => text.head? != some '@') = before := by
    rw [hs.eq_append, List.takeWhile_append_of_pos (by simpa [IsTag] using hs.not_isTag)]
    cases after with
    | nil => rw [List.takeWhile_nil, List.append_nil]
    | cons tag after =>
        have htag : tag.head? = some '@' := hs.isTag tag rfl
        rw [List.takeWhile_cons_of_neg (by simp [htag]), List.append_nil]
  rw [ofComment?, hcomment, dropStart?_append, Option.bind_some, dropEnd?_append, Option.bind_some,
    Text.areLines_iff.mp hlines, forall₂_isStripped_iff.mp htexts, htake]
  exact (joined?_eq before).symm

/-- What is described is a block. -/
theorem isBlock_of_ofComment? {d : String} (h : ofComment? comment = some d) :
    ∃ body, comment.toList = ['/', '*', '*'] ++ (body ++ ['*', '/']) := by
  rw [ofComment?] at h
  obtain ⟨opened, hstart, h⟩ := Option.bind_eq_some_iff.mp h
  obtain ⟨body, hend, -⟩ := Option.bind_eq_some_iff.mp h
  exact ⟨body, by rw [eq_append_of_dropStart? hstart, eq_append_of_dropEnd? hend]⟩

/-- Further texts leave the description as it is only if they are empty. -/
theorem joined?_append_eq_iff {others : List (List Char)} :
    joined? before = joined? (before ++ others) ↔ ∀ text ∈ others, text = [] := by
  constructor
  · intro h
    by_contra hne
    have hsome : ¬ ∀ text ∈ before ++ others, text = [] :=
      fun hall => hne fun text ht => hall text (List.mem_append_right _ ht)
    have hbefore : ¬ ∀ text ∈ before, text = [] := by
      rwa [← joined?_eq_none, h, joined?_eq_none]
    have hkept : ∀ ts : List (List Char), (¬ ∀ text ∈ ts, text = []) →
        (ts.filter (· ≠ [])).map String.ofList ≠ [] := by
      intro ts hts
      simpa [List.filter_eq_nil_iff] using hts
    rw [joined?, if_neg hbefore, joined?, if_neg hsome, List.filter_append, List.map_append,
      String.intercalate_append_of_ne_nil (hkept _ hbefore) (hkept _ hne)] at h
    have hlength := congrArg (fun o : Option String => o.map (·.toList.length)) h
    simp at hlength
  · intro h
    have hothers : others.filter (· ≠ []) = [] := by simpa [List.filter_eq_nil_iff] using h
    have hiff : (∀ text ∈ before ++ others, text = []) ↔ ∀ text ∈ before, text = [] := by
      simp only [List.mem_append, or_imp, forall_and, and_iff_left h]
    simp only [joined?, hiff, List.filter_append, hothers, List.append_nil]

/-- The description of a block joins the texts before the first tag, and is absent if these are all
empty.  It joins all texts but the tags exactly if no text comes after the first tag. -/
theorem ofComment?_spec (comment : String) :
    ((¬ ∃ body, comment.toList = ['/', '*', '*'] ++ (body ++ ['*', '/'])) →
      ofComment? comment = none) ∧
    ∀ body, comment.toList = ['/', '*', '*'] ++ (body ++ ['*', '/']) →
      (∃! texts, AreTexts comment texts) ∧
      ∀ texts, AreTexts comment texts →
        (∃ before after, SplitsAtTag texts before after) ∧
        ∀ before after, SplitsAtTag texts before after →
          ofComment? comment = joined? before ∧
          (ofComment? comment = none ↔ ∀ text ∈ before, text = []) ∧
          (ofComment? comment = joined? (texts.filter fun text => ¬ IsTag text) ↔
            ∀ text ∈ after, text = [] ∨ IsTag text) := by
  refine ⟨fun hno => ?_, fun body hbody => ⟨existsUnique_areTexts hbody, fun texts htexts => ?_⟩⟩
  · cases h : ofComment? comment with
    | none => rfl
    | some d => exact absurd (isBlock_of_ofComment? h) hno
  · refine ⟨exists_splitsAtTag texts, fun before after hs => ?_⟩
    have h := ofComment?_of_areTexts htexts hs
    have huntagged : (texts.filter fun text => ¬ IsTag text) =
        before ++ after.filter fun text => ¬ IsTag text := by
      rw [hs.eq_append, List.filter_append,
        List.filter_eq_self.mpr fun text ht => decide_eq_true (hs.not_isTag text ht)]
    refine ⟨h, by rw [h, joined?_eq_none], ?_⟩
    rw [h, huntagged, joined?_append_eq_iff]
    refine forall_congr' fun text => ?_
    rw [List.mem_filter, decide_eq_true_iff]
    tauto

/-- A comment with a tag between two texts. -/
def tagBetween : String := "/** First.\n * @param a one\n * Last. */"
@[inherit_doc tagBetween]
def betweenTexts : List (List Char) := ["First.".toList, "@param a one".toList, "Last.".toList]

/-- The text after the tag is left out, and a comment with one asterisk describes nothing. -/
theorem ofComment?_spec_tagBetween :
    AreTexts tagBetween betweenTexts ∧ ofComment? tagBetween = some "First." ∧
    joined? (betweenTexts.filter fun text => ¬ IsTag text) = some "First. Last." ∧
    ofComment? tagBetween ≠ joined? (betweenTexts.filter fun text => ¬ IsTag text) ∧
    ofComment? "/* First. */" = none := by
  have hbody : tagBetween.toList =
      ['/', '*', '*'] ++ (" First.\n * @param a one\n * Last. ".toList ++ ['*', '/']) := by
    decide +kernel
  have htexts : AreTexts tagBetween betweenTexts :=
    ⟨_, _, hbody, Text.areLines_iff.mpr rfl, forall₂_isStripped_iff.mpr (by decide +kernel)⟩
  have hs : SplitsAtTag betweenTexts ["First.".toList] ["@param a one".toList, "Last.".toList] :=
    ⟨rfl, by decide, by decide⟩
  obtain ⟨hdescription, -, hrule⟩ := (((ofComment?_spec tagBetween).2 _ hbody).2 _ htexts).2 _ _ hs
  have hlast : ¬ ∀ text ∈ ["@param a one".toList, "Last.".toList], text = [] ∨ IsTag text := by
    decide
  have hplain : ¬ ∃ body, "/* First. */".toList = ['/', '*', '*'] ++ (body ++ ['*', '/']) := by
    rintro ⟨body, h⟩
    simp at h
  exact ⟨htexts, by rw [hdescription]; decide +kernel, by decide +kernel, mt hrule.mp hlast,
    (ofComment?_spec _).1 hplain⟩

end Description
end CodeSurvey
