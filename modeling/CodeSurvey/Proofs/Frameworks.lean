import CodeSurvey.Proofs.Encoding
import Mathlib

/-! # Which frameworks are detected

Of the dependencies only one version of each package counts: that for development if there is one,
else that for production (`Dependencies.version?`).  These versions alone decide what is detected
(`detect?_eq`), so nothing else makes a difference.

The detected frameworks are sorted by their confidence.  Sorting is stable, hence it leaves
frameworks that are equally sure in the order of the table (`pairwise_mergeSort_tie`), and as no
framework is surer than one whose packages are all there, these come first
(`detectFrameworks_spec`). -/

namespace CodeSurvey

/-! ### Stable sorting -/

section sorting

variable {α : Type} {le : α → α → Bool} {l : List α} {p : α → Bool}

/-- Sorting leaves elements in their order that are tied with each other. -/
theorem filter_mergeSort (trans : ∀ a b c, le a b → le b c → le a c)
    (total : ∀ a b, le a b || le b a) (h : ∀ a ∈ l, ∀ b ∈ l, p a → p b → le a b) :
    (l.mergeSort le).filter p = l.filter p := by
  have hpair : (l.filter p).Pairwise fun a b => le a b := by
    refine List.pairwise_of_forall_mem_list fun a ha b hb => ?_
    obtain ⟨ha, hpa⟩ := List.mem_filter.mp ha
    obtain ⟨hb, hpb⟩ := List.mem_filter.mp hb
    exact h a ha b hb hpa hpb
  have hsub := (List.sublist_mergeSort trans total hpair List.filter_sublist).filter p
  simp only [List.filter_filter, Bool.and_self] at hsub
  exact (hsub.eq_of_length ((List.mergeSort_perm l le).filter p).length_eq.symm).symm

theorem pairwise_mergeSort_tie (trans : ∀ a b c, le a b → le b c → le a c)
    (total : ∀ a b, le a b || le b a) (l : List α) :
    (l.mergeSort le).Pairwise fun a b => le a b ∧ (le b a → [a, b].Sublist l) := by
  rw [List.pairwise_iff_forall_sublist]
  intro a b hab
  have hle : le a b :=
    List.pairwise_iff_forall_sublist.mp (List.pairwise_mergeSort trans total l) hab
  refine ⟨hle, fun hba => ?_⟩
  -- `a` and `b` are among those that are tied with `a`
  have htied : [a, b].filter (fun c => le a c && le c a) = [a, b] := by
    have hrefl : le a a := by simpa using total a a
    simp [hrefl, hle, hba]
  have hsub := hab.filter fun c => le a c && le c a
  rw [htied, filter_mergeSort trans total] at hsub
  · exact hsub.trans List.filter_sublist
  · intro c _ d _ hc hd
    rw [Bool.and_eq_true] at hc hd
    exact trans c a d hc.2 hd.1

/-- A list in which a property is only lost falls into those that have it and the others. -/
theorem eq_filter_append_filter (h : l.Pairwise fun a b => p b → p a) :
    l = l.filter p ++ l.filter fun a => !p a := by
  induction l with
  | nil => rfl
  | cons a l ih =>
      rw [List.pairwise_cons] at h
      by_cases ha : p a
      · rw [List.filter_cons_of_pos ha, List.filter_cons_of_neg (by simpa using ha),
          List.cons_append, ← ih h.2]
      · have hnone : l.filter p = [] :=
          List.filter_eq_nil_iff.mpr fun b hb hpb => ha (h.1 b hb hpb)
        have hall : (l.filter fun a => !p a) = l :=
          List.filter_eq_self.mpr fun b hb => by simpa using fun hpb => ha (h.1 b hb hpb)
        rw [List.filter_cons_of_neg ha, List.filter_cons_of_pos (by simpa using ha), hnone, hall]
        rfl

end sorting

/-! ### Versions -/

namespace Dict

variable {β : Type}

theorem lookup_insertEntry (k n : String) (v : β) (es : List (String × β)) :
    (insertEntry k v es).lookup n = if n = k then some v else es.lookup n := by
  induction es with
  | nil => rw [insertEntry, Json.lookup_cons_eq_ite]
  | cons e rest ih =>
      rw [insertEntry]
      split
      next => rw [Json.lookup_cons_eq_ite]
      next =>
          split
          next hk =>
              rw [Json.lookup_cons_eq_ite, Json.lookup_cons_eq_ite, hk]
              split <;> rfl
          next hk =>
              rw [Json.lookup_cons_eq_ite, ih, Json.lookup_cons_eq_ite]
              split
              next hn => rw [if_neg fun e => hk (e.symm.trans hn)]
              next => rfl

theorem get?_insert (d : Dict β) (k n : String) (v : β) :
    (d.insert k v).get? n = if n = k then some v else d.get? n := lookup_insertEntry k n v d.entries

/-- Of what is inserted into a dictionary every key keeps its value. -/
theorem get?_foldl_insert {es : List (String × β)} (h : (es.map (·.1)).Nodup) (d : Dict β)
    (n : String) :
    (es.foldl (fun m e => m.insert e.1 e.2) d).get? n = (es.lookup n).or (d.get? n) := by
  induction es generalizing d with
  | nil => rfl
  | cons e rest ih =>
      rw [List.map_cons, List.nodup_cons] at h
      rw [List.foldl_cons, ih h.2, get?_insert, Json.lookup_cons_eq_ite]
      split
      next hn =>
          rw [Json.lookup_eq_none (hn ▸ h.1)]
          rfl
      next => rfl

theorem get?_ofList {es : List (String × β)} (h : (es.map (·.1)).Nodup) (n : String) :
    (ofList es).get? n = es.lookup n := by
  rw [ofList, get?_foldl_insert h]
  exact Option.or_none

theorem nodup_keys (d : Dict β) : (d.entries.map (·.1)).Nodup := by
  rw [List.Nodup, List.pairwise_map]
  exact d.sorted.imp fun h => String.ne_of_lt h

end Dict

/-- The version of a package that counts: that for development, else that for production. -/
def Dependencies.version? (d : Dependencies) (package : String) : Option String :=
  (d.development.get? package).or (d.production.get? package)

theorem Dependencies.get?_merged (d : Dependencies) (package : String) :
    d.merged.get? package = d.version? package :=
  Dict.get?_foldl_insert d.development.nodup_keys _ _

/-! ### Values of numbers -/

namespace Binary64

/-- The rational number that a number is that is not negative. -/
def value (x : Binary64) : ℚ := x.toRatio.1 / x.toRatio.2

theorem toRatio_pos (x : Binary64) : 0 < x.toRatio.2 := by
  unfold toRatio
  split
  · exact Nat.one_pos
  · exact Nat.pow_pos (by decide)

theorem order_ne_gt_iff {x y : Binary64} (hx : x.negative = false) (hy : y.negative = false) :
    x.order y ≠ .gt ↔ x.value ≤ y.value := by
  have hx' : (0 : ℚ) < x.toRatio.2 := by exact_mod_cast x.toRatio_pos
  have hy' : (0 : ℚ) < y.toRatio.2 := by exact_mod_cast y.toRatio_pos
  rw [order, hx, hy, value, value, div_le_div_iff₀ hx' hy']
  simp only [ne_eq, compare_gt_iff_gt, not_lt]
  exact_mod_cast Iff.rfl

/-- Fractions of at most two parts are numbers themselves. -/
theorem ofRatio_of_le_two {m n : Nat} (hn : n = 1 ∨ n = 2) (hm : m ≤ n) :
    (ofRatio m n).negative = false ∧ (ofRatio m n).value = m / n := by
  have hsmall : ∀ n ∈ [1, 2], ∀ m ∈ List.range (n + 1), (ofRatio m n).negative = false ∧
      (ofRatio m n).toRatio.1 * n = m * (ofRatio m n).toRatio.2 := by
    decide +kernel
  obtain ⟨hneg, hcross⟩ := hsmall n (by simpa using hn) m (List.mem_range.mpr (by omega))
  refine ⟨hneg, ?_⟩
  have hn' : (n : ℚ) ≠ 0 := by
    rcases hn with rfl | rfl <;> norm_num
  have hd : ((ofRatio m n).toRatio.2 : ℚ) ≠ 0 := by exact_mod_cast (ofRatio m n).toRatio_pos.ne'
  rw [value, div_eq_div_iff hd hn']
  exact_mod_cast hcross

end Binary64

/-! ### Detection -/

/-- Whether a package has a version, and not an empty one. -/
def IsMatched (version? : String → Option String) (package : String) : Prop :=
  version? package ≠ none ∧ version? package ≠ some ""

instance (version? : String → Option String) : DecidablePred (IsMatched version?) := fun package =>
  inferInstanceAs (Decidable (version? package ≠ none ∧ version? package ≠ some ""))

namespace FrameworkSignature

variable {version? : String → Option String} {s t : FrameworkSignature}

/-- The packages of a framework that have a version, in their order. -/
def matched (s : FrameworkSignature) (version? : String → Option String) : List String :=
  s.packages.filter fun p => IsMatched version? p

/-- Whether all packages of a framework have a version. -/
def IsWhole (version? : String → Option String) (s : FrameworkSignature) : Prop :=
  ∀ p ∈ s.packages, IsMatched version? p

instance : DecidablePred (IsWhole version?) := fun s =>
  inferInstanceAs (Decidable (∀ p ∈ s.packages, IsMatched version? p))

/-- The part of the packages of a framework that have a version. -/
def fraction (s : FrameworkSignature) (version? : String → Option String) : ℚ :=
  (s.matched version?).length / s.packages.length

/-- Whether a record is that of a framework, by the versions of its packages. -/
structure IsRecord (version? : String → Option String) (s : FrameworkSignature)
    (f : DetectedFramework) : Prop where
  name : f.name = s.name
  category : f.category = s.category
  version : ∃ package text, (s.matched version?).head? = some package ∧
    version? package = some text ∧
    ∀ plain, f.version = some plain ↔
      plain ≠ "" ∧ plain.toList = text.toList.filter fun c => c.isDigit || c == '.'
  negative : f.confidence.negative = false
  confidence : f.confidence.value = s.fraction version?

/-- Whether a framework shows in the versions of its packages. -/
def IsShown (version? : String → Option String) (s : FrameworkSignature) : Prop :=
  ∃ p ∈ s.packages, IsMatched version? p

instance : DecidablePred (IsShown version?) := fun s =>
  inferInstanceAs (Decidable (∃ p ∈ s.packages, IsMatched version? p))

theorem map_name_of_isRecord {ss : List FrameworkSignature} {fs : List DetectedFramework}
    (h : List.Forall₂ (IsRecord version?) ss fs) : fs.map (·.name) = ss.map (·.name) := by
  induction h with
  | nil => rfl
  | cons h _ ih => rw [List.map_cons, List.map_cons, h.name, ih]

theorem map_versions (d : Dependencies) (s : FrameworkSignature) :
    (s.versions d.merged).map some = (s.matched d.version?).map d.version? := by
  rw [versions, matched]
  generalize s.packages = packages
  induction packages with
  | nil => rfl
  | cons p packages ih =>
      rw [List.filterMap_cons, d.get?_merged]
      cases hv : d.version? p with
      | none => simpa [IsMatched, hv] using ih
      | some text =>
          by_cases ht : text = ""
          · simpa [IsMatched, hv, ht, Option.filter_some] using ih
          · simpa [IsMatched, hv, ht, Option.filter_some] using ih

theorem isShown_iff : s.IsShown version? ↔ s.matched version? ≠ [] := by
  simp [IsShown, matched, List.filter_eq_nil_iff]

theorem isWhole_iff_length : s.IsWhole version? ↔
    (s.matched version?).length = s.packages.length := by
  rw [matched, List.length_filter_eq_length_iff]
  simp [IsWhole]

theorem length_matched_le : (s.matched version?).length ≤ s.packages.length :=
  List.length_filter_le _ _

theorem IsShown.length_pos (h : s.IsShown version?) :
    (0 : ℚ) < (s.matched version?).length ∧ (0 : ℚ) < s.packages.length := by
  have hm : 0 < (s.matched version?).length := List.length_pos_iff.mpr (isShown_iff.mp h)
  have hp : 0 < s.packages.length := lt_of_lt_of_le hm length_matched_le
  exact ⟨by exact_mod_cast hm, by exact_mod_cast hp⟩

/-- The part of the packages that are there is everything for a whole framework, and less for any
other. -/
theorem IsShown.fraction_bounds (h : s.IsShown version?) :
    0 < s.fraction version? ∧ s.fraction version? ≤ 1 ∧
      (s.fraction version? = 1 ↔ s.IsWhole version?) := by
  obtain ⟨hm, hp⟩ := h.length_pos
  refine ⟨div_pos hm hp, ?_, ?_⟩
  · rw [fraction, div_le_one hp]
    exact_mod_cast length_matched_le
  · rw [fraction, div_eq_one_iff_eq hp.ne', isWhole_iff_length]
    exact_mod_cast Iff.rfl

theorem known_size : ∀ s ∈ known, s.packages.length = 1 ∨ s.packages.length = 2 := by decide

theorem IsWhole.isShown (hs : s ∈ known) (h : s.IsWhole version?) : s.IsShown version? := by
  have hsize := known_size s hs
  obtain ⟨p, hp⟩ : ∃ p, p ∈ s.packages := by
    refine List.exists_mem_of_ne_nil _ fun hnil => ?_
    rw [hnil, List.length_nil] at hsize
    omega
  exact ⟨p, hp, h p hp⟩

/-! ### Records -/

/-- The record of a framework that shows in the dependencies. -/
def found (d : Dependencies) (s : FrameworkSignature) : DetectedFramework where
  name := s.name
  version := (s.versions d.merged).head?.bind plainVersion?
  category := s.category
  confidence := .ofRatio (s.matched d.version?).length s.packages.length

theorem detect?_eq (d : Dependencies) (s : FrameworkSignature) :
    s.detect? d.merged = if s.IsShown d.version? then some (s.found d) else none := by
  have hmap := map_versions d s
  have hlength := congrArg List.length hmap
  rw [List.length_map, List.length_map] at hlength
  rw [detect?, found, ← hlength]
  cases hv : s.versions d.merged with
  | nil =>
      rw [hv, List.map_nil, eq_comm, List.map_eq_nil_iff] at hmap
      rw [if_neg fun h => isShown_iff.mp h hmap]
  | cons first rest =>
      have hne : s.matched d.version? ≠ [] := by
        rintro hnil
        rw [hv, hnil] at hmap
        cases hmap
      rw [if_pos (isShown_iff.mpr hne)]
      rfl

theorem plainVersion?_eq_some {text plain : String} :
    plainVersion? text = some plain ↔
      plain ≠ "" ∧ plain.toList = text.toList.filter fun c => c.isDigit || c == '.' := by
  rw [plainVersion?]
  cases hkept : text.toList.filter fun c => c.isDigit || c == '.' with
  | nil => simp
  | cons c cs =>
      constructor
      · rintro h
        cases h
        exact ⟨by simp, String.toList_ofList⟩
      · rintro ⟨-, h⟩
        exact congrArg some (by rw [← h, String.ofList_toList])

/-- How sure a known framework is, as a number. -/
theorem confidence_found (d : Dependencies) (hs : s ∈ known) :
    (s.found d).confidence.negative = false ∧
      (s.found d).confidence.value = s.fraction d.version? :=
  Binary64.ofRatio_of_le_two (known_size s hs) length_matched_le

theorem isRecord_found {d : Dependencies} (hs : s ∈ known) (h : s.IsShown d.version?) :
    s.IsRecord d.version? (s.found d) := by
  obtain ⟨hnegative, hconfidence⟩ := confidence_found d hs
  refine ⟨rfl, rfl, ?_, hnegative, hconfidence⟩
  obtain ⟨p, ps, hmatched⟩ := List.exists_cons_of_ne_nil (isShown_iff.mp h)
  have hmap := map_versions d s
  rw [hmatched] at hmap
  obtain ⟨text, rest, hversions, htext, -⟩ := List.map_eq_cons_iff.mp hmap
  refine ⟨p, text, by rw [hmatched]; rfl, htext.symm, fun plain => ?_⟩
  rw [found, hversions]
  exact plainVersion?_eq_some

end FrameworkSignature

/-! ### The whole list -/

open FrameworkSignature

/-- Whether a framework is at least as sure as another one. -/
def isAsSure (d : Dependencies) (s t : FrameworkSignature) : Bool :=
  t.fraction d.version? ≤ s.fraction d.version?

theorem isAsSure_trans (d : Dependencies) (s t u : FrameworkSignature) (h : isAsSure d s t)
    (h' : isAsSure d t u) : isAsSure d s u := by
  rw [isAsSure, decide_eq_true_iff] at *
  exact h'.trans h

theorem isAsSure_total (d : Dependencies) (s t : FrameworkSignature) :
    isAsSure d s t || isAsSure d t s := by
  simpa [isAsSure] using le_total _ _

/-- The frameworks that show, the surest first. -/
def shown (d : Dependencies) : List FrameworkSignature :=
  (known.filter fun s => s.IsShown d.version?).mergeSort (isAsSure d)

theorem mem_shown {d : Dependencies} {s : FrameworkSignature} :
    s ∈ shown d ↔ s ∈ known ∧ s.IsShown d.version? := by
  simp [shown, List.mem_mergeSort, List.mem_filter]

theorem detectFrameworks_eq (d : Dependencies) :
    detectFrameworks d = (shown d).map (·.found d) := by
  have hfound : known.filterMap (·.detect? d.merged) =
      (known.filter fun s => s.IsShown d.version?).map (·.found d) := by
    simp only [detect?_eq]
    induction known with
    | nil => rfl
    | cons s rest ih => by_cases h : s.IsShown d.version? <;> simp [h, ih]
  rw [detectFrameworks, hfound, shown, List.map_mergeSort]
  intro s hs t ht
  obtain ⟨hs', hs⟩ := confidence_found d (List.mem_of_mem_filter hs)
  obtain ⟨ht', ht⟩ := confidence_found d (List.mem_of_mem_filter ht)
  rw [Bool.eq_iff_iff, isAsSure, decide_eq_true_iff, bne_iff_ne, Binary64.order_ne_gt_iff ht' hs',
    hs, ht]

/-- Frameworks whose packages are all there come first, in the order of the table. -/
theorem shown_eq (d : Dependencies) :
    shown d = (known.filter fun s => s.IsWhole d.version?) ++
      (shown d).filter fun s => ¬ s.IsWhole d.version? := by
  have hsorted : (shown d).Pairwise fun s t => t.IsWhole d.version? → s.IsWhole d.version? := by
    refine (List.pairwise_mergeSort (isAsSure_trans d) (isAsSure_total d) _).imp_of_mem ?_
    intro s t hs ht hle hwhole
    obtain ⟨-, hle_one, hone⟩ := (mem_shown.mp hs).2.fraction_bounds
    obtain ⟨-, -, hone'⟩ := (mem_shown.mp ht).2.fraction_bounds
    rw [isAsSure, decide_eq_true_iff, hone'.mpr hwhole] at hle
    exact hone.mp (le_antisymm hle_one hle)
  have hwhole : (shown d).filter (fun s => s.IsWhole d.version?) =
      known.filter fun s => s.IsWhole d.version? := by
    rw [shown, filter_mergeSort (isAsSure_trans d) (isAsSure_total d), List.filter_filter]
    · refine List.filter_congr fun s hs => ?_
      simpa using fun h => IsWhole.isShown hs h
    · intro s hs t ht hws hwt
      have hs' := of_decide_eq_true (List.mem_filter.mp hs).2
      have ht' := of_decide_eq_true (List.mem_filter.mp ht).2
      rw [isAsSure, decide_eq_true_iff, hs'.fraction_bounds.2.2.mpr (of_decide_eq_true hws)]
      exact ht'.fraction_bounds.2.1
  have h := eq_filter_append_filter (p := fun s => decide (IsWhole d.version? s)) (l := shown d)
    (by simpa using hsorted)
  rw [hwhole] at h
  simpa using h

/-- A framework comes before one of which a smaller part is there, and before one after it in the
table of which the same part is there. -/
theorem pairwise_shown (d : Dependencies) :
    (shown d).Pairwise fun s t => t.fraction d.version? < s.fraction d.version? ∨
      t.fraction d.version? = s.fraction d.version? ∧ [s, t].Sublist known := by
  refine (pairwise_mergeSort_tie (isAsSure_trans d) (isAsSure_total d) _).imp fun {s t} h => ?_
  simp only [isAsSure, decide_eq_true_iff] at h
  obtain ⟨hle, htie⟩ := h
  rcases hle.lt_or_eq with hlt | heq
  · exact .inl hlt
  · exact .inr ⟨heq, (htie heq.ge).trans List.filter_sublist⟩

theorem nodup_names (d : Dependencies) : ((detectFrameworks d).map (·.name)).Nodup := by
  have hknown : (known.map (·.name)).Nodup := by decide
  have hnames : (detectFrameworks d).map (·.name) = (shown d).map (·.name) := by
    rw [detectFrameworks_eq, List.map_map]
    rfl
  rw [hnames, shown, ((List.mergeSort_perm _ _).map _).nodup_iff]
  exact hknown.sublist (List.filter_sublist.map _)

/-- Only the versions that count of the packages in the table make a difference. -/
theorem detectFrameworks_congr {d d' : Dependencies}
    (h : ∀ s ∈ known, ∀ p ∈ s.packages, d'.version? p = d.version? p) :
    detectFrameworks d' = detectFrameworks d := by
  have hversions : ∀ s ∈ known, s.detect? d'.merged = s.detect? d.merged := by
    intro s hs
    have hsame : s.versions d'.merged = s.versions d.merged :=
      List.filterMap_congr fun p hp => by rw [d'.get?_merged, d.get?_merged, h s hs p hp]
    rw [detect?, detect?, hsame]
  rw [detectFrameworks, detectFrameworks, List.filterMap_congr hversions]

/-- Whether dependencies differ only in where one package is declared that is declared once. -/
structure Dependencies.MovesTo (d d' : Dependencies) (package version : String) : Prop where
  production : d.production.get? package = some version
  development : d.development.get? package = none
  production' : d'.production.get? package = none
  development' : d'.development.get? package = some version
  others : ∀ p, p ≠ package →
    d'.production.get? p = d.production.get? p ∧ d'.development.get? p = d.development.get? p

theorem Dependencies.MovesTo.version?_eq {d d' : Dependencies} {package version : String}
    (h : d.MovesTo d' package version) (p : String) : d'.version? p = d.version? p := by
  by_cases hp : p = package
  · subst hp
    rw [Dependencies.version?, Dependencies.version?, h.production, h.development, h.production',
      h.development']
    rfl
  · rw [Dependencies.version?, Dependencies.version?, (h.others p hp).1, (h.others p hp).2]

/-- The frameworks that dependencies show are those of the table with a package that has a version:
first those whose packages all have one, in the order of the table, then the others by the part of
the packages that have one and in the order of the table.  Peer dependencies make no difference,
nor packages outside the table, nor for which of both purposes a package is declared. -/
theorem detectFrameworks_spec (d : Dependencies) :
    (∃ partly, List.Forall₂ (IsRecord d.version?)
        ((known.filter fun s => s.IsWhole d.version?) ++ partly) (detectFrameworks d) ∧
      (∀ s, s ∈ partly ↔ s ∈ known ∧ s.IsShown d.version? ∧ ¬ s.IsWhole d.version?) ∧
      partly.Pairwise fun s t => t.fraction d.version? < s.fraction d.version? ∨
        t.fraction d.version? = s.fraction d.version? ∧ [s, t].Sublist known) ∧
    (∀ s ∈ known, s.IsWhole d.version? → s.IsShown d.version?) ∧
    (∀ s : FrameworkSignature, s.IsShown d.version? →
      0 < s.fraction d.version? ∧ s.fraction d.version? ≤ 1) ∧
    ((detectFrameworks d).map (·.name)).Nodup ∧
    (∀ d', (∀ s ∈ known, ∀ p ∈ s.packages, d'.production.get? p = d.production.get? p ∧
        d'.development.get? p = d.development.get? p) → detectFrameworks d' = detectFrameworks d) ∧
    ∀ d' package version, d.MovesTo d' package version ∨ d'.MovesTo d package version →
      detectFrameworks d' = detectFrameworks d := by
  refine ⟨⟨(shown d).filter fun s => ¬ s.IsWhole d.version?, ?_, fun s => ?_,
    (pairwise_shown d).filter _⟩, fun s hs => IsWhole.isShown hs,
    fun s hs => ⟨hs.fraction_bounds.1, hs.fraction_bounds.2.1⟩, nodup_names d, fun d' h => ?_,
    fun d' package version h => ?_⟩
  · rw [← shown_eq, detectFrameworks_eq, List.forall₂_map_right_iff, List.forall₂_same]
    exact fun s hs => isRecord_found (mem_shown.mp hs).1 (mem_shown.mp hs).2
  · rw [List.mem_filter, mem_shown, decide_eq_true_iff, and_assoc]
  · exact detectFrameworks_congr fun s hs p hp => by
      rw [Dependencies.version?, Dependencies.version?, (h s hs p hp).1, (h s hs p hp).2]
  · refine detectFrameworks_congr fun s _ p _ => ?_
    rcases h with h | h
    · exact h.version?_eq p
    · exact (h.version?_eq p).symm

/-- Dependencies that name a package with a version for production and an empty one for development,
and the same with another package moved to production. -/
def mixedDependencies : Dependencies where
  production := .ofList [("react", "^18.2.0"), ("react-dom", "18")]
  development := .ofList [("react-dom", ""), ("vue", "workspace")]
  peer := .ofList [("koa", "2")]
@[inherit_doc mixedDependencies]
def movedDependencies : Dependencies where
  production := .ofList [("react", "^18.2.0"), ("react-dom", "18"), ("vue", "workspace")]
  development := .ofList [("react-dom", "")]
  peer := .empty

/-- Only half of the packages of the framework that comes first in the table have a version. -/
theorem detectFrameworks_spec_mixed :
    (detectFrameworks mixedDependencies).map (·.name) = ["vue", "react"] ∧
    movedDependencies.MovesTo mixedDependencies "vue" "workspace" ∧
    detectFrameworks movedDependencies = detectFrameworks mixedDependencies := by
  obtain ⟨⟨partly, hrecords, hmem, hpair⟩, -, -, -, -, hmoves⟩ :=
    detectFrameworks_spec mixedDependencies
  have hwhole : (known.filter fun s => s.IsWhole mixedDependencies.version?).map (·.name) =
      ["vue"] := by
    decide +kernel
  have hpartly : (known.filter fun s => s.IsShown mixedDependencies.version? ∧
      ¬ s.IsWhole mixedDependencies.version?) = [⟨"react", ["react", "react-dom"], .frontend⟩] := by
    decide +kernel
  have hone : partly = [⟨"react", ["react", "react-dom"], .frontend⟩] := by
    have hnodup : partly.Nodup := hpair.imp fun {s t} h heq => by
      subst heq
      rcases h with h | ⟨-, h⟩
      · exact lt_irrefl _ h
      · have hknown : known.Nodup := by decide
        simpa using hknown.sublist h
    refine List.perm_singleton.mp ?_
    rw [List.perm_ext_iff_of_nodup hnodup (List.nodup_singleton _)]
    intro s
    rw [hmem, ← hpartly, List.mem_filter, decide_eq_true_iff]
  have hmoved : movedDependencies.MovesTo mixedDependencies "vue" "workspace" := by
    refine ⟨by decide +kernel, by decide +kernel, by decide +kernel, by decide +kernel,
      fun p hp => ?_⟩
    simp [mixedDependencies, movedDependencies, Dict.get?_ofList, Json.lookup_cons_eq_ite, hp]
  refine ⟨?_, hmoved, hmoves _ "vue" "workspace" (.inr hmoved)⟩
  rw [map_name_of_isRecord hrecords, hone, List.map_append, hwhole]
  rfl

end CodeSurvey
