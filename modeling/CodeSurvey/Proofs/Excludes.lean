import CodeSurvey.Discovery
import Mathlib.Data.List.Basic
import Mathlib.Data.List.Flatten

/-! # What patterns exclude

The patterns of a discovery act together with those that always apply, as one set of globs.

* A text that is no glob is passed over, and all others still count (`value_readPatterns`).
* The set is built unless one of its globs is nested too deeply or the memory of the compiler
  does not suffice for it (`fault?_eq_none_iff`).  It suffices for short globs, so that the
  default patterns alone make a set (`compiles_nil`); a choice in 250 braces is too deep for any
  (`not_compiles_nestedText`).
* If the set is not built, nothing at all is excluded (`value_excludes`).

So a discovery leaves out what some usable pattern fits, except that a single glob that is
nested too deeply or takes too much memory brings back even the files that are always excluded
(`discover_value_spec`). -/

namespace CodeSurvey

namespace Glob

/-- Whether a glob needs a regular expression that is nested too deeply. -/
def isTooDeep (g : Glob) : Bool := !isSimple g.pieces && GlobSet.isDeep g

theorem textLength_le_of_sublist {gs globs : List Glob} (h : gs.Sublist globs) :
    textLength gs ≤ textLength globs :=
  (h.flatMap fun g => g.text.toList).length_le

end Glob

namespace GlobSet

theorem mem_compiled {globs : List Glob} {g : Glob} :
    g ∈ (compiled globs).1 ∨ g ∈ (compiled globs).2 ↔
      g ∈ globs ∧ Glob.isSimple g.pieces = false := by
  rw [compiled, List.partition_eq_filter_filter]
  cases h : Glob.endsInExtension g.pieces <;> simp [h]

variable [Glob.Compiler] {globs : List Glob}

theorem extendedFault?_eq_none_iff {g : Glob} :
    extendedFault? g = none ↔ isDeep g = false ∧ Glob.Compiler.fits [g] := by
  unfold extendedFault?
  cases isDeep g <;> cases Glob.Compiler.fits [g] <;> simp

theorem othersFault?_eq_none_iff :
    othersFault? globs = none ↔ (∀ g ∈ globs, isDeep g = false) ∧ Glob.Compiler.fits globs := by
  rw [← List.findIdx?_eq_none_iff, othersFault?]
  cases globs.findIdx? isDeep <;> cases Glob.Compiler.fits globs <;> simp

/-- Globs make a set if none of them is too deep and there is memory enough for each one with a
fixed extension, and for all others together. -/
theorem fault?_eq_none_iff (globs : List Glob) :
    fault? globs = none ↔ (∀ g ∈ globs, g.isTooDeep = false) ∧
      (∀ g ∈ (compiled globs).1, Glob.Compiler.fits [g]) ∧
      Glob.Compiler.fits (compiled globs).2 := by
  have hdeep : (∀ g ∈ globs, g.isTooDeep = false) ↔
      (∀ g ∈ (compiled globs).1, isDeep g = false) ∧
        ∀ g ∈ (compiled globs).2, isDeep g = false := by
    rw [← forall₂_or_left]
    simp only [mem_compiled, and_imp, Glob.isTooDeep]
    refine forall₂_congr fun g _ => ?_
    cases Glob.isSimple g.pieces <;> simp
  rw [fault?, Option.or_eq_none_iff, List.findSome?_eq_none_iff, othersFault?_eq_none_iff, hdeep]
  simp only [extendedFault?_eq_none_iff, forall_and]
  tauto

/-- Short globs that are not too deep make a set. -/
theorem fault?_of_short (hd : ∀ g ∈ globs, g.isTooDeep = false)
    (hs : Glob.textLength globs ≤ 1000) : fault? globs = none := by
  have short : ∀ {gs : List Glob}, gs.Sublist globs → Glob.Compiler.fits gs := fun h =>
    Glob.Compiler.fits_of_short _ (Nat.le_trans (Glob.textLength_le_of_sublist h) hs)
  have hsub : (globs.filter fun g => !Glob.isSimple g.pieces).Sublist globs := List.filter_sublist
  rw [fault?_eq_none_iff, compiled, List.partition_eq_filter_filter]
  refine ⟨hd, ?_, short (List.filter_sublist.trans hsub)⟩
  intro g hg
  exact short ((List.singleton_sublist.mpr hg).trans (List.filter_sublist.trans hsub))

end GlobSet

/-! ### Nested choices -/

namespace Glob

/-- A letter in choices of a single glob each. -/
def Piece.nested : Nat → Piece
  | 0 => .literal 'a'
  | n + 1 => .choice [[nested n]]

/-- The text of a letter between braces. -/
def nestedText (n : Nat) : String :=
  String.ofList (List.replicate n '\x7b' ++ 'a' :: List.replicate n '\x7d')

theorem readPieces_open (n fuel : Nat) (before : Option Char) (outer : List Branches)
    (cs : List Char) :
    ∃ last, readPieces (n + fuel) before outer .none (List.replicate n '\x7b' ++ cs) =
      readPieces fuel last (List.replicate n .none ++ outer) .none cs := by
  induction n generalizing before outer with
  | zero => exact ⟨before, by simp⟩
  | succ n ih =>
      obtain ⟨last, h⟩ := ih (some '\x7b') (.none :: outer)
      refine ⟨last, ?_⟩
      rw [Nat.succ_add, List.replicate_succ, List.cons_append, readPieces, h,
        List.replicate_succ', List.append_assoc]
      rfl

theorem readPieces_close (n k fuel : Nat) (before : Option Char) :
    readPieces (n + (fuel + 1)) before (List.replicate n .none) (Branches.none.push (.nested k))
      (List.replicate n '\x7d') = .ok [.nested (n + k)] := by
  induction n generalizing k before with
  | zero => rw [Nat.zero_add, Nat.zero_add]; rfl
  | succ n ih =>
      have e : (Branches.none.push (.nested k)).piece = .nested (k + 1) := rfl
      rw [Nat.succ_add, List.replicate_succ, List.replicate_succ, readPieces]
      simp only [e]
      rw [ih (k + 1)]
      congr 3
      omega

theorem readPieces_letter (fuel : Nat) (before : Option Char) (outer : List Branches)
    (here : Branches) (cs : List Char) :
    readPieces (fuel + 1) before outer here ('a' :: cs) =
      readPieces fuel (some 'a') outer (here.push (.literal 'a')) cs := by
  rw [readPieces] <;> decide

theorem parse_nestedText (n : Nat) : parse (nestedText n) = .ok ⟨nestedText n, [.nested n]⟩ := by
  have hlen : (nestedText n).toList.length + 1 = n + (n + (0 + 1) + 1) := by
    simp [nestedText]
    omega
  have hread : readPieces (n + (n + (0 + 1) + 1)) none [] .none (nestedText n).toList =
      .ok [.nested n] := by
    obtain ⟨last, h⟩ := readPieces_open n (n + (0 + 1) + 1) none [] ('a' :: List.replicate n '\x7d')
    rw [nestedText, String.toList_ofList, h, List.append_nil, readPieces_letter]
    have e : (Branches.none.push (.literal 'a')) = Branches.none.push (.nested 0) := rfl
    rw [e, readPieces_close, Nat.add_zero]
  unfold parse
  simp only [hlen, hread]
  rfl

theorem isEmpty_nested (n : Nat) : (Piece.nested n).isEmpty = false := by
  induction n with
  | zero => rfl
  | succ n ih => simp [Piece.nested, Piece.isEmpty, allEmpty, isEmpty, ih]

theorem width_nested (n : Nat) : (Piece.nested n).width = 1 := by
  cases n with
  | zero => decide
  | succ n => simp [Piece.nested, Piece.width, allEmpty, isEmpty, isEmpty_nested]

/-- Each pair of braces adds one to the nesting. -/
theorem nesting_nested (n : Nat) : (Piece.nested n).nesting = n := by
  induction n with
  | zero => rfl
  | succ n ih =>
      simp [Piece.nested, Piece.nesting, allEmpty, isEmpty, isEmpty_nested, countBranches,
        branchNesting, widthOf, deepest, width_nested, inSequence, ih]
      omega

theorem isTooDeep_nested (text : String) (n : Nat) :
    (Glob.mk text [.nested n]).isTooDeep = decide (250 ≤ n) := by
  cases n with
  | zero => rfl
  | succ n =>
      have hs : isSimple [.nested (n + 1)] = false := rfl
      have hn : (Glob.mk text [.nested (n + 1)]).nesting = n + 2 := by
        simp [nesting, deepest, nesting_nested]
        omega
      rw [isTooDeep, GlobSet.isDeep, hs, hn, mostNesting]
      simp
      omega

end Glob

namespace Discovery

/-! ### Usable patterns -/

/-- The globs that patterns spell; a text that spells none is passed over. -/
def usable (patterns : List String) : List Glob :=
  patterns.filterMap fun p => (Glob.parse p).toOption

/-- Whether no usable pattern fits a path. -/
def spares (patterns : List String) (path : String) : Bool := !(usable patterns).any (·.fits path)

theorem usable_append (ps qs : List String) : usable (ps ++ qs) = usable ps ++ usable qs :=
  List.filterMap_append

theorem spares_append (ps qs : List String) (path : String) :
    spares (ps ++ qs) path = (spares ps path && spares qs path) := by
  simp [spares, usable_append]

theorem mem_usable_congr {ps qs : List String} (h : ∀ p, p ∈ ps ↔ p ∈ qs) (g : Glob) :
    g ∈ usable ps ↔ g ∈ usable qs := by
  simp only [usable, List.mem_filterMap, h]

theorem spares_congr {ps qs : List String} (h : ∀ p, p ∈ ps ↔ p ∈ qs) : spares ps = spares qs := by
  funext path
  unfold spares
  congr 1
  rw [Bool.eq_iff_iff, List.any_eq_true, List.any_eq_true]
  simp only [mem_usable_congr h]

/-- The globs of the patterns that always apply are neither deep nor long. -/
theorem usable_defaultExcludes :
    (∀ g ∈ usable defaultExcludes, g.isTooDeep = false) ∧
      Glob.textLength (usable defaultExcludes) ≤ 100 := by
  have hd : (usable defaultExcludes).all (fun g => !g.isTooDeep) = true := by cbv
  have hl : decide (Glob.textLength (usable defaultExcludes) ≤ 100) = true := by cbv
  exact ⟨by simpa using hd, of_decide_eq_true hl⟩

@[simp] theorem value_readPatterns : ∀ patterns, (readPatterns patterns).value = usable patterns
  | [] => rfl
  | p :: rest => by
      have ih := value_readPatterns rest
      cases h : Glob.parse p with
      | ok g => simp [readPatterns, usable, h, Except.toOption, ih]
      | error e => simp [readPatterns, usable, h, Except.toOption, ih]

/-! ### The set -/

variable [Glob.Compiler]

/-- The globs that patterns make together with those that always apply, as far as these are
compiled: those with a fixed extension, and the others. -/
def compiledOf (patterns : List String) : List Glob × List Glob :=
  GlobSet.compiled (usable (defaultExcludes ++ patterns))

/-- Whether patterns make a set together with those that always apply. -/
def compiles (patterns : List String) : Bool :=
  (GlobSet.fault? (usable (defaultExcludes ++ patterns))).isNone

theorem compiles_iff (patterns : List String) :
    compiles patterns ↔ (∀ g ∈ usable patterns, g.isTooDeep = false) ∧
      (∀ g ∈ (compiledOf patterns).1, Glob.Compiler.fits [g]) ∧
      Glob.Compiler.fits (compiledOf patterns).2 := by
  rw [compiles, Option.isNone_iff_eq_none, GlobSet.fault?_eq_none_iff, compiledOf]
  refine and_congr_left fun _ => ?_
  rw [usable_append, List.forall_mem_append]
  exact and_iff_right usable_defaultExcludes.1

/-- Short patterns that are not too deep make a set. -/
theorem compiles_of_short {patterns : List String}
    (hd : ∀ g ∈ usable patterns, g.isTooDeep = false)
    (hs : Glob.textLength (usable patterns) ≤ 900) : compiles patterns := by
  rw [compiles, Option.isNone_iff_eq_none, usable_append]
  apply GlobSet.fault?_of_short
  · rw [List.forall_mem_append]
    exact ⟨usable_defaultExcludes.1, hd⟩
  · have h := usable_defaultExcludes.2
    rw [Glob.textLength] at h hs ⊢
    rw [List.flatMap_append, List.length_append]
    omega

theorem compiles_nil : compiles [] :=
  compiles_of_short (by simp [usable]) (by simp [usable, Glob.textLength])

/-- The set that is built holds all usable patterns; without it nothing is excluded. -/
theorem value_excludes (patterns : List String) :
    (excludes patterns).value =
      if compiles patterns then ⟨usable (defaultExcludes ++ patterns)⟩ else .empty := by
  unfold excludes compiles
  simp only [Logged.value_bind, value_readPatterns, GlobSet.ofGlobs]
  cases h : GlobSet.fault? (usable (defaultExcludes ++ patterns)) with
  | none => simp
  | some e => simp

/-- A letter in 250 braces makes no set with any patterns. -/
theorem not_compiles_nestedText {patterns : List String} {n : Nat} (hn : 250 ≤ n)
    (h : Glob.nestedText n ∈ patterns) : ¬ compiles patterns := by
  rw [compiles_iff]
  rintro ⟨hd, -⟩
  have hg : Glob.mk (Glob.nestedText n) [.nested n] ∈ usable patterns := by
    rw [usable, List.mem_filterMap]
    exact ⟨_, h, by rw [Glob.parse_nestedText]; rfl⟩
  have e := hd _ hg
  rw [Glob.isTooDeep_nested, decide_eq_false_iff_not] at e
  exact e hn

/-- In fewer it makes one. -/
theorem compiles_nestedText (n : Nat) : compiles [Glob.nestedText n] ↔ n < 250 := by
  constructor
  · intro h
    by_contra hn
    exact not_compiles_nestedText (Nat.not_lt.mp hn) List.mem_cons_self h
  · intro hn
    have hu : usable [Glob.nestedText n] = [⟨Glob.nestedText n, [.nested n]⟩] := by
      simp [usable, Glob.parse_nestedText, Except.toOption]
    apply compiles_of_short
    · simpa [hu, Glob.isTooDeep_nested] using hn
    · have hl : (Glob.nestedText n).length = n + (1 + n) := by
        rw [Glob.nestedText, String.length_ofList]
        simp [Nat.add_comm 1]
      simp only [hu, Glob.textLength, List.flatMap_singleton, String.length_toList, hl]
      omega

/-! ### Discovery -/

/-- The source files of a project before any is excluded. -/
def sources (fs : FileSystem) (root : RawText) : List RawText :=
  (sourcesAt fs root).toOption.getD []

theorem value_discover (fs : FileSystem) (root : RawText) (patterns : List String) :
    (discover fs root patterns).value =
      (sources fs root).filter fun path =>
        !(excludes patterns).value.fits (Path.normalize path) := by
  unfold discover sources
  cases h : sourcesAt fs root with
  | ok found => simp [Except.toOption]
  | error e => simp [Except.toOption]

/-- If the patterns make a set, what is found is what no usable pattern fits. -/
theorem value_discover_of_compiles (fs : FileSystem) (root : RawText) {patterns : List String}
    (h : compiles patterns) :
    (discover fs root patterns).value =
      (sources fs root).filter fun path =>
        spares (defaultExcludes ++ patterns) (Path.normalize path) := by
  rw [value_discover, value_excludes, if_pos h]
  rfl

/-- If the patterns make no set, everything is found. -/
theorem value_discover_of_not_compiles (fs : FileSystem) (root : RawText) {patterns : List String}
    (h : ¬ compiles patterns) : (discover fs root patterns).value = sources fs root := by
  rw [value_discover, value_excludes, if_neg h]
  simp [GlobSet.fits, GlobSet.empty]

theorem filter_spares_discover_nil (fs : FileSystem) (root : RawText) (patterns : List String) :
    ((discover fs root []).value.filter fun path => spares patterns (Path.normalize path)) =
      (sources fs root).filter fun path =>
        spares (defaultExcludes ++ patterns) (Path.normalize path) := by
  rw [value_discover_of_compiles fs root compiles_nil, List.filter_filter, List.append_nil]
  apply List.filter_congr
  intro path _
  rw [spares_append, Bool.and_comm]

/-- Patterns that spell the same globs find the same files. -/
theorem discover_congr (fs : FileSystem) (root : RawText) {patterns others : List String}
    (hc : compiles others ↔ compiles patterns)
    (hs : spares (defaultExcludes ++ others) = spares (defaultExcludes ++ patterns)) :
    (discover fs root others).value = (discover fs root patterns).value := by
  by_cases h : compiles patterns
  · rw [value_discover_of_compiles fs root h, value_discover_of_compiles fs root (hc.mpr h), hs]
  · rw [value_discover_of_not_compiles fs root h,
      value_discover_of_not_compiles fs root (fun h' => h (hc.mp h'))]

/-- What a discovery with patterns finds.  It is what a discovery without patterns finds, less
the files that a usable pattern fits, if the patterns make a set, and all source files if they
do not; so it falls short of the former exactly if the patterns make no set while some source
file is to be excluded.  They make a set unless some glob is too deep, as a letter in 250 braces
is, or takes too much memory, by itself or together with the others.  Texts that are no globs make
no difference, nor do order and repetition of patterns unless they change whether a set is made,
and further patterns add no file as long as all patterns together make a set. -/
theorem discover_value_spec (fs : FileSystem) (root : RawText) (patterns : List String) :
    ((discover fs root patterns).value =
      if compiles patterns then
        (discover fs root []).value.filter fun path => spares patterns (Path.normalize path)
      else sources fs root) ∧
    (compiles patterns ↔ (∀ g ∈ usable patterns, g.isTooDeep = false) ∧
      (∀ g ∈ (compiledOf patterns).1, Glob.Compiler.fits [g]) ∧
      Glob.Compiler.fits (compiledOf patterns).2) ∧
    ((discover fs root patterns).value =
        ((discover fs root []).value.filter fun path => spares patterns (Path.normalize path)) ↔
      compiles patterns ∨
        ∀ path ∈ sources fs root, spares (defaultExcludes ++ patterns) (Path.normalize path)) ∧
    (∀ others, usable others = usable patterns →
      (discover fs root others).value = (discover fs root patterns).value) ∧
    (∀ others, (∀ p, p ∈ others ↔ p ∈ patterns) → (compiles others ↔ compiles patterns) →
      (discover fs root others).value = (discover fs root patterns).value) ∧
    (∀ more, compiles (patterns ++ more) →
      (discover fs root (patterns ++ more)).value.Sublist (discover fs root patterns).value) ∧
    (∀ n, 250 ≤ n → Glob.nestedText n ∈ patterns → ¬ compiles patterns) ∧
    (∀ n, compiles [Glob.nestedText n] ↔ n < 250) := by
  refine ⟨?_, compiles_iff patterns, ?_, ?_, ?_, ?_, fun n hn => not_compiles_nestedText hn,
    compiles_nestedText⟩
  · by_cases h : compiles patterns
    · rw [if_pos h, value_discover_of_compiles fs root h, filter_spares_discover_nil]
    · rw [if_neg h, value_discover_of_not_compiles fs root h]
  · rw [filter_spares_discover_nil]
    by_cases h : compiles patterns
    · simp [h, value_discover_of_compiles fs root h]
    · rw [value_discover_of_not_compiles fs root h, eq_comm, List.filter_eq_self]
      simp [h]
  · intro others ho
    have hall : usable (defaultExcludes ++ others) = usable (defaultExcludes ++ patterns) := by
      rw [usable_append, usable_append, ho]
    refine discover_congr fs root ?_ ?_
    · rw [compiles, compiles, hall]
    · funext path
      rw [spares, spares, hall]
  · intro others ho hc
    refine discover_congr fs root hc (spares_congr fun p => ?_)
    rw [List.mem_append, List.mem_append, ho]
  · intro more hc
    rw [value_discover_of_compiles fs root hc]
    by_cases h : compiles patterns
    · rw [value_discover_of_compiles fs root h, ← List.append_assoc]
      apply List.monotone_filter_right
      intro path hp
      rw [spares_append, Bool.and_eq_true] at hp
      exact hp.1
    · rw [value_discover_of_not_compiles fs root h]
      exact List.filter_sublist

end Discovery

end CodeSurvey
