import CodeSurvey.Discovery
import CodeSurvey.Proofs.FileTree
import Mathlib.Data.List.Sort

/-! # The source files of a tree

The walk of a discovery lists places of files (`Discovery.placesIn`).  In a well-formed tree
these are characterized without the walk:

* `mem_placesIn`: they are the places of files to which the names of a source place lead, a
  property of the names alone (`IsSourcePlace`);
* `pairwise_placesIn`: they come in the lexicographic order of their names;
* `placesIn_congr`: so they do not depend on what the files hold, nor on the order in which a
  directory lists its entries. -/

namespace CodeSurvey
namespace Discovery

open FileTree (WellFormed Kind)

/-- The places of the source files in a tree, in the order in which they are found. -/
def placesIn (t : FileTree) : List (List RawText) := inOrder (inEntries t.entries)

theorem sourcesIn_eq (t : FileTree) : sourcesIn t = (placesIn t).map Path.ofNames := rfl

/-- Whether a file to which these names lead is a source file of a project: its own name has
the extension of one, no name is hidden, and no directory on the way is one that is not
entered. -/
structure IsSourcePlace (names : List RawText) : Prop where
  source : ∃ n, names.getLast? = some n ∧ isSource n = true
  visible : ∀ n ∈ names, isHidden n = false
  entered : ∀ n ∈ names.dropLast, isSkipped n = false

theorem not_isSourcePlace_nil : ¬ IsSourcePlace [] := by
  intro h
  obtain ⟨n, hn, -⟩ := h.source
  cases hn

theorem IsSourcePlace.ne_nil {names : List RawText} (h : IsSourcePlace names) : names ≠ [] := by
  rintro rfl
  exact not_isSourcePlace_nil h

theorem isSourcePlace_singleton {n : RawText} :
    IsSourcePlace [n] ↔ isHidden n = false ∧ isSource n = true := by
  constructor
  · rintro ⟨⟨m, hm, hs⟩, hv, -⟩
    simp only [List.getLast?_singleton, Option.some.injEq] at hm
    exact ⟨hv n (by simp), hm ▸ hs⟩
  · rintro ⟨hv, hs⟩
    exact ⟨⟨n, rfl, hs⟩, by simpa using hv, by simp⟩

theorem isSourcePlace_cons_cons {n m : RawText} {ms : List RawText} :
    IsSourcePlace (n :: m :: ms) ↔
      isHidden n = false ∧ isSkipped n = false ∧ IsSourcePlace (m :: ms) := by
  constructor
  · rintro ⟨hs, hv, he⟩
    rw [List.getLast?_cons_cons] at hs
    rw [List.forall_mem_cons] at hv
    rw [List.dropLast_cons_cons, List.forall_mem_cons] at he
    exact ⟨hv.1, he.1, hs, hv.2, he.2⟩
  · rintro ⟨hv, he, hs, hvs, hes⟩
    refine ⟨?_, List.forall_mem_cons.mpr ⟨hv, hvs⟩, ?_⟩
    · rwa [List.getLast?_cons_cons]
    · rw [List.dropLast_cons_cons]
      exact List.forall_mem_cons.mpr ⟨he, hes⟩

/-! ### Membership -/

theorem inEntries_eq (es : List (RawText × FileTree)) :
    inEntries es = es.map fun e => (e.1, if isHidden e.1 then [] else inEntry e.1 e.2) := by
  induction es with
  | nil => rw [inEntries, List.map_nil]
  | cons e rest ih =>
      obtain ⟨n, t⟩ := e
      rw [inEntries, ih, List.map_cons]

theorem inEntry_directory (n : RawText) (es : List (RawText × FileTree)) :
    inEntry n (.directory es) =
      if isSkipped n then [] else (placesIn (.directory es)).map (n :: ·) := by
  rw [inEntry]
  rfl

/-- The places in an entry begin with its name. -/
theorem inEntry_begins {n : RawText} {t : FileTree} {names : List RawText}
    (h : names ∈ inEntry n t) : ∃ rest, names = n :: rest := by
  cases t with
  | file =>
      rw [inEntry] at h
      split at h
      · exact ⟨[], by simpa using h⟩
      · simp at h
  | link =>
      rw [inEntry] at h
      simp at h
  | directory es =>
      rw [inEntry_directory] at h
      split at h
      · simp at h
      · obtain ⟨rest, -, rfl⟩ := List.mem_map.mp h
        exact ⟨rest, rfl⟩

theorem mem_inOrder {found : List (RawText × List (List RawText))} {names : List RawText} :
    names ∈ inOrder found ↔ ∃ e ∈ found, names ∈ e.2 := by
  simp only [inOrder, List.mem_flatMap, List.mem_mergeSort]

/-- The places in a tree that begin with a name are those in the entry of that name. -/
theorem cons_mem_placesIn {t : FileTree} (ht : t.WellFormed) {n : RawText} {rest : List RawText} :
    n :: rest ∈ placesIn t ↔
      isHidden n = false ∧ ∃ c, t.entries.lookup n = some c ∧ n :: rest ∈ inEntry n c := by
  rw [placesIn, mem_inOrder, inEntries_eq]
  constructor
  · rintro ⟨e, he, hmem⟩
    obtain ⟨⟨m, c⟩, hc, rfl⟩ := List.mem_map.mp he
    simp only at hmem
    split at hmem
    next => simp at hmem
    next hv =>
        obtain ⟨rest', hn⟩ := inEntry_begins hmem
        obtain ⟨rfl, rfl⟩ := List.cons.inj hn
        exact ⟨by simpa using hv, c, FileTree.lookup_of_mem ht.distinct hc, hmem⟩
  · rintro ⟨hv, c, hc, hmem⟩
    refine ⟨_, List.mem_map.mpr ⟨(n, c), FileTree.mem_of_lookup hc, rfl⟩, ?_⟩
    simpa [hv] using hmem

/-- The walk finds the files to which the names of a source place lead, and nothing else. -/
theorem mem_placesIn {t : FileTree} (ht : t.WellFormed) {names : List RawText} :
    names ∈ placesIn t ↔ t.kindAt names = some .file ∧ IsSourcePlace names := by
  induction names generalizing t with
  | nil =>
      simp only [not_isSourcePlace_nil, and_false, iff_false]
      intro h
      rw [placesIn, mem_inOrder, inEntries_eq] at h
      obtain ⟨e, he, hmem⟩ := h
      obtain ⟨⟨m, c⟩, -, rfl⟩ := List.mem_map.mp he
      simp only at hmem
      split at hmem
      · simp at hmem
      · obtain ⟨rest, hn⟩ := inEntry_begins hmem
        cases hn
  | cons n rest ih =>
      rw [cons_mem_placesIn ht, FileTree.kindAt_cons]
      cases hc : t.entries.lookup n with
      | none => simp
      | some c =>
          have hw : c.WellFormed := (ht.of_lookup hc).2
          simp only [Option.some.injEq, exists_eq_left', Option.bind_some]
          cases c with
          | file =>
              rw [inEntry]
              cases rest with
              | nil => simp [isSourcePlace_singleton, FileTree.kindAt, FileTree.kind]
              | cons m ms => simp [FileTree.kindAt, FileTree.at?_cons, FileTree.entries]
          | link =>
              rw [inEntry]
              cases rest with
              | nil => simp [FileTree.kindAt, FileTree.kind]
              | cons m ms => simp [FileTree.kindAt, FileTree.at?_cons, FileTree.entries]
          | directory es =>
              rw [inEntry_directory]
              cases rest with
              | nil =>
                  have e : [] ∉ placesIn (.directory es) := fun h =>
                    not_isSourcePlace_nil ((ih hw).mp h).2
                  simp [e, FileTree.kindAt, FileTree.kind]
              | cons m ms =>
                  rw [isSourcePlace_cons_cons]
                  cases hs : isSkipped n with
                  | true => simp
                  | false =>
                      rw [if_neg Bool.false_ne_true,
                        List.mem_map_of_injective List.cons_injective, ih hw]
                      tauto

/-! ### Order -/

theorem map_fst_inEntries (es : List (RawText × FileTree)) :
    (inEntries es).map (·.1) = es.map (·.1) := by
  simp [inEntries_eq]

/-- Places that are ordered entry by entry come in the order of their names. -/
theorem pairwise_inOrder {found : List (RawText × List (List RawText))}
    (hd : (found.map (·.1)).Nodup) (hp : ∀ e ∈ found, e.2.Pairwise (· < ·))
    (hb : ∀ e ∈ found, ∀ names ∈ e.2, ∃ rest, names = e.1 :: rest) :
    (inOrder found).Pairwise (· < ·) := by
  rw [inOrder, List.pairwise_flatMap]
  refine ⟨fun e he => hp e (List.mem_mergeSort.mp he), ?_⟩
  have trans : ∀ a b c : RawText × List (List RawText),
      decide (a.1 ≤ b.1) → decide (b.1 ≤ c.1) → decide (a.1 ≤ c.1) := by
    simpa using fun a b c => Std.le_trans
  have total : ∀ a b : RawText × List (List RawText), decide (a.1 ≤ b.1) || decide (b.1 ≤ a.1) := by
    simpa using fun a b => Std.le_total
  have hle := List.pairwise_mergeSort trans total found
  have hne : (found.mergeSort fun a b => a.1 ≤ b.1).Pairwise fun a b => a.1 ≠ b.1 :=
    List.pairwise_map.mp ((((List.mergeSort_perm found _).map _).nodup_iff).mpr hd)
  refine (hle.and hne).imp_of_mem ?_
  rintro a b ha hb' ⟨hab, hab'⟩ x hx y hy
  obtain ⟨xs, rfl⟩ := hb a (List.mem_mergeSort.mp ha) x hx
  obtain ⟨ys, rfl⟩ := hb b (List.mem_mergeSort.mp hb') y hy
  rw [List.cons_lt_cons_iff]
  exact .inl (Std.lt_of_le_of_ne (by simpa using hab) hab')

/-- The places come in the lexicographic order of their names. -/
theorem pairwise_placesIn {t : FileTree} (ht : t.WellFormed) :
    (placesIn t).Pairwise (· < ·) := by
  induction ht with
  | file => simp [placesIn, FileTree.entries, inEntries_eq, inOrder]
  | link => simp [placesIn, FileTree.entries, inEntries_eq, inOrder]
  | @directory es distinct named inner ih =>
      refine pairwise_inOrder ?_ ?_ ?_
      · rw [map_fst_inEntries]
        exact distinct
      · intro e he
        rw [inEntries_eq] at he
        obtain ⟨⟨n, c⟩, hc, rfl⟩ := List.mem_map.mp he
        have hpc := ih _ hc
        simp only
        split
        · exact .nil
        · cases c with
          | file => rw [inEntry]; split <;> simp
          | link => rw [inEntry]; exact .nil
          | directory =>
              rw [inEntry_directory]
              split
              · exact .nil
              · rw [List.pairwise_map]
                exact hpc.imp fun h => List.cons_lt_cons_iff.mpr (.inr ⟨rfl, h⟩)
      · intro e he names hn
        rw [inEntries_eq] at he
        obtain ⟨⟨n, c⟩, -, rfl⟩ := List.mem_map.mp he
        simp only at hn
        split at hn
        · simp at hn
        · exact inEntry_begins hn

theorem nodup_placesIn {t : FileTree} (ht : t.WellFormed) : (placesIn t).Nodup := by
  refine (pairwise_placesIn ht).imp ?_
  rintro names _ h rfl
  exact List.lt_irrefl names h

/-- Trees with the same files, links and directories have the same source files. -/
theorem placesIn_congr {t u : FileTree} (ht : t.WellFormed) (hu : u.WellFormed)
    (h : ∀ loc, t.kindAt loc = u.kindAt loc) : placesIn t = placesIn u := by
  refine (pairwise_placesIn ht).eq_of_mem_iff (pairwise_placesIn hu) ?_
  intro names
  rw [mem_placesIn ht, mem_placesIn hu, h]

/-! ### Paths -/

theorem isName_of_mem_placesIn {t : FileTree} (ht : t.WellFormed) {names : List RawText}
    (h : names ∈ placesIn t) : ∀ n ∈ names, Path.IsName n := by
  obtain ⟨content, hc⟩ := FileTree.kindAt_eq_file_iff.mp ((mem_placesIn ht).mp h).1
  exact (ht.at? hc).2

theorem nodup_sourcesIn {t : FileTree} (ht : t.WellFormed) : (sourcesIn t).Nodup := by
  rw [sourcesIn_eq]
  refine (nodup_placesIn ht).map_on ?_
  intro ms hm ns hn h
  exact Path.ofNames_inj (isName_of_mem_placesIn ht hm) (isName_of_mem_placesIn ht hn) h

end Discovery
end CodeSurvey
