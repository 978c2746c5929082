import CodeSurvey.Proofs.SourceFiles
import Mathlib

/-! # The order of discovered files

Paths are ordered component by component, and names by their bytes, which for texts is the order
of their characters (`Path.Before`, `RawText.ofText_lt_iff`).  For paths of names that is the order
in which the walk of a tree finds them (`before_ofNames`), though it is not that of their bytes:
`a/b.ts` comes before `a.ts`.

A directory may list its entries in another order (`FileTree.Relisted`); at each place of the
tree there is still the same (`Relisted.differOnlyAt`).

So, whatever is excluded, the files that are discovered come in the order of their paths, none
comes twice, and the order of listing makes no difference (`pairwise_discover`). -/

namespace CodeSurvey

/-! ### The order of paths -/

namespace Path

/-- The place of a kind of component among the kinds. -/
def Component.rank : Component → Nat
  | root => 0
  | current => 1
  | parent => 2
  | normal _ => 3

/-- The order of components: names by their bytes, and all else before names. -/
def Component.Before : Component → Component → Prop
  | normal m, normal n => m < n
  | c, d => c.rank < d.rank

/-- The order of paths: by the first component that is different, and a path before all that is
below it. -/
def Before (p q : RawText) : Prop := List.Lex Component.Before (components p) (components q)

theorem Component.Before.irrefl (c : Component) : ¬ c.Before c := by
  cases c with
  | normal n => exact Std.lt_irrefl
  | root => exact Nat.lt_irrefl 0
  | current => exact Nat.lt_irrefl 1
  | parent => exact Nat.lt_irrefl 2

theorem Before.ne {p q : RawText} (h : Before p q) : p ≠ q := by
  rintro rfl
  exact List.lex_irrefl Component.Before.irrefl (components p) h

/-- Paths of names come in the order of the names. -/
theorem before_ofNames {ms ns : List RawText} (hm : ∀ m ∈ ms, IsName m) (hn : ∀ n ∈ ns, IsName n)
    (h : ms < ns) : Before (ofNames ms) (ofNames ns) := by
  rw [Before, components_ofNames hm, components_ofNames hn]
  clear hm hn
  induction h with
  | nil => exact .nil
  | rel h => exact .rel h
  | cons _ ih => exact .cons ih

end Path

/-! ### Other listings -/

namespace FileTree

/-- The same tree, in which directories list their entries in another order. -/
inductive Relisted : FileTree → FileTree → Prop
  | refl (t : FileTree) : Relisted t t
  | trans {t u v : FileTree} (h : Relisted t u) (h' : Relisted u v) : Relisted t v
  | perm {es fs : List (RawText × FileTree)} (h : es.Perm fs) :
      Relisted (.directory es) (.directory fs)
  | inner {front rest : List (RawText × FileTree)} {n : RawText} {t u : FileTree}
      (h : Relisted t u) :
      Relisted (.directory (front ++ (n, t) :: rest)) (.directory (front ++ (n, u) :: rest))

theorem lookup_perm {es fs : List (RawText × FileTree)} (hd : (es.map (·.1)).Nodup)
    (h : es.Perm fs) (n : RawText) : es.lookup n = fs.lookup n := by
  have hd' : (fs.map (·.1)).Nodup := (h.map _).nodup_iff.mp hd
  ext t
  constructor
  · exact fun ht => lookup_of_mem hd' (h.mem_iff.mp (mem_of_lookup ht))
  · exact fun ht => lookup_of_mem hd (h.mem_iff.mpr (mem_of_lookup ht))

theorem WellFormed.perm {es fs : List (RawText × FileTree)} (h : es.Perm fs)
    (wf : WellFormed (.directory es)) : WellFormed (.directory fs) := by
  cases wf with
  | directory distinct named inner =>
      refine .directory ((h.map _).nodup_iff.mp distinct) ?_ ?_
      · exact fun e he => named e (h.mem_iff.mpr he)
      · exact fun e he => inner e (h.mem_iff.mpr he)

/-- Directories with the same entries, found by their names, have the same at their places. -/
theorem DifferOnlyAt.of_lookup {place : List RawText} {es fs : List (RawText × FileTree)}
    (h : ∀ n, es.lookup n = fs.lookup n ∨
      ∃ t u, es.lookup n = some t ∧ fs.lookup n = some u ∧ ∀ place, DifferOnlyAt place t u) :
    DifferOnlyAt place (.directory es) (.directory fs) := by
  constructor
  · intro loc
    cases loc with
    | nil => rfl
    | cons n ns =>
        rw [kindAt_cons, kindAt_cons, entries_directory, entries_directory]
        rcases h n with e | ⟨t, u, ht, hu, h⟩
        · rw [e]
        · rw [ht, hu, Option.bind_some, Option.bind_some, (h []).kindAt_eq]
  · intro loc _
    cases loc with
    | nil => rfl
    | cons n ns =>
        rw [contentAt_cons, contentAt_cons, entries_directory, entries_directory]
        rcases h n with e | ⟨t, u, ht, hu, h⟩
        · rw [e]
        · have hne : ns ≠ ("" : RawText) :: ns := List.ne_cons_self
          rw [ht, hu, Option.bind_some, Option.bind_some, (h _).contentAt_eq ns hne]

/-- Another listing of a well-formed tree has the same at every place. -/
theorem Relisted.differOnlyAt {t u : FileTree} (h : t.Relisted u) (wf : t.WellFormed) :
    u.WellFormed ∧ ∀ place, DifferOnlyAt place t u := by
  induction h with
  | refl t => exact ⟨wf, fun _ => ⟨fun _ => rfl, fun _ _ => rfl⟩⟩
  | trans _ _ ih ih' =>
      obtain ⟨wu, htu⟩ := ih wf
      obtain ⟨wv, huv⟩ := ih' wu
      refine ⟨wv, fun place => ⟨?_, ?_⟩⟩
      · exact fun loc => ((htu place).kindAt_eq loc).trans ((huv place).kindAt_eq loc)
      · exact fun loc hl =>
          ((htu place).contentAt_eq loc hl).trans ((huv place).contentAt_eq loc hl)
  | perm h => exact ⟨wf.perm h, fun _ => .of_lookup fun n => .inl (lookup_perm wf.distinct h n)⟩
  | @inner front rest n t u _ ih =>
      cases wf with
      | directory distinct named inner =>
          simp only [List.forall_mem_append, List.forall_mem_cons] at named inner
          obtain ⟨wu, htu⟩ := ih inner.2.1
          refine ⟨.directory ?_ ?_ ?_, fun _ => .of_lookup fun m => ?_⟩
          · simpa using distinct
          · simpa only [List.forall_mem_append, List.forall_mem_cons] using named
          · simp only [List.forall_mem_append, List.forall_mem_cons]
            exact ⟨inner.1, wu, inner.2.2⟩
          · rw [List.lookup_append, List.lookup_append]
            cases front.lookup m with
            | some c => exact .inl rfl
            | none =>
                by_cases hm : m = n
                · subst hm
                  exact .inr ⟨t, u, by simp, by simp, htu⟩
                · have hb : (m == n) = false := by simpa using hm
                  exact .inl (by rw [List.lookup_cons, List.lookup_cons, hb])

end FileTree

/-! ### Discovery -/

namespace Discovery

variable {fs : FileSystem}

theorem pairwise_sourcesIn {t : FileTree} (ht : t.WellFormed) :
    (sourcesIn t).Pairwise Path.Before := by
  rw [sourcesIn_eq, List.pairwise_map]
  refine (pairwise_placesIn ht).imp_of_mem ?_
  intro ms ns hm hn h
  exact Path.before_ofNames (isName_of_mem_placesIn ht hm) (isName_of_mem_placesIn ht hn) h

/-- Before any is excluded, the files come in the order of their paths. -/
theorem pairwise_sources (wf : fs.tree.WellFormed) (root : RawText) :
    (sources fs root).Pairwise Path.Before := by
  have hat : ∀ {follow : Bool} {loc : List RawText} {t : FileTree},
      fs.look follow root = .ok (loc, t) → t.WellFormed := fun h =>
    (wf.at? (FileSystem.look_eq_ok_iff.mp h).2).1
  unfold sources sourcesAt
  cases h : fs.look false root with
  | error e => exact .nil
  | ok found =>
      obtain ⟨loc, t⟩ := found
      cases t with
      | file =>
          simp only
          split
          · exact List.pairwise_singleton _ _
          · exact .nil
      | directory es => exact pairwise_sourcesIn (hat h)
      | link =>
          simp only
          cases h' : fs.look true root with
          | error e => exact .nil
          | ok found => exact pairwise_sourcesIn (hat h')

/-- The files that are discovered come in the order of their paths, and none comes twice, in
whatever order directories list their entries. -/
theorem pairwise_discover [Glob.Compiler] (fs : FileSystem) (root : RawText)
    (patterns : List String) (wf : fs.tree.WellFormed) :
    (discover fs root patterns).value.Pairwise Path.Before ∧
    (discover fs root patterns).value.Nodup ∧
    ∀ tree, fs.tree.Relisted tree →
      (discover { fs with tree } root patterns).value = (discover fs root patterns).value := by
  have hp : (discover fs root patterns).value.Pairwise Path.Before := by
    rw [value_discover]
    exact (pairwise_sources wf root).filter _
  refine ⟨hp, hp.imp Path.Before.ne, ?_⟩
  intro tree h
  obtain ⟨wt, hd⟩ := h.differOnlyAt wf
  have hfs : FileSystem.DifferOnlyAt [] fs { fs with tree } := ⟨hd [], rfl⟩
  rw [value_discover, value_discover, Survey.sources_congr wf wt hfs]

/-- A directory whose name is the beginning of that of a file, in a listing that is not sorted. -/
def besideFile : FileSystem where
  tree := .directory [("a.ts", .file ⟨#[]⟩), ("a", .directory [("b.ts", .file ⟨#[]⟩)])]
  here := []

theorem wellFormed_besideFile : besideFile.tree.WellFormed := by
  have inner : (FileTree.directory [("b.ts", .file ⟨#[]⟩)]).WellFormed :=
    .directory (by decide) (by decide) (by simp [FileTree.WellFormed.file])
  exact .directory (by decide) (by decide) (by simp [inner, FileTree.WellFormed.file])

/-- What is in the directory comes before the file, though its path is the greater text. -/
theorem pairwise_discover_besideFile :
    (discover besideFile "/" []).value = (["a/b.ts", "a.ts"] : List RawText) ∧
    (discover besideFile "/" []).value.Pairwise Path.Before ∧
    ("a.ts" : RawText) < "a/b.ts" := by
  have hs : sources besideFile "/" = (["a/b.ts", "a.ts"] : List RawText) := by cbv
  have hinner : spares (defaultExcludes ++ []) (Path.normalize "a/b.ts") = true := by cbv
  have houter : spares (defaultExcludes ++ []) (Path.normalize "a.ts") = true := by cbv
  refine ⟨?_, (pairwise_discover besideFile "/" [] wellFormed_besideFile).1, by decide⟩
  rw [value_discover_of_compiles besideFile "/" compiles_nil, hs, List.filter_eq_self,
    List.forall_mem_cons, List.forall_mem_singleton]
  exact ⟨hinner, houter⟩

end Discovery
end CodeSurvey
