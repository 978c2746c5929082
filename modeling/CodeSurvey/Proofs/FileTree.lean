import CodeSurvey.Files.Tree
import CodeSurvey.Proofs.Path

/-! # Well-formed file trees

In a file system every entry of a directory has a name, and no two entries of one directory
have the same (`FileTree.WellFormed`).  All that a tree says is then said by what lies at its
places:

* `FileTree.kindAt` tells whether that is a file, a link or a directory, and
  `FileTree.contentAt` what the bytes of a file are;
* two trees may differ in the bytes of a single file and in nothing else
  (`FileTree.DifferOnlyAt`), as they do after that file has got other bytes
  (`differOnlyAt_set`);
* a tree stays well-formed if anything in it is replaced by a well-formed tree, or taken away
  (`WellFormed.set`). -/

namespace CodeSurvey
namespace FileTree

/-- A tree in which all entries are named, and those of one directory differently. -/
inductive WellFormed : FileTree → Prop
  | file (content : ByteArray) : WellFormed (.file content)
  | link (target : RawText) : WellFormed (.link target)
  | directory {es : List (RawText × FileTree)} (distinct : (es.map (·.1)).Nodup)
      (named : ∀ e ∈ es, Path.IsName e.1) (inner : ∀ e ∈ es, WellFormed e.2) :
      WellFormed (.directory es)

/-! ### Entries -/

theorem mem_of_lookup {es : List (RawText × FileTree)} {n : RawText} {t : FileTree}
    (h : es.lookup n = some t) : (n, t) ∈ es := by
  obtain ⟨l, r, rfl, -⟩ := List.lookup_eq_some_iff.mp h
  simp

/-- Among entries with different names each is found by its name. -/
theorem lookup_of_mem {es : List (RawText × FileTree)} (hd : (es.map (·.1)).Nodup) {n : RawText}
    {t : FileTree} (h : (n, t) ∈ es) : es.lookup n = some t := by
  obtain ⟨l, r, rfl⟩ := List.append_of_mem h
  rw [List.lookup_eq_some_iff]
  refine ⟨l, r, rfl, ?_⟩
  intro e he
  rw [List.map_append, List.map_cons, List.nodup_append] at hd
  have := hd.2.2 e.1 (List.mem_map_of_mem he) n (by simp)
  simpa using fun h' => this h'.symm

theorem lookup_filter_ne {name n : RawText} (h : n ≠ name) (es : List (RawText × FileTree)) :
    (es.filter (·.1 != name)).lookup n = es.lookup n := by
  induction es with
  | nil => rfl
  | cons e rest ih =>
      by_cases he : e.1 = name
      · have hn : (n == e.1) = false := by simpa [he] using h
        rw [List.filter_cons_of_neg (by simp [he]), ih, List.lookup_cons, hn]
      · rw [List.filter_cons_of_pos (by simpa using he), List.lookup_cons, List.lookup_cons, ih]

theorem lookup_filter_self (name : RawText) (es : List (RawText × FileTree)) :
    (es.filter (·.1 != name)).lookup name = none := by
  rw [List.lookup_eq_none_iff]
  intro e he
  have hne := (List.mem_filter.mp he).2
  rw [bne_iff_ne] at hne
  simpa using hne.symm

theorem lookup_setEntry (name n : RawText) (t : FileTree) (es : List (RawText × FileTree)) :
    (setEntry name (some t) es).lookup n = if n = name then some t else es.lookup n := by
  have e : setEntry name (some t) es = es.filter (·.1 != name) ++ [(name, t)] := rfl
  rw [e, List.lookup_append]
  by_cases h : n = name
  · subst h
    simp [lookup_filter_self]
  · have hn : (n == name) = false := by simpa using h
    rw [if_neg h, lookup_filter_ne h, List.lookup_cons, hn]
    simp

theorem mem_setEntry {name : RawText} {o : Option FileTree} {es : List (RawText × FileTree)}
    {e : RawText × FileTree} (h : e ∈ setEntry name o es) : (∃ t ∈ o, e = (name, t)) ∨ e ∈ es := by
  rcases List.mem_append.mp h with h | h
  · exact .inr (List.mem_of_mem_filter h)
  · obtain ⟨t, ht, rfl⟩ := List.mem_map.mp h
    exact .inl ⟨t, Option.mem_toList.mp ht, rfl⟩

theorem nodup_setEntry (name : RawText) (o : Option FileTree) {es : List (RawText × FileTree)}
    (h : (es.map (·.1)).Nodup) : ((setEntry name o es).map (·.1)).Nodup := by
  unfold setEntry
  rw [List.map_append, List.map_map]
  refine List.nodup_append.mpr ⟨(List.filter_sublist.map _).nodup h, ?_, ?_⟩
  · cases o <;> simp
  · intro a ha b hb hab
    obtain ⟨e, he, rfl⟩ := List.mem_map.mp ha
    obtain ⟨t, -, rfl⟩ := List.mem_map.mp hb
    have hne := (List.mem_filter.mp he).2
    simp [hab] at hne

/-! ### Places -/

theorem entries_directory (es : List (RawText × FileTree)) : (directory es).entries = es := rfl

@[simp] theorem at?_nil (t : FileTree) : t.at? [] = some t := by cases t <;> rfl

theorem at?_cons (t : FileTree) (n : RawText) (ns : List RawText) :
    t.at? (n :: ns) = (t.entries.lookup n).bind fun c => c.at? ns := by cases t <;> rfl

theorem at?_append (t : FileTree) (place names : List RawText) :
    t.at? (place ++ names) = (t.at? place).bind fun u => u.at? names := by
  induction place generalizing t with
  | nil => simp
  | cons n ns ih =>
      rw [List.cons_append, at?_cons, at?_cons]
      cases t.entries.lookup n with
      | none => rfl
      | some c => exact ih c

theorem entries_of_lookup {t c : FileTree} {n : RawText} (h : t.entries.lookup n = some c) :
    t = .directory t.entries := by
  cases t with
  | file => simp [entries] at h
  | link => simp [entries] at h
  | directory => rfl

theorem WellFormed.distinct {t : FileTree} (ht : t.WellFormed) : (t.entries.map (·.1)).Nodup := by
  cases ht with
  | file => exact List.nodup_nil
  | link => exact List.nodup_nil
  | directory distinct => exact distinct

theorem WellFormed.of_lookup {t c : FileTree} (ht : t.WellFormed) {n : RawText}
    (hc : t.entries.lookup n = some c) : Path.IsName n ∧ c.WellFormed := by
  have hmem := mem_of_lookup hc
  cases ht with
  | file => simp [entries] at hmem
  | link => simp [entries] at hmem
  | directory distinct named inner => exact ⟨named _ hmem, inner _ hmem⟩

/-- What lies in a well-formed tree is well-formed, and the way to it is made of names. -/
theorem WellFormed.at? {t u : FileTree} (ht : t.WellFormed) {place : List RawText}
    (h : t.at? place = some u) : u.WellFormed ∧ ∀ n ∈ place, Path.IsName n := by
  induction place generalizing t with
  | nil =>
      rw [at?_nil, Option.some.injEq] at h
      exact ⟨h ▸ ht, by simp⟩
  | cons n ns ih =>
      rw [at?_cons, Option.bind_eq_some_iff] at h
      obtain ⟨c, hc, hu⟩ := h
      obtain ⟨hn, hw⟩ := ht.of_lookup hc
      obtain ⟨hw, hns⟩ := ih hw hu
      exact ⟨hw, List.forall_mem_cons.mpr ⟨hn, hns⟩⟩

/-! ### Kinds and contents -/

/-- What a tree is, without what is in it. -/
inductive Kind where
  | file
  | link (target : RawText)
  | directory
deriving DecidableEq, Repr

/-- What a tree is. -/
def kind : FileTree → Kind
  | file _ => .file
  | link target => .link target
  | directory _ => .directory

/-- What lies at a place, without what is in it. -/
def kindAt (t : FileTree) (place : List RawText) : Option Kind := (t.at? place).map kind

/-- The bytes of the file at a place. -/
def contentAt (t : FileTree) (place : List RawText) : Option ByteArray :=
  match t.at? place with
  | some (.file content) => some content
  | _ => none

theorem kindAt_append {t u : FileTree} {place : List RawText} (h : t.at? place = some u)
    (names : List RawText) : t.kindAt (place ++ names) = u.kindAt names := by
  rw [kindAt, at?_append, h]
  rfl

theorem kindAt_cons (t : FileTree) (n : RawText) (ns : List RawText) :
    t.kindAt (n :: ns) = (t.entries.lookup n).bind fun c => c.kindAt ns := by
  rw [kindAt, at?_cons]
  cases t.entries.lookup n <;> rfl

theorem contentAt_cons (t : FileTree) (n : RawText) (ns : List RawText) :
    t.contentAt (n :: ns) = (t.entries.lookup n).bind fun c => c.contentAt ns := by
  rw [contentAt, at?_cons]
  cases t.entries.lookup n <;> rfl

theorem kindAt_eq_file_iff {t : FileTree} {place : List RawText} :
    t.kindAt place = some .file ↔ ∃ content, t.at? place = some (.file content) := by
  unfold kindAt
  cases t.at? place with
  | none => simp
  | some u => cases u <;> simp [kind]

theorem kindAt_eq_directory_iff {t : FileTree} {place : List RawText} :
    t.kindAt place = some .directory ↔ ∃ es, t.at? place = some (.directory es) := by
  unfold kindAt
  cases t.at? place with
  | none => simp
  | some u => cases u <;> simp [kind]

/-- What contains an entry is a directory. -/
theorem kindAt_of_append {t : FileTree} {place : List RawText} {n : RawText} {ns : List RawText}
    (h : (t.at? (place ++ n :: ns)).isSome) : t.kindAt place = some .directory := by
  rw [at?_append] at h
  unfold kindAt
  cases hp : t.at? place with
  | none => simp [hp] at h
  | some u =>
      cases u with
      | file => simp [hp, at?_cons, entries] at h
      | link => simp [hp, at?_cons, entries] at h
      | directory => rfl

/-! ### Another content -/

/-- Two trees that differ in nothing but the bytes of the file at a place. -/
structure DifferOnlyAt (place : List RawText) (t u : FileTree) : Prop where
  kindAt_eq : ∀ loc, t.kindAt loc = u.kindAt loc
  contentAt_eq : ∀ loc, loc ≠ place → t.contentAt loc = u.contentAt loc

theorem set_cons {t c : FileTree} {n : RawText} (hc : t.entries.lookup n = some c)
    (ns : List RawText) (new : FileTree) :
    t.set (n :: ns) (some new) =
      .directory (setEntry n (some (c.set ns (some new))) t.entries) := by
  cases ns with
  | nil => cases c <;> rfl
  | cons m ms => simp only [set, hc]

/-- Other bytes for a file make no other difference. -/
theorem differOnlyAt_set {t : FileTree} {place : List RawText} {old : ByteArray}
    (h : t.at? place = some (.file old)) (new : ByteArray) :
    DifferOnlyAt place t (t.set place (some (.file new))) := by
  induction place generalizing t with
  | nil =>
      rw [at?_nil, Option.some.injEq] at h
      subst h
      constructor
      · intro loc
        cases loc <;> rfl
      · intro loc hloc
        cases loc with
        | nil => exact absurd rfl hloc
        | cons => rfl
  | cons n ns ih =>
      rw [at?_cons, Option.bind_eq_some_iff] at h
      obtain ⟨c, hc, hu⟩ := h
      obtain ⟨hk, hb⟩ := ih hu
      rw [set_cons hc]
      constructor
      · intro loc
        cases loc with
        | nil => rw [entries_of_lookup hc]; rfl
        | cons m ms =>
            rw [kindAt_cons, kindAt_cons]
            rw [entries_directory, lookup_setEntry]
            by_cases hm : m = n
            · subst hm
              simp [hc, hk]
            · simp [hm]
      · intro loc hloc
        cases loc with
        | nil => rw [entries_of_lookup hc]; rfl
        | cons m ms =>
            rw [contentAt_cons, contentAt_cons]
            rw [entries_directory, lookup_setEntry]
            by_cases hm : m = n
            · subst hm
              simp [hc, hb ms (by simpa using hloc)]
            · simp [hm]

/-- The entries of a well-formed tree, with another one of a name or without it. -/
theorem WellFormed.setEntry {t : FileTree} (ht : t.WellFormed) {name : RawText}
    (hn : Path.IsName name) {o : Option FileTree} (ho : ∀ u ∈ o, u.WellFormed) :
    (FileTree.directory (FileTree.setEntry name o t.entries)).WellFormed := by
  refine .directory (nodup_setEntry name o ht.distinct) ?_ ?_
  · intro e he
    rcases mem_setEntry he with ⟨u, -, rfl⟩ | he
    · exact hn
    · exact (ht.of_lookup (lookup_of_mem ht.distinct he)).1
  · intro e he
    rcases mem_setEntry he with ⟨u, hu, rfl⟩ | he
    · exact ho u hu
    · exact (ht.of_lookup (lookup_of_mem ht.distinct he)).2

/-- A well-formed tree stays well-formed if another one is put at a place, or if what lies there
is taken away. -/
theorem WellFormed.set {t : FileTree} (ht : t.WellFormed) {place : List RawText}
    (hn : ∀ n ∈ place, Path.IsName n) {o : Option FileTree} (ho : ∀ u ∈ o, u.WellFormed) :
    (t.set place o).WellFormed := by
  induction place generalizing t with
  | nil =>
      have e : t.set [] o = o.getD t := by cases t <;> rfl
      rw [e]
      cases o with
      | none => exact ht
      | some u => exact ho u rfl
  | cons n ns ih =>
      rw [List.forall_mem_cons] at hn
      cases ns with
      | nil =>
          have e : t.set [n] o = FileTree.directory (FileTree.setEntry n o t.entries) := by
            cases t <;> rfl
          rw [e]
          exact ht.setEntry hn.1 ho
      | cons m ms =>
          cases hc : t.entries.lookup n with
          | none => simpa only [FileTree.set, hc] using ht
          | some c =>
              simp only [FileTree.set, hc]
              refine ht.setEntry hn.1 ?_
              intro u hu
              cases hu
              exact ih (ht.of_lookup hc).2 hn.2

end FileTree
end CodeSurvey
