import CodeSurvey.Proofs.Reach

/-! # Reading what was written

A file is written at the place to which a path leads, whether a file is there or nothing.  In the
new tree the same path leads to the same place:

* if a file was there, its bytes are all that is different (`FileTree.differOnlyAt_set`);
* if nothing was there, the file is all that is new (`FileTree.adds_set`), and steps that ended
  before it now lead to it (`FileTree.Adds.walk_found`).

So what is written at a path is read there afterwards (`FileSystem.read_write`).  Whether a file
can be written depends on the path alone (`FileSystem.write_isOk_iff`). -/

namespace CodeSurvey
namespace FileTree

variable {t u : FileTree} {follow : Bool} {links : Nat} {here place front : List RawText}
  {name : RawText} {steps : List PathStep}

/-- What is put where a directory has or may have an entry lies there. -/
theorem at?_set_self (h : t.kindAt front = some .directory) (new : FileTree) :
    (t.set (front ++ [name]) (some new)).at? (front ++ [name]) = some new := by
  induction front generalizing t with
  | nil =>
      have hset : t.set [name] (some new) = .directory (setEntry name (some new) t.entries) := by
        cases t <;> rfl
      rw [List.nil_append, hset, at?_cons, entries_directory, lookup_setEntry, if_pos rfl,
        Option.bind_some, at?_nil]
  | cons n ns ih =>
      rw [kindAt_cons, Option.bind_eq_some_iff] at h
      obtain ⟨c, hc, h⟩ := h
      rw [List.cons_append, set_cons hc, at?_cons, entries_directory, lookup_setEntry, if_pos rfl,
        Option.bind_some, ih h]

/-! ### A new file -/

/-- Two trees that differ in nothing but a file at a place where the first one has nothing. -/
structure Adds (place : List RawText) (t u : FileTree) : Prop where
  vacant : t.kindAt place = none
  added : u.kindAt place = some .file
  kindAt_eq : ∀ loc, loc ≠ place → t.kindAt loc = u.kindAt loc

/-- A file in a directory that has no entry of its name makes no other difference. -/
theorem adds_set (hd : t.kindAt front = some .directory) (hv : t.kindAt (front ++ [name]) = none)
    (content : ByteArray) :
    Adds (front ++ [name]) t (t.set (front ++ [name]) (some (.file content))) := by
  refine ⟨hv, ?_, ?_⟩
  · rw [kindAt, at?_set_self hd]
    rfl
  · induction front generalizing t with
    | nil =>
        obtain ⟨es, he⟩ := kindAt_eq_directory_iff.mp hd
        rw [at?_nil, Option.some.injEq] at he
        subst he
        rw [List.nil_append, kindAt_cons, entries_directory] at hv
        have hl : es.lookup name = none := by
          cases hl : es.lookup name with
          | none => rfl
          | some c => simp [hl, kindAt] at hv
        intro loc hloc
        cases loc with
        | nil => rfl
        | cons m ms =>
            rw [kindAt_cons, kindAt_cons, List.nil_append, set, entries_directory,
              entries_directory, lookup_setEntry]
            by_cases hm : m = name
            · subst hm
              cases ms with
              | nil => exact absurd rfl hloc
              | cons k ks => simp [hl, kindAt_cons, entries]
            · rw [if_neg hm]
    | cons n ns ih =>
        rw [kindAt_cons, Option.bind_eq_some_iff] at hd
        obtain ⟨c, hc, hd⟩ := hd
        rw [List.cons_append, kindAt_cons, hc, Option.bind_some] at hv
        intro loc hloc
        rw [List.cons_append, set_cons hc]
        cases loc with
        | nil => rw [entries_of_lookup hc]; rfl
        | cons m ms =>
            rw [kindAt_cons, kindAt_cons, entries_directory, lookup_setEntry]
            by_cases hm : m = n
            · subst hm
              rw [if_pos rfl, hc, Option.bind_some, Option.bind_some]
              exact ih hd hv ms fun he => hloc (by rw [he, List.cons_append])
            · rw [if_neg hm]

/-- Steps lead to nothing only in a directory that has no entry of the last name. -/
theorem walk_vacant {slash : Bool}
    (h : t.walk follow links here steps = .ok (.vacant place slash)) :
    ∃ front name, place = front ++ [name] ∧ t.kindAt front = some .directory ∧
      t.kindAt place = none := by
  induction links, here, steps using walk_induction with
  | nil => rw [walk_nil] at h; cases h
  | cons links here step rest ihs ihl =>
      by_cases hd : t.kindAt here = some .directory
      · cases step with
        | stay => exact ihs _ (by rwa [walk_stay hd] at h)
        | up => exact ihs _ (by rwa [walk_up hd] at h)
        | enter name =>
            rw [walk_enter hd] at h
            split at h
            next => cases h
            next =>
                cases hk : t.kindAt (here ++ [name]) with
                | none =>
                    simp only [hk] at h
                    split at h
                    next =>
                        obtain ⟨rfl, -⟩ := Reached.vacant.inj (Except.ok.inj h)
                        exact ⟨here, name, rfl, hd, hk⟩
                    next => cases h
                | some k =>
                    cases k with
                    | file => exact ihs _ (by simpa only [hk] using h)
                    | directory => exact ihs _ (by simpa only [hk] using h)
                    | link target =>
                        simp only [hk] at h
                        split at h
                        next => cases h
                        next =>
                            cases links with
                            | zero => cases h
                            | succ links => exact ihl links (Nat.lt_succ_self links) _ _ h
      · rw [walk_of_not_directory hd] at h
        cases h

/-- Steps that end before the place of a new file lead to it.  On the way there they meet nothing
but what was there before. -/
theorem Adds.walk_found (ha : Adds place t u)
    (h : t.walk follow links here steps = .ok (.vacant place false)) :
    u.walk follow links here steps = .ok (.found place) := by
  have same : ∀ {loc k}, t.kindAt loc = some k → u.kindAt loc = some k := by
    intro loc k hk
    rw [← ha.kindAt_eq loc (by rintro rfl; rw [ha.vacant] at hk; cases hk), hk]
  induction links, here, steps using walk_induction with
  | nil => rw [walk_nil] at h; cases h
  | cons links here step rest ihs ihl =>
      by_cases hd : t.kindAt here = some .directory
      · cases step with
        | stay =>
            rw [walk_stay hd] at h
            rw [walk_stay (same hd), ihs _ h]
        | up =>
            rw [walk_up hd] at h
            rw [walk_up (same hd), ihs _ h]
        | enter name =>
            rw [walk_enter hd] at h
            rw [walk_enter (same hd)]
            split at h
            next => cases h
            next hlong =>
                rw [if_neg hlong]
                cases hk : t.kindAt (here ++ [name]) with
                | none =>
                    simp only [hk] at h
                    split at h
                    next =>
                        obtain ⟨rfl, hrest⟩ := Reached.vacant.inj (Except.ok.inj h)
                        have hnil : rest = [] := by simpa using hrest
                        rw [ha.added, hnil]
                        simp only [walk_nil]
                    next => cases h
                | some k =>
                    rw [same hk]
                    cases k with
                    | file => exact ihs _ (by simpa only [hk] using h)
                    | directory => exact ihs _ (by simpa only [hk] using h)
                    | link target =>
                        simp only [hk] at h ⊢
                        split at h
                        next => cases h
                        next hlast =>
                            rw [if_neg hlast]
                            cases links with
                            | zero => cases h
                            | succ links => exact ihl links (Nat.lt_succ_self links) _ _ h
      · rw [walk_of_not_directory hd] at h
        cases h

end FileTree

namespace FileSystem

variable {fs gs : FileSystem} {path : RawText} {content : ByteArray}

/-- Whether a file can be written at a path: there is one, or there may be. -/
def IsWritable (fs : FileSystem) (path : RawText) : Prop :=
  ∃ place, fs.reach true path = .ok (.vacant place false) ∨
    fs.reach true path = .ok (.found place) ∧ fs.tree.kindAt place = some .file

/-- A file that is at the end of a path is the only thing there that is no directory. -/
theorem kindAt_eq_file_of_reach {place : List RawText}
    (h : fs.reach true path = .ok (.found place)) :
    ((fs.tree.at? place).map FileTree.isDirectory).getD true = false ↔
      fs.tree.kindAt place = some .file := by
  have hl : ¬ fs.tree.LinkAt place :=
    FileTree.walk_found_not_link (PathStep.ofPath_ne_nil path) (reach_eq_ok_iff.mp h).2
  unfold FileTree.LinkAt at hl
  unfold FileTree.kindAt at hl ⊢
  cases ht : fs.tree.at? place with
  | none => simp
  | some t =>
      cases t with
      | file => simp [FileTree.isDirectory, FileTree.kind]
      | directory => simp [FileTree.isDirectory, FileTree.kind]
      | link target => exact absurd ⟨target, by rw [ht]; rfl⟩ hl

/-- To write a file is to put it at the place where the path leads. -/
theorem write_eq_ok_iff : fs.write path content = .ok gs ↔
    ∃ place, gs = fs.set place (some (.file content)) ∧
      (fs.reach true path = .ok (.vacant place false) ∨
        fs.reach true path = .ok (.found place) ∧ fs.tree.kindAt place = some .file) := by
  unfold write
  cases hr : fs.reach true path with
  | error e => simp
  | ok r =>
      cases r with
      | vacant place slash => cases slash <;> simp [eq_comm]
      | found place =>
          have hk := kindAt_eq_file_of_reach hr
          simp only [Except.ok.injEq, reduceCtorEq, Reached.found.injEq, false_or]
          split
          next hdir =>
              simp only [reduceCtorEq, false_iff]
              rintro ⟨loc, -, hloc, hf⟩
              rw [← hloc, ← hk, hdir] at hf
              cases hf
          next hfile =>
              rw [Bool.not_eq_true, hk] at hfile
              constructor
              · intro h
                exact ⟨place, (Except.ok.inj h).symm, rfl, hfile⟩
              · rintro ⟨loc, rfl, rfl, -⟩
                rfl

/-- Whether a file can be written does not depend on its content. -/
theorem write_isOk_iff : (∃ gs, fs.write path content = .ok gs) ↔ fs.IsWritable path := by
  simp only [write_eq_ok_iff, IsWritable]
  constructor
  · rintro ⟨-, place, -, h⟩
    exact ⟨place, h⟩
  · rintro ⟨place, h⟩
    exact ⟨_, place, rfl, h⟩

/-- A place to which a path leads after a file was put there is read as that file. -/
theorem read_of_reach {place : List RawText} (hr : fs.reach true path = .ok (.found place))
    (hc : fs.tree.at? place = some (.file content)) : fs.read path = .ok content := by
  rw [read_eq, hr]
  simp only [FileTree.contentAt, hc]

/-- The bytes of a text are read as that text. -/
theorem readText_of_read {text : String} (h : fs.read path = .ok text.toUTF8) :
    fs.readText path = .ok text := by
  have htext : String.fromUTF8? text.toUTF8 = some text := by
    unfold String.fromUTF8?
    exact dif_pos text.isValidUTF8
  unfold readText
  rw [h]
  simp only [htext]

/-- What was written at a path is read there. -/
theorem read_write (h : fs.write path content = .ok gs) : gs.read path = .ok content := by
  obtain ⟨place, rfl, hr | ⟨hr, hf⟩⟩ := write_eq_ok_iff.mp h
  · obtain ⟨hp, hw⟩ := reach_eq_ok_iff.mp hr
    obtain ⟨front, name, rfl, hd, hv⟩ := FileTree.walk_vacant hw
    refine read_of_reach (reach_eq_ok_iff.mpr ⟨hp, ?_⟩) (FileTree.at?_set_self hd _)
    exact (FileTree.adds_set hd hv content).walk_found hw
  · obtain ⟨old, ho⟩ := FileTree.kindAt_eq_file_iff.mp hf
    have hd : DifferOnlyAt place fs (fs.set place (some (.file content))) :=
      ⟨FileTree.differOnlyAt_set ho content, rfl⟩
    refine read_of_reach (by rw [← reach_congr hd, hr]) ?_
    rcases List.eq_nil_or_concat' place with rfl | ⟨front, name, rfl⟩
    · show (fs.tree.set [] (some (.file content))).at? [] = some (.file content)
      cases fs.tree <;> rfl
    · have hsome : (fs.tree.at? (front ++ name :: [])).isSome := by
        rw [ho]
        rfl
      exact FileTree.at?_set_self (FileTree.kindAt_of_append hsome) _

end FileSystem

end CodeSurvey
