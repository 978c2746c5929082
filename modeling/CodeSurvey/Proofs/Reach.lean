import CodeSurvey.Proofs.FileTree

/-! # Where paths lead

A path is followed step by step, and what is done at a step depends only on the kind of what
lies there, never on what a file holds.

* `FileTree.walk_congr`: in two trees of the same kinds all paths lead to the same places.
* `FileTree.walk_cons_ok` says what a first step can do.
* `FileTree.walk_found_not_link`: a path that is followed to its end does not lead to a link.
* `FileTree.walk_false_eq_or`: whether a link at the end is followed matters only to a path that
  leads to one, so that any other leads to the same place (`walk_true_of_false`,
  `walk_false_of_true`).
* `FileTree.walk_enter_all`: steps that enter names without a link among them lead to the place
  of these names, if none is too long.  So the path of a place leads there or nowhere
  (`FileSystem.reach_pathOf`), and with a slash behind it nowhere if it is that of a file
  (`reach_pathOf_slash`).
* `FileSystem.read_congr`: other bytes for one file change what is read at the paths that lead
  to it, and at no others. -/

namespace CodeSurvey

open FileSystem (pathOf)

/-- The place that a step leads to, links apart. -/
def PathStep.after (here : List RawText) : PathStep → List RawText
  | stay => here
  | up => here.dropLast
  | enter name => here ++ [name]

namespace FileTree

variable {t u : FileTree} {follow : Bool} {links : Nat} {here loc : List RawText}
  {step : PathStep} {rest : List PathStep} {name : RawText}

/-- Whether a link lies at a place. -/
def LinkAt (t : FileTree) (place : List RawText) : Prop :=
  ∃ target, t.kindAt place = some (.link target)

theorem not_linkAt_of_directory (h : t.kindAt here = some .directory) : ¬ t.LinkAt here := by
  rintro ⟨target, hl⟩
  rw [h] at hl
  cases hl

theorem not_linkAt_of_file (h : t.kindAt here = some .file) : ¬ t.LinkAt here := by
  rintro ⟨target, hl⟩
  rw [h] at hl
  cases hl

/-! ### Single steps -/

theorem walk_nil : t.walk follow links here [] = .ok (.found here) := by rw [walk]

theorem walk_of_not_directory (h : t.kindAt here ≠ some .directory) :
    t.walk follow links here (step :: rest) = .error .notDirectory := by
  rw [walk]
  split
  next es he => exact absurd (kindAt_eq_directory_iff.mpr ⟨es, he⟩) h
  next => rfl

theorem walk_stay (h : t.kindAt here = some .directory) :
    t.walk follow links here (.stay :: rest) = t.walk follow links here rest := by
  obtain ⟨es, he⟩ := kindAt_eq_directory_iff.mp h
  rw [walk, he]

theorem walk_up (h : t.kindAt here = some .directory) :
    t.walk follow links here (.up :: rest) = t.walk follow links here.dropLast rest := by
  obtain ⟨es, he⟩ := kindAt_eq_directory_iff.mp h
  rw [walk, he]

/-- What entering a name does depends on the kind of what has it. -/
theorem walk_enter (h : t.kindAt here = some .directory) :
    t.walk follow links here (.enter name :: rest) =
      if longestName < name.bytes.length then .error .longName
      else
        match t.kindAt (here ++ [name]) with
        | none =>
          if rest.all (· = .stay) then .ok (.vacant (here ++ [name]) (!rest.isEmpty))
          else .error .absent
        | some (.link target) =>
          if rest.isEmpty && !follow then .ok (.found (here ++ [name]))
          else
            match links with
            | 0 => .error .manyLinks
            | links + 1 =>
              t.walk follow links (if Path.isAbsolute target then [] else here)
                (PathStep.ofPath target ++ rest)
        | some _ => t.walk follow links (here ++ [name]) rest := by
  obtain ⟨es, he⟩ := kindAt_eq_directory_iff.mp h
  have hk : t.kindAt (here ++ [name]) = (es.lookup name).map kind := by
    rw [kindAt_append he, kindAt_cons, entries_directory]
    cases es.lookup name <;> simp [kindAt]
  rw [walk, he, hk]
  simp only
  congr 1
  cases es.lookup name with
  | none => rfl
  | some c => cases c <;> rfl

/-- To show something of all walks, show it where no step is left, and for a first step from
the steps that follow it and from all walks with fewer links. -/
theorem walk_induction {motive : Nat → List RawText → List PathStep → Prop}
    (nil : ∀ links here, motive links here [])
    (cons : ∀ links here step rest, (∀ there, motive links there rest) →
      (∀ fewer < links, ∀ there steps, motive fewer there steps) → motive links here (step :: rest))
    (links : Nat) (here : List RawText) (steps : List PathStep) : motive links here steps := by
  induction links using Nat.strongRecOn generalizing here steps with
  | ind links ihl =>
      induction steps generalizing here with
      | nil => exact nil links here
      | cons step rest ihs => exact cons links here step rest ihs ihl

/-! ### Whole walks -/

/-- In trees of the same kinds all steps lead to the same places. -/
theorem walk_congr (hk : ∀ loc, t.kindAt loc = u.kindAt loc) (links : Nat) (here : List RawText)
    (steps : List PathStep) : t.walk follow links here steps = u.walk follow links here steps := by
  induction links, here, steps using walk_induction with
  | nil => rw [walk_nil, walk_nil]
  | cons links here step rest ihs ihl =>
      by_cases hd : t.kindAt here = some .directory
      · have hd' : u.kindAt here = some .directory := hk here ▸ hd
        cases step with
        | stay => rw [walk_stay hd, walk_stay hd', ihs]
        | up => rw [walk_up hd, walk_up hd', ihs]
        | enter name =>
            rw [walk_enter hd, walk_enter hd', ← hk]
            congr 1
            cases t.kindAt (here ++ [name]) with
            | none => rfl
            | some k =>
                cases k with
                | file => exact ihs _
                | directory => exact ihs _
                | link target =>
                    cases links with
                    | zero => rfl
                    | succ links => simp only [ihl links (Nat.lt_succ_self links)]
      · have hd' : u.kindAt here ≠ some .directory := hk here ▸ hd
        rw [walk_of_not_directory hd, walk_of_not_directory hd']

/-- What contains a directory is one, and the root of the tree counts as in itself. -/
theorem kindAt_dropLast (h : t.kindAt here = some .directory) :
    t.kindAt here.dropLast = some .directory := by
  rcases List.eq_nil_or_concat' here with rfl | ⟨front, name, rfl⟩
  · exact h
  · rw [List.dropLast_concat]
    obtain ⟨es, he⟩ := kindAt_eq_directory_iff.mp h
    exact kindAt_of_append (by rw [he]; rfl)

theorem not_linkAt_after (h : t.kindAt here = some .directory) (hs : ∀ name, step ≠ .enter name) :
    ¬ t.LinkAt (step.after here) := by
  cases step with
  | stay => exact not_linkAt_of_directory h
  | up => exact not_linkAt_of_directory (kindAt_dropLast h)
  | enter name => exact absurd rfl (hs name)

/-- What the first of some steps does that lead somewhere: it leads to where no link lies, and
the others go on from there; or nothing is there, and they end; or a link is there, which is
where they end, or from which they go on with one link less. -/
theorem walk_cons_ok {r : Reached} (h : t.walk follow links here (step :: rest) = .ok r) :
    (¬ t.LinkAt (step.after here) ∧ t.walk follow links (step.after here) rest = .ok r) ∨
    (∃ slash, r = .vacant (step.after here) slash) ∨
    (t.LinkAt (step.after here) ∧ follow = false ∧ r = .found (step.after here)) ∨
    (∃ target fewer, links = fewer + 1 ∧
      t.walk follow fewer (if Path.isAbsolute target then [] else here)
        (PathStep.ofPath target ++ rest) = .ok r) := by
  by_cases hd : t.kindAt here = some .directory
  · cases step with
    | stay =>
        rw [walk_stay hd] at h
        exact .inl ⟨not_linkAt_after hd (by simp), h⟩
    | up =>
        rw [walk_up hd] at h
        exact .inl ⟨not_linkAt_after hd (by simp), h⟩
    | enter name =>
        rw [walk_enter hd] at h
        split at h
        next => cases h
        next =>
            cases hk : t.kindAt (here ++ [name]) with
            | none =>
                simp only [hk] at h
                split at h
                next => exact .inr (.inl ⟨_, (Except.ok.inj h).symm⟩)
                next => cases h
            | some k =>
                cases k with
                | file =>
                    simp only [hk] at h
                    exact .inl ⟨not_linkAt_of_file hk, h⟩
                | directory =>
                    simp only [hk] at h
                    exact .inl ⟨not_linkAt_of_directory hk, h⟩
                | link target =>
                    simp only [hk] at h
                    split at h
                    next hlast =>
                        rw [Bool.and_eq_true, Bool.not_eq_true'] at hlast
                        exact .inr (.inr (.inl ⟨⟨target, hk⟩, hlast.2, (Except.ok.inj h).symm⟩))
                    next =>
                        cases links with
                        | zero => cases h
                        | succ fewer => exact .inr (.inr (.inr ⟨target, fewer, rfl, h⟩))
  · rw [walk_of_not_directory hd] at h
    cases h

/-- Steps that are followed to their end do not lead to a link. -/
theorem walk_found_not_link {steps : List PathStep} (hs : steps ≠ [])
    (h : t.walk true links here steps = .ok (.found loc)) : ¬ t.LinkAt loc := by
  induction links, here, steps using walk_induction with
  | nil => exact absurd rfl hs
  | cons links here step rest ihs ihl =>
      obtain ⟨hl, hw⟩ | ⟨slash, hr⟩ | ⟨-, hf, -⟩ | ⟨target, fewer, rfl, hw⟩ := walk_cons_ok h
      · cases rest with
        | nil =>
            rw [walk_nil, Except.ok.injEq, Reached.found.injEq] at hw
            exact hw ▸ hl
        | cons => exact ihs _ (by simp) hw
      · cases hr
      · cases hf
      · exact ihl fewer (Nat.lt_succ_self fewer) _ _ (by simp [PathStep.ofPath_ne_nil]) hw

/-- Steps lead to the same whether or not a link at their end is followed, or else they lead to
that link if it is not. -/
theorem walk_false_eq_or (links : Nat) (here : List RawText) (steps : List PathStep) :
    t.walk false links here steps = t.walk true links here steps ∨
      ∃ l, t.LinkAt l ∧ t.walk false links here steps = .ok (.found l) := by
  induction links, here, steps using walk_induction with
  | nil => exact .inl (by rw [walk_nil, walk_nil])
  | cons links here step rest ihs ihl =>
      by_cases hd : t.kindAt here = some .directory
      · cases step with
        | stay => rw [walk_stay hd, walk_stay hd]; exact ihs _
        | up => rw [walk_up hd, walk_up hd]; exact ihs _
        | enter name =>
            rw [walk_enter hd, walk_enter hd]
            split
            next => exact .inl rfl
            next =>
                cases hk : t.kindAt (here ++ [name]) with
                | none => exact .inl rfl
                | some k =>
                    cases k with
                    | file => exact ihs _
                    | directory => exact ihs _
                    | link target =>
                        simp only [Bool.not_true, Bool.and_false, Bool.false_eq_true, if_false,
                          Bool.not_false, Bool.and_true]
                        split
                        next => exact .inr ⟨_, ⟨target, hk⟩, rfl⟩
                        next =>
                            cases links with
                            | zero => exact .inl rfl
                            | succ links => exact ihl links (Nat.lt_succ_self links) _ _
      · rw [walk_of_not_directory hd, walk_of_not_directory hd]
        exact .inl rfl

/-- Steps that lead to no link lead there also if they are followed to their end. -/
theorem walk_true_of_false {steps : List PathStep} (hl : ¬ t.LinkAt loc)
    (h : t.walk false links here steps = .ok (.found loc)) :
    t.walk true links here steps = .ok (.found loc) := by
  rcases walk_false_eq_or links here steps with heq | ⟨l, hlink, hw⟩
  · rw [← heq, h]
  · rw [h, Except.ok.injEq, Reached.found.injEq] at hw
    exact absurd (hw ▸ hlink) hl

/-- Steps that lead somewhere lead there also if a link at their end is not followed, or else they
lead to that link. -/
theorem walk_false_of_true {steps : List PathStep}
    (h : t.walk true links here steps = .ok (.found loc)) :
    t.walk false links here steps = .ok (.found loc) ∨
      ∃ l, t.LinkAt l ∧ t.walk false links here steps = .ok (.found l) :=
  (walk_false_eq_or links here steps).imp_left fun heq => heq.trans h

/-- Entering names one after another leads to their place, if no name is too long. -/
theorem walk_enter_all {names : List RawText} (ho : (t.at? (here ++ names)).isSome)
    (hl : ¬ t.LinkAt (here ++ names)) :
    t.walk follow links here (names.map .enter ++ rest) =
      if ∀ n ∈ names, n.bytes.length ≤ longestName then t.walk follow links (here ++ names) rest
      else .error .longName := by
  induction names generalizing here with
  | nil => simp
  | cons n ns ih =>
      rw [List.map_cons, List.cons_append, walk_enter (kindAt_of_append ho)]
      simp only [List.forall_mem_cons]
      by_cases hlong : longestName < n.bytes.length
      · rw [if_pos hlong, if_neg (by omega)]
      · have e : here ++ n :: ns = (here ++ [n]) ++ ns := by simp
        have hn : n.bytes.length ≤ longestName := by omega
        rw [e] at ho hl
        rw [if_neg hlong, e]
        simp only [hn, true_and]
        rw [← ih ho hl]
        cases ns with
        | nil =>
            rw [List.append_nil] at ho hl
            obtain ⟨c, hc⟩ := Option.isSome_iff_exists.mp ho
            have hk : t.kindAt (here ++ [n]) = some c.kind := by rw [kindAt, hc]; rfl
            rw [hk]
            cases c with
            | file => rfl
            | directory => rfl
            | link target => exact absurd ⟨target, hk⟩ hl
        | cons m ms => rw [kindAt_of_append ho]

end FileTree

namespace FileSystem

variable {fs : FileSystem} {follow : Bool} {path : RawText} {loc : List RawText} {t : FileTree}

/-! ### What lies at a path -/

/-- A path leads where its steps lead, unless no path is written so. -/
theorem reach_eq_ok_iff {r : Reached} :
    fs.reach follow path = .ok r ↔
      (path.bytes.contains 0 = false ∧ path.bytes.isEmpty = false ∧
        path.bytes.length ≤ longestPath) ∧
      fs.tree.walk follow mostLinks (if Path.isAbsolute path then [] else fs.here)
        (PathStep.ofPath path) = .ok r := by
  unfold reach
  split
  next h => simp only [h, reduceCtorEq, false_and]
  next h₁ =>
      rw [Bool.not_eq_true] at h₁
      split
      next h => simp only [h, reduceCtorEq, false_and, and_false]
      next h₂ =>
          rw [Bool.not_eq_true] at h₂
          split
          next h => simp [Nat.not_le.mpr h]
          next h₃ => simp only [h₁, h₂, Nat.not_lt.mp h₃, true_and]

theorem look_eq_ok_iff :
    fs.look follow path = .ok (loc, t) ↔
      fs.reach follow path = .ok (.found loc) ∧ fs.tree.at? loc = some t := by
  unfold look
  split
  next e h => simp [h]
  next h => simp [h]
  next l h =>
      split
      next u hu =>
          simp only [h, Except.ok.injEq, Prod.mk.injEq, Reached.found.injEq]
          constructor
          · rintro ⟨rfl, rfl⟩
            exact ⟨rfl, hu⟩
          · rintro ⟨rfl, ht⟩
            exact ⟨rfl, Option.some.inj (hu.symm.trans ht)⟩
      next hu =>
          simp only [h, reduceCtorEq, Except.ok.injEq, Reached.found.injEq, false_iff]
          rintro ⟨rfl, ht⟩
          rw [hu] at ht
          cases ht

theorem kindAt_of_look (h : fs.look follow path = .ok (loc, t)) :
    fs.tree.kindAt loc = some t.kind := by
  rw [FileTree.kindAt, (look_eq_ok_iff.mp h).2]
  rfl

/-- What is found by following a path to its end is no link. -/
theorem not_linkAt_of_look (h : fs.look true path = .ok (loc, t)) : ¬ fs.tree.LinkAt loc := by
  obtain ⟨-, hw⟩ := reach_eq_ok_iff.mp (look_eq_ok_iff.mp h).1
  exact FileTree.walk_found_not_link (PathStep.ofPath_ne_nil path) hw

/-- A path that does not lead to a link can as well be followed to its end. -/
theorem look_true_of_false (hl : ¬ fs.tree.LinkAt loc) (h : fs.look false path = .ok (loc, t)) :
    fs.look true path = .ok (loc, t) := by
  obtain ⟨hr, ht⟩ := look_eq_ok_iff.mp h
  obtain ⟨hp, hw⟩ := reach_eq_ok_iff.mp hr
  exact look_eq_ok_iff.mpr ⟨reach_eq_ok_iff.mpr ⟨hp, FileTree.walk_true_of_false hl hw⟩, ht⟩

/-- What a path leads to lies at it, or else a link does. -/
theorem look_false_of_true (h : fs.look true path = .ok (loc, t)) :
    fs.look false path = .ok (loc, t) ∨ ∃ l target, fs.look false path = .ok (l, .link target) := by
  obtain ⟨hr, ht⟩ := look_eq_ok_iff.mp h
  obtain ⟨hp, hw⟩ := reach_eq_ok_iff.mp hr
  rcases FileTree.walk_false_of_true hw with hw | ⟨l, ⟨target, hl⟩, hw⟩
  · exact .inl (look_eq_ok_iff.mpr ⟨reach_eq_ok_iff.mpr ⟨hp, hw⟩, ht⟩)
  · obtain ⟨u, hu, hk⟩ := Option.map_eq_some_iff.mp hl
    cases u with
    | file => cases hk
    | directory => cases hk
    | link => exact .inr ⟨l, _, look_eq_ok_iff.mpr ⟨reach_eq_ok_iff.mpr ⟨hp, hw⟩, hu⟩⟩

/-! ### The path of a place -/

/-- The path of a place leads there, if it leads anywhere. -/
theorem reach_pathOf (hn : ∀ n ∈ loc, Path.IsName n) (ho : (fs.tree.at? loc).isSome)
    (hl : ¬ fs.tree.LinkAt loc) {r : Reached} (h : fs.reach follow (pathOf loc) = .ok r) :
    r = .found loc := by
  obtain ⟨-, hw⟩ := reach_eq_ok_iff.mp h
  rw [Path.isAbsolute_pathOf, if_pos rfl] at hw
  by_cases he : loc = []
  · subst he
    rw [Path.pathOf_nil, PathStep.ofPath_slash] at hw
    by_cases hd : fs.tree.kindAt [] = some .directory
    · rw [FileTree.walk_stay hd, FileTree.walk_nil] at hw
      exact (Except.ok.inj hw).symm
    · rw [FileTree.walk_of_not_directory hd] at hw
      cases hw
  · rw [PathStep.ofPath_pathOf he hn, ← List.append_nil (loc.map _),
      FileTree.walk_enter_all ho hl] at hw
    split at hw
    · rw [FileTree.walk_nil] at hw
      exact (Except.ok.inj hw).symm
    · cases hw

theorem isAbsolute_pathOf_slash (names : List RawText) :
    Path.isAbsolute (pathOf names ++ "/") = true := rfl

/-- Behind a file there is nothing. -/
theorem reach_pathOf_slash (hn : ∀ n ∈ loc, Path.IsName n) (he : loc ≠ [])
    (hf : fs.tree.kindAt loc = some .file) (r : Reached) :
    fs.reach follow (pathOf loc ++ "/") ≠ .ok r := by
  intro h
  obtain ⟨content, hc⟩ := FileTree.kindAt_eq_file_iff.mp hf
  have ho : (fs.tree.at? ([] ++ loc)).isSome := by rw [List.nil_append, hc]; rfl
  obtain ⟨-, hw⟩ := reach_eq_ok_iff.mp h
  rw [isAbsolute_pathOf_slash, if_pos rfl, PathStep.ofPath_pathOf_slash he hn,
    FileTree.walk_enter_all ho (FileTree.not_linkAt_of_file hf)] at hw
  split at hw
  · rw [List.nil_append, FileTree.walk_of_not_directory (by simp [hf])] at hw
    cases hw
  · cases hw

/-! ### Another content -/

/-- Two file systems that differ in nothing but the bytes of the file at a place. -/
structure DifferOnlyAt (place : List RawText) (fs gs : FileSystem) : Prop where
  tree : fs.tree.DifferOnlyAt place gs.tree
  here_eq : fs.here = gs.here

variable {gs : FileSystem} {place : List RawText}

theorem reach_congr (h : DifferOnlyAt place fs gs) (follow : Bool) (path : RawText) :
    fs.reach follow path = gs.reach follow path := by
  unfold reach
  rw [h.here_eq, FileTree.walk_congr h.tree.kindAt_eq]

/-- What lies at a path in file systems that differ in the bytes of one file. -/
theorem look_congr (h : DifferOnlyAt place fs gs) (follow : Bool) (path : RawText) :
    (∃ e, fs.look follow path = .error e ∧ gs.look follow path = .error e) ∨
    ∃ loc t u, fs.look follow path = .ok (loc, t) ∧ gs.look follow path = .ok (loc, u) ∧
      ∀ names, t.kindAt names = u.kindAt names := by
  unfold look
  rw [← reach_congr h]
  cases fs.reach follow path with
  | error e => exact .inl ⟨e, rfl, rfl⟩
  | ok r =>
      cases r with
      | vacant => exact .inl ⟨_, rfl, rfl⟩
      | found loc =>
          have hk := h.tree.kindAt_eq loc
          unfold FileTree.kindAt at hk
          cases ht : fs.tree.at? loc with
          | none =>
              rw [ht, Option.map_none, eq_comm, Option.map_eq_none_iff] at hk
              exact .inl ⟨.absent, by simp only [ht], by simp only [hk]⟩
          | some t =>
              rw [ht, Option.map_some, eq_comm, Option.map_eq_some_iff] at hk
              obtain ⟨u, hu, -⟩ := hk
              refine .inr ⟨loc, t, u, by simp only [ht], by simp only [hu], ?_⟩
              intro names
              rw [← FileTree.kindAt_append ht, ← FileTree.kindAt_append hu, h.tree.kindAt_eq]

/-- What is read at a path is the content of the file to which it leads. -/
theorem read_eq (fs : FileSystem) (path : RawText) :
    fs.read path =
      match fs.reach true path with
      | .error e => .error e
      | .ok (.vacant _ _) => .error .absent
      | .ok (.found loc) =>
        match fs.tree.contentAt loc, fs.tree.kindAt loc with
        | some content, _ => .ok content
        | none, some _ => .error .isDirectory
        | none, none => .error .absent := by
  unfold read look
  cases fs.reach true path with
  | error e => rfl
  | ok r =>
      cases r with
      | vacant => rfl
      | found loc =>
          simp only [FileTree.contentAt, FileTree.kindAt]
          cases fs.tree.at? loc with
          | none => rfl
          | some t => cases t <;> rfl

/-- Only a path that leads to the file with other bytes is read differently. -/
theorem read_congr (h : DifferOnlyAt place fs gs)
    (hp : fs.reach true path ≠ .ok (.found place)) : fs.read path = gs.read path := by
  rw [read_eq, read_eq, ← reach_congr h]
  cases hr : fs.reach true path with
  | error e => rfl
  | ok r =>
      cases r with
      | vacant => rfl
      | found loc =>
          have hne : loc ≠ place := fun e => hp (e ▸ hr)
          simp only [h.tree.kindAt_eq, h.tree.contentAt_eq loc hne]

end FileSystem

end CodeSurvey
