import CodeSurvey.Proofs.Reach

/-! # Changes of file systems

All operations that change a file system keep it well-formed: they put well-formed trees at
places, and a place that is reached on a path is given by names (`FileTree.walk_names`).  So what
is shown of well-formed file systems holds of all that arise from the empty one. -/

namespace CodeSurvey

/-- The place that was reached, or that is vacant. -/
def Reached.place : Reached → List RawText
  | .found place => place
  | .vacant place _ => place

namespace FileTree

/-- The place that steps lead to is given by names. -/
theorem walk_names {t : FileTree} {follow : Bool} {links : Nat} {here : List RawText}
    {steps : List PathStep} {r : Reached} (hh : ∀ n ∈ here, Path.IsName n)
    (hs : ∀ n, .enter n ∈ steps → Path.IsName n) (h : t.walk follow links here steps = .ok r) :
    ∀ n ∈ r.place, Path.IsName n := by
  induction links, here, steps using walk_induction with
  | nil =>
      rw [walk_nil, Except.ok.injEq] at h
      exact h ▸ hh
  | cons links here step rest ihs ihl =>
      have hrest : ∀ n, .enter n ∈ rest → Path.IsName n := fun n hn =>
        hs n (List.mem_cons_of_mem step hn)
      have hafter : ∀ n ∈ step.after here, Path.IsName n := by
        cases step with
        | stay => exact hh
        | up => exact fun n hn => hh n (List.dropLast_subset here hn)
        | enter name =>
            exact List.forall_mem_append.mpr ⟨hh, by simpa using hs name List.mem_cons_self⟩
      obtain ⟨-, hw⟩ | ⟨slash, rfl⟩ | ⟨-, -, rfl⟩ | ⟨target, fewer, rfl, hw⟩ := walk_cons_ok h
      · exact ihs _ hafter hrest hw
      · exact hafter
      · exact hafter
      · refine ihl fewer (Nat.lt_succ_self fewer) _ _ ?_ ?_ hw
        · split
          · simp
          · exact hh
        · intro n hn
          rcases List.mem_append.mp hn with hn | hn
          · exact PathStep.isName_of_mem_ofPath hn
          · exact hrest n hn

end FileTree

namespace FileSystem

/-- A file system with a well-formed tree, in which the names that lead to where paths begin are
names. -/
structure WellFormed (fs : FileSystem) : Prop where
  tree : fs.tree.WellFormed
  here : ∀ n ∈ fs.here, Path.IsName n

variable {fs gs : FileSystem} {path : RawText}

theorem WellFormed.place (wf : fs.WellFormed) {follow : Bool} {r : Reached}
    (h : fs.reach follow path = .ok r) : ∀ n ∈ r.place, Path.IsName n := by
  refine FileTree.walk_names ?_ (fun n => PathStep.isName_of_mem_ofPath) (reach_eq_ok_iff.mp h).2
  split
  · simp
  · exact wf.here

theorem WellFormed.set (wf : fs.WellFormed) {place : List RawText}
    (hn : ∀ n ∈ place, Path.IsName n) {o : Option FileTree} (ho : ∀ u ∈ o, u.WellFormed) :
    (fs.set place o).WellFormed :=
  ⟨wf.tree.set hn ho, wf.here⟩

theorem WellFormed.write (wf : fs.WellFormed) {content : ByteArray}
    (h : fs.write path content = .ok gs) : gs.WellFormed := by
  unfold FileSystem.write at h
  split at h
  next => cases h
  next place slash hr =>
      split at h
      next => cases h
      next =>
          cases h
          exact wf.set (wf.place hr) (by simp [FileTree.WellFormed.file])
  next place hr =>
      split at h
      next => cases h
      next =>
          cases h
          exact wf.set (wf.place hr) (by simp [FileTree.WellFormed.file])

theorem WellFormed.add (wf : fs.WellFormed) {t : FileTree} (ht : t.WellFormed)
    (h : fs.add path t = .ok gs) : gs.WellFormed := by
  unfold FileSystem.add at h
  split at h
  next => cases h
  next place slash hr =>
      cases h
      exact wf.set (wf.place hr) (by simpa using ht)
  next => cases h

theorem WellFormed.addLink (wf : fs.WellFormed) {target : RawText}
    (h : fs.addLink path target = .ok gs) : gs.WellFormed := by
  unfold FileSystem.addLink at h
  split at h
  next => cases h
  next => exact wf.add (.link target) h

theorem WellFormed.addDirectories (wf : fs.WellFormed) {names : List RawText}
    (h : fs.addDirectories names = .ok gs) : gs.WellFormed := by
  have he : (FileTree.directory []).WellFormed := .directory .nil (by simp) (by simp)
  induction names generalizing gs with
  | nil => cases h; exact wf
  | cons name outer ih =>
      unfold FileSystem.addDirectories at h
      simp only at h
      split at h
      next hs hadd =>
          cases h
          exact wf.add he hadd
      next =>
          cases ho : fs.addDirectories outer with
          | error e => rw [ho] at h; cases h
          | ok hs => rw [ho] at h; exact (ih ho).add he h
      next =>
          split at h
          next => cases h; exact wf
          next => cases h

theorem WellFormed.remove (wf : fs.WellFormed) (h : fs.remove path = .ok gs) : gs.WellFormed := by
  unfold FileSystem.remove at h
  cases hl : fs.look false path with
  | error e => rw [hl] at h; cases h
  | ok found =>
      rw [hl] at h
      cases h
      exact wf.set (wf.place (look_eq_ok_iff.mp hl).1) (by simp)

end FileSystem

end CodeSurvey
