/-! # Dictionaries

A dictionary gives values to texts.  Its entries are kept in the order of their keys,
code point by code point, and no key occurs twice; so two dictionaries that give the
same values are equal. -/

namespace CodeSurvey

/-- A list of entries, sorted by distinct keys. -/
structure Dict (β : Type) where
  entries : List (String × β)
  sorted : entries.Pairwise (·.1 < ·.1)

namespace Dict

variable {β : Type}

instance [Repr β] : Repr (Dict β) := ⟨fun d n => reprPrec d.entries n⟩

instance [DecidableEq β] : DecidableEq (Dict β) := fun a b =>
  decidable_of_iff (a.entries = b.entries) ⟨fun h => by cases a; cases b; simp_all, congrArg _⟩

/-- No entries. -/
def empty : Dict β := ⟨[], .nil⟩

instance : Inhabited (Dict β) := ⟨empty⟩

/-- Put an entry into a sorted list, in the place of one with the same key. -/
def insertEntry (k : String) (v : β) : List (String × β) → List (String × β)
  | [] => [(k, v)]
  | (j, w) :: rest =>
    if k < j then (k, v) :: (j, w) :: rest
    else if k = j then (k, v) :: rest
    else (j, w) :: insertEntry k v rest

theorem mem_insertEntry {k : String} {v : β} {xs : List (String × β)} {e : String × β}
    (h : e ∈ insertEntry k v xs) : e = (k, v) ∨ e ∈ xs := by
  induction xs with
  | nil => simp_all [insertEntry]
  | cons x xs ih =>
    simp only [insertEntry] at h
    split at h
    · simpa using h
    · split at h
      · exact (List.mem_cons.1 h).imp_right (List.mem_cons_of_mem _)
      · rcases List.mem_cons.1 h with h | h
        · exact .inr (h ▸ List.mem_cons_self)
        · exact (ih h).imp_right (List.mem_cons_of_mem _)

theorem sorted_insertEntry (k : String) (v : β) {xs : List (String × β)}
    (h : xs.Pairwise (·.1 < ·.1)) : (insertEntry k v xs).Pairwise (·.1 < ·.1) := by
  induction xs with
  | nil => simp [insertEntry]
  | cons x xs ih =>
    obtain ⟨j, w⟩ := x
    rw [List.pairwise_cons] at h
    simp only [insertEntry]
    split
    next hk =>
      refine List.pairwise_cons.2 ⟨?_, List.pairwise_cons.2 h⟩
      intro e he
      rcases List.mem_cons.1 he with rfl | he
      · exact hk
      · exact String.lt_trans hk (h.1 e he)
    next hk =>
      split
      next hj => subst hj; exact List.pairwise_cons.2 ⟨h.1, h.2⟩
      next hj =>
        refine List.pairwise_cons.2 ⟨?_, ih h.2⟩
        intro e he
        rcases mem_insertEntry he with rfl | he
        · exact Decidable.byContradiction fun hjk =>
            hj (String.le_antisymm (String.not_lt.1 hjk) (String.not_lt.1 hk))
        · exact h.1 e he

/-- Give a text a value. -/
def insert (d : Dict β) (k : String) (v : β) : Dict β :=
  ⟨insertEntry k v d.entries, sorted_insertEntry k v d.sorted⟩

/-- The value of a text. -/
def get? (d : Dict β) (k : String) : Option β := d.entries.lookup k

/-- The dictionary of a list of entries; of several values of one key the last counts. -/
def ofList (xs : List (String × β)) : Dict β := xs.foldl (fun d e => d.insert e.1 e.2) empty

/-- The number of entries. -/
def size (d : Dict β) : Nat := d.entries.length

/-- Whether there is no entry. -/
def isEmpty (d : Dict β) : Bool := d.entries.isEmpty

end Dict

end CodeSurvey
