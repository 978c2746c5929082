import Std.Data.HashMap

/-! # Results that are remembered

A computation in `Memo σ` carries a store of type `σ` along.  The store may save work,
but by the type it never changes the result: `Memo.run_fst`.  So a computation has a
value of its own, `Memo.value`, and the laws `value_pure` and `value_bind` reduce it to
a plain expression.

A `Table` is such a store: it holds some of the values of one function. -/

namespace CodeSurvey

open Std (HashMap)

/-- A computation with a store that does not change its result. -/
structure Memo (σ α : Type) where
  run : σ → α × σ
  steady : ∃ a, ∀ s, (run s).1 = a

namespace Memo

variable {σ τ α β : Type}

/-- A result as a computation. -/
@[always_inline, inline]
protected def pure (a : α) : Memo σ α := ⟨fun s => (a, s), a, fun _ => rfl⟩

/-- One computation after another. -/
@[always_inline, inline]
protected def bind (m : Memo σ α) (f : α → Memo σ β) : Memo σ β where
  run s := match m.run s with
    | (a, s) => (f a).run s
  steady := by
    obtain ⟨a, ha⟩ := m.steady
    obtain ⟨b, hb⟩ := (f a).steady
    exact ⟨b, fun s => by simp only [ha, hb]⟩

@[always_inline]
instance : Monad (Memo σ) where
  pure := Memo.pure
  bind := Memo.bind

/-- The result is the same from every store. -/
theorem run_fst (m : Memo σ α) (s t : σ) : (m.run s).1 = (m.run t).1 := by
  obtain ⟨a, ha⟩ := m.steady
  rw [ha, ha]

/-- The result of a computation. -/
def value [Inhabited σ] (m : Memo σ α) : α := (m.run default).1

theorem run_fst_eq_value [Inhabited σ] (m : Memo σ α) (s : σ) : (m.run s).1 = m.value :=
  m.run_fst s default

@[simp]
theorem value_pure [Inhabited σ] (a : α) : (pure a : Memo σ α).value = a := rfl

@[simp]
theorem value_bind [Inhabited σ] (m : Memo σ α) (f : α → Memo σ β) :
    (m >>= f).value = (f m.value).value :=
  (f m.value).run_fst (m.run default).2 default

/-- A computation whose store is a part of a larger one. -/
@[inline]
def within (part : τ → σ) (update : τ → σ → τ) (m : Memo σ α) : Memo τ α where
  run t := match m.run (part t) with
    | (a, s) => (a, update t s)
  steady := by
    obtain ⟨a, ha⟩ := m.steady
    exact ⟨a, fun t => ha (part t)⟩

@[simp]
theorem value_within [Inhabited σ] [Inhabited τ] (part : τ → σ) (update : τ → σ → τ)
    (m : Memo σ α) : (m.within part update).value = m.value :=
  m.run_fst (part default) default

end Memo

/-- Some of the values of `f`. -/
structure Table {κ β : Type} [BEq κ] [Hashable κ] (f : κ → β) where
  entries : HashMap κ β
  sound : ∀ k b, entries[k]? = some b → b = f k

namespace Table

variable {κ β : Type} [BEq κ] [Hashable κ] {f : κ → β}

/-- No values yet. -/
def empty : Table f := ⟨{}, by simp⟩

instance : Inhabited (Table f) := ⟨empty⟩

/-- Note a value. -/
def note [LawfulBEq κ] (t : Table f) (k : κ) (b : β) (h : b = f k) : Table f where
  entries := t.entries.insert k b
  sound j c hc := by
    rw [Std.HashMap.getElem?_insert] at hc
    split at hc
    next hkj => simp_all
    next => exact t.sound j c hc

/-- A value of `f`, looked up if it is in the table and noted if it is not. -/
def get (f : κ → β) [LawfulBEq κ] (k : κ) : Memo (Table f) β where
  run t := match t.entries[k]? with
    | some b => (b, t)
    | none =>
      match h : f k with
      | b => (b, t.note k b h.symm)
  steady := ⟨f k, fun t => by
    split
    next b hb => exact t.sound k b hb
    next => rfl⟩

@[simp]
theorem value_get [LawfulBEq κ] (k : κ) : (get f k).value = f k := by
  simp [Memo.value, get, default, empty]

end Table

end CodeSurvey
