import CodeSurvey.Json.Reader
import CodeSurvey.Text.Radix
import Mathlib

/-! # Numerals of JSON

* `readNumber_append`: a numeral is read as the same number wherever it stands.  Each step of the
  reader reads in front of the end of the numeral what it reads at the end of the text (`Extends`).
* `IsNumeral.readNumber`: a numeral of the grammar is read to its end, or the number is too large.
  Each step of the reader meets the part of the grammar that it is for.

Digits that no longer fit into the number are left over, and they are all that is left over
(`takeDigits_digits`). -/

namespace CodeSurvey.Json

variable {cs rest : List Char}

/-! ### What follows a numeral -/

/-- Whether a character may stand in a numeral. -/
def isNumeric (c : Char) : Bool := c.isDigit || ['+', '-', '.', 'e', 'E'].contains c

/-- Whether a numeral is at its end before a text. -/
def Ends (rest : List Char) : Prop := ∀ c ∈ rest.head?, isNumeric c = false

/-- Whether `r'` reads what `r` reads, with a text behind it. -/
def Extends {α : Type} (rest : List Char) (r r' : Reading α) : Prop :=
  ∀ a left, r = .ok (a, left) → r' = .ok (a, left ++ rest)

theorem Extends.error {α : Type} (f : Failure) (r' : Reading α) : Extends rest (.error f) r' := by
  intro a left h
  cases h

theorem Extends.ok {α : Type} (a : α) (left : List Char) :
    Extends rest (.ok (a, left)) (.ok (a, left ++ rest)) := by
  intro a left h
  cases h
  rfl

theorem Ends.not_isDigit {c : Char} (h : Ends (c :: rest)) : c.isDigit = false :=
  (Bool.or_eq_false_iff.mp (h c rfl)).1

theorem Ends.append_ne (h : Ends rest) {c : Char} (hc : isNumeric c = true)
    (hne : ∀ ds, cs = c :: ds → False) (ds : List Char) : cs ++ rest ≠ c :: ds := by
  cases cs with
  | nil =>
      rintro rfl
      exact absurd hc (by simp [h c rfl])
  | cons d cs =>
      intro hcons
      exact hne cs (by rw [(List.cons.inj hcons).1])

theorem dropWhile_isDigit_append (h : Ends rest) (cs : List Char) :
    (cs ++ rest).dropWhile Char.isDigit = cs.dropWhile Char.isDigit ++ rest := by
  induction cs with
  | nil =>
      cases rest with
      | nil => rfl
      | cons c rest => exact List.dropWhile_cons_of_neg (by simp [h.not_isDigit])
  | cons c cs ih =>
      rw [List.cons_append, List.dropWhile_cons, List.dropWhile_cons]
      split
      next => exact ih
      next => rfl

theorem takeWhile_isDigit_append (h : Ends rest) (cs : List Char) :
    (cs ++ rest).takeWhile Char.isDigit = cs.takeWhile Char.isDigit := by
  induction cs with
  | nil =>
      cases rest with
      | nil => rfl
      | cons c rest => exact List.takeWhile_cons_of_neg (by simp [h.not_isDigit])
  | cons c cs ih =>
      rw [List.cons_append, List.takeWhile_cons, List.takeWhile_cons, ih]

theorem takeDigits_append (h : Ends rest) (bound n count : Nat) (cs : List Char) :
    takeDigits bound n count (cs ++ rest) =
      ((takeDigits bound n count cs).1, (takeDigits bound n count cs).2.1,
        (takeDigits bound n count cs).2.2 ++ rest) := by
  induction cs generalizing n count with
  | nil =>
      cases rest with
      | nil => rfl
      | cons c rest =>
          rw [List.nil_append, takeDigits.eq_2, digit?, h.not_isDigit, if_neg Bool.false_ne_true]
          rfl
  | cons c cs ih =>
      rw [List.cons_append, takeDigits, takeDigits]
      split
      next => rfl
      next =>
          split
          next => rfl
          next => exact ih _ _

theorem realOf_append (rest : List Char) (negative : Bool) (digits : Nat) (exponent : Int)
    (cs : List Char) :
    Extends rest (realOf negative digits exponent cs)
      (realOf negative digits exponent (cs ++ rest)) := by
  unfold realOf
  split
  next => exact .ok _ cs
  next => exact .error _ _

theorem readPower_append (hr : Ends rest) (negative : Bool) (digits : Nat) (exponent : Int)
    (down : Bool) (cs : List Char) :
    Extends rest (readPower negative digits exponent down cs)
      (readPower negative digits exponent down (cs ++ rest)) := by
  cases cs with
  | nil => exact .error _ _
  | cons c cs =>
      unfold readPower
      rw [List.cons_append]
      cases hd : digit? c with
      | none =>
          simp only [hd]
          exact .error _ _
      | some d =>
          simp only [hd, takeDigits_append hr]
          generalize takeDigits maxWrittenExponent d 1 cs = taken
          obtain ⟨n, count, left⟩ := taken
          have hreal := realOf_append rest negative digits
            (if down then exponent - n else exponent + n) left
          cases left with
          | nil =>
              cases rest with
              | nil => exact hreal
              | cons c rest => simpa [hr.not_isDigit] using hreal
          | cons c left =>
              simp only [List.cons_append]
              split
              next =>
                  split
                  next => exact .error _ _
                  next =>
                      rw [← List.cons_append, dropWhile_isDigit_append hr]
                      exact .ok _ _
              next => exact hreal

theorem readExponent_append (hr : Ends rest) (negative : Bool) (digits : Nat) (exponent : Int)
    (cs : List Char) :
    Extends rest (readExponent negative digits exponent cs)
      (readExponent negative digits exponent (cs ++ rest)) := by
  unfold readExponent
  split
  next => exact readPower_append hr _ _ _ _ _
  next => exact readPower_append hr _ _ _ _ _
  next hplus hminus =>
      split
      next h => exact absurd h (hr.append_ne rfl hplus _)
      next h => exact absurd h (hr.append_ne rfl hminus _)
      next => exact readPower_append hr _ _ _ _ _

theorem afterDigits_append (hr : Ends rest) (negative : Bool) (digits : Nat) (exponent : Int)
    (cs : List Char) :
    Extends rest (afterDigits negative digits exponent cs)
      (afterDigits negative digits exponent (cs ++ rest)) := by
  unfold afterDigits
  split
  next => exact readExponent_append hr _ _ _ _
  next => exact readExponent_append hr _ _ _ _
  next hlower hupper =>
      split
      next h => exact absurd h (hr.append_ne rfl hlower _)
      next h => exact absurd h (hr.append_ne rfl hupper _)
      next => exact realOf_append rest _ _ _ cs

theorem readFraction_append (hr : Ends rest) (negative : Bool) (digits : Nat) (exponent : Int)
    (cs : List Char) :
    Extends rest (readFraction negative digits exponent cs)
      (readFraction negative digits exponent (cs ++ rest)) := by
  unfold readFraction
  simp only [takeDigits_append hr]
  generalize takeDigits maxNatural digits 0 cs = taken
  obtain ⟨n, count, left⟩ := taken
  have hafter := afterDigits_append hr negative n (exponent - count) left
  cases left with
  | nil =>
      by_cases hcount : count = 0
      · simp only [if_pos hcount]
        exact .error _ _
      · cases rest with
        | nil => simpa [hcount] using hafter
        | cons c rest => simpa [hcount, hr.not_isDigit] using hafter
  | cons c left =>
      simp only [List.cons_append]
      split
      next =>
          rw [← List.cons_append, dropWhile_isDigit_append hr]
          exact afterDigits_append hr _ _ _ _
      next =>
          split
          next => exact .error _ _
          next => exact hafter

/-- A whole number is read where neither a fraction nor an exponent follows. -/
theorem afterWhole_eq (negative : Bool) (digits : Nat) (hpoint : ∀ ds, cs ≠ '.' :: ds)
    (hlower : ∀ ds, cs ≠ 'e' :: ds) (hupper : ∀ ds, cs ≠ 'E' :: ds) :
    afterWhole negative digits cs = .ok (if !negative then .natural digits
      else if 0 < digits ∧ digits ≤ Nat.pow 2 63 then .negative digits
      else .real { Binary64.ofRatio digits 1 with negative := true }, cs) := by
  unfold afterWhole
  split
  next => exact absurd rfl (hpoint _)
  next => exact absurd rfl (hlower _)
  next => exact absurd rfl (hupper _)
  next =>
      split
      next => rfl
      next =>
          split
          next => rfl
          next => rfl

theorem afterWhole_append (hr : Ends rest) (negative : Bool) (digits : Nat) (cs : List Char) :
    Extends rest (afterWhole negative digits cs) (afterWhole negative digits (cs ++ rest)) := by
  by_cases hmark : ∃ c ds, (c = '.' ∨ c = 'e' ∨ c = 'E') ∧ cs = c :: ds
  · obtain ⟨c, ds, rfl | rfl | rfl, rfl⟩ := hmark
    · exact readFraction_append hr _ _ _ ds
    · exact readExponent_append hr _ _ _ ds
    · exact readExponent_append hr _ _ _ ds
  · have hpoint : ∀ ds, cs ≠ '.' :: ds := fun ds h => hmark ⟨_, ds, .inl rfl, h⟩
    have hlower : ∀ ds, cs ≠ 'e' :: ds := fun ds h => hmark ⟨_, ds, .inr (.inl rfl), h⟩
    have hupper : ∀ ds, cs ≠ 'E' :: ds := fun ds h => hmark ⟨_, ds, .inr (.inr rfl), h⟩
    rw [afterWhole_eq negative digits hpoint hlower hupper,
      afterWhole_eq negative digits (hr.append_ne rfl hpoint) (hr.append_ne rfl hlower)
        (hr.append_ne rfl hupper)]
    exact .ok _ cs

theorem drop_takeWhile_append (cs rest : List Char) :
    (cs ++ rest).drop (cs.takeWhile Char.isDigit).length = cs.dropWhile Char.isDigit ++ rest := by
  have hlength := (List.takeWhile_prefix (l := cs) Char.isDigit).length_le
  rw [List.drop_append_of_le_length hlength, Text.drop_length_takeWhile]

theorem afterLong_append (hr : Ends rest) (negative : Bool) (digits : Nat) (cs : List Char) :
    Extends rest (afterLong negative digits cs) (afterLong negative digits (cs ++ rest)) := by
  unfold afterLong
  simp only [takeWhile_isDigit_append hr, drop_takeWhile_append, Text.drop_length_takeWhile]
  generalize cs.dropWhile Char.isDigit = left
  split
  next => exact readFraction_append hr _ _ _ _
  next hpoint =>
      split
      next h => exact absurd h (hr.append_ne rfl hpoint _)
      next => exact afterDigits_append hr _ _ _ _

/-- A numeral is read as the same number wherever it stands. -/
theorem readNumber_append (hr : Ends rest) (negative : Bool) (cs : List Char) :
    Extends rest (readNumber negative cs) (readNumber negative (cs ++ rest)) := by
  cases cs with
  | nil => exact .error _ _
  | cons c cs =>
      unfold readNumber
      rw [List.cons_append]
      rcases hd : digit? c with - | - | d
      · simp only [hd]
        exact .error _ _
      · simp only [hd]
        have hwhole := afterWhole_append hr negative 0 cs
        cases cs with
        | nil =>
            cases rest with
            | nil => exact hwhole
            | cons e rest => simpa [hr.not_isDigit] using hwhole
        | cons e cs =>
            simp only [List.cons_append]
            split
            next => exact .error _ _
            next => exact hwhole
      · simp only [hd, takeDigits_append hr]
        generalize takeDigits maxNatural (d + 1) 1 cs = taken
        obtain ⟨n, count, left⟩ := taken
        have hwhole := afterWhole_append hr negative n left
        cases left with
        | nil =>
            cases rest with
            | nil => exact hwhole
            | cons e rest => simpa [hr.not_isDigit] using hwhole
        | cons e left =>
            simp only [List.cons_append]
            split
            next => exact afterLong_append hr negative n (e :: left)
            next => exact hwhole

/-! ### The grammar of numerals -/

/-- Whether a text consists of digits, at least one. -/
structure IsDigits (ds : List Char) : Prop where
  ne_nil : ds ≠ []
  isDigit : ∀ c ∈ ds, c.isDigit = true

/-- Whether a text is the whole part of a numeral: there is no zero before other digits. -/
structure IsWhole (ds : List Char) : Prop extends IsDigits ds where
  zero : ds.head? = some '0' → ds = ['0']

/-- Whether a text is the fraction of a numeral, which may lack. -/
inductive IsFraction : List Char → Prop
  | none : IsFraction []
  | some {ds : List Char} (h : IsDigits ds) : IsFraction ('.' :: ds)

/-- Whether a text is the exponent of a numeral, which may lack. -/
inductive IsExponent : List Char → Prop
  | none : IsExponent []
  | some {mark : Char} {sign ds : List Char} (hmark : mark = 'e' ∨ mark = 'E')
      (hsign : sign = [] ∨ sign = ['+'] ∨ sign = ['-']) (h : IsDigits ds) :
      IsExponent (mark :: (sign ++ ds))

/-- Whether a text is a numeral without its sign. -/
inductive IsNumeral : List Char → Prop
  | mk {whole fraction exponent : List Char} (hwhole : IsWhole whole)
      (hfraction : IsFraction fraction) (hexponent : IsExponent exponent) :
      IsNumeral (whole ++ (fraction ++ exponent))

/-- Whether a text is read to its end, unless the number is too large. -/
def IsReadOrTooLarge (r : Reading JsonNumber) : Prop :=
  (∃ n, r = .ok (n, [])) ∨ ∃ f, r = .error f ∧ f.problem = .numberTooLarge

/-- Whether a text does not begin with a digit. -/
def NoDigit (cs : List Char) : Prop := ∀ c ∈ cs.head?, c.isDigit = false

theorem noDigit_nil : NoDigit [] := by
  intro c hc
  cases hc

theorem IsExponent.noDigit (h : IsExponent cs) : NoDigit cs := by
  cases h with
  | none => exact noDigit_nil
  | some hmark hsign hds =>
      intro c hc
      cases hc
      rcases hmark with rfl | rfl <;> rfl

theorem IsFraction.noDigit {fraction exponent : List Char} (h : IsFraction fraction)
    (hexponent : IsExponent exponent) : NoDigit (fraction ++ exponent) := by
  cases h with
  | none => exact hexponent.noDigit
  | some hds =>
      intro c hc
      cases hc
      rfl

theorem NoDigit.dropWhile (h : NoDigit cs) : cs.dropWhile Char.isDigit = cs := by
  cases cs with
  | nil => rfl
  | cons c cs => exact List.dropWhile_cons_of_neg (by simp [h c rfl])

theorem NoDigit.takeWhile (h : NoDigit cs) : cs.takeWhile Char.isDigit = [] := by
  cases cs with
  | nil => rfl
  | cons c cs => exact List.takeWhile_cons_of_neg (by simp [h c rfl])

/-- Digits are taken up to the first one that makes the number too large. -/
theorem takeDigits_digits {ds : List Char} (hds : ∀ c ∈ ds, c.isDigit = true) (ht : NoDigit rest)
    (bound n count : Nat) :
    ∃ n' count' left, takeDigits bound n count (ds ++ rest) = (n', count', left ++ rest) ∧
      (∀ c ∈ left, c.isDigit = true) ∧ (left = [] → count' = count + ds.length) := by
  induction ds generalizing n count with
  | nil =>
      refine ⟨n, count, [], ?_, List.forall_mem_nil _, fun _ => rfl⟩
      cases rest with
      | nil => rfl
      | cons c rest =>
          rw [List.nil_append, takeDigits, digit?, ht c rfl, if_neg Bool.false_ne_true]
  | cons c ds ih =>
      have hall := hds
      rw [List.forall_mem_cons] at hds
      rw [List.cons_append, takeDigits, digit?, if_pos hds.1]
      simp only
      split
      next => exact ⟨n, count, c :: ds, rfl, hall, fun h => by cases h⟩
      next =>
          obtain ⟨n', count', left, htake, hleft, hcount⟩ :=
            ih hds.2 (n * 10 + (c.toNat - '0'.toNat)) (count + 1)
          refine ⟨n', count', left, htake, hleft, fun h => ?_⟩
          rw [hcount h, List.length_cons]
          omega

theorem realOf_readOrTooLarge (negative : Bool) (digits : Nat) (exponent : Int) :
    IsReadOrTooLarge (realOf negative digits exponent []) := by
  unfold realOf
  split
  next => exact .inl ⟨_, rfl⟩
  next => exact .inr ⟨_, rfl, rfl⟩

theorem IsDigits.readPower {ds : List Char} (h : IsDigits ds) (negative : Bool) (digits : Nat)
    (exponent : Int) (down : Bool) :
    IsReadOrTooLarge (readPower negative digits exponent down ds) := by
  obtain ⟨c, ds, rfl⟩ := List.exists_cons_of_ne_nil h.ne_nil
  have hds := h.isDigit
  rw [List.forall_mem_cons] at hds
  obtain ⟨n, count, left, htake, hleft, -⟩ :=
    takeDigits_digits hds.2 noDigit_nil maxWrittenExponent (c.toNat - '0'.toNat) 1
  rw [List.append_nil, List.append_nil] at htake
  unfold Json.readPower
  simp only [digit?, if_pos hds.1, htake]
  cases left with
  | nil => exact realOf_readOrTooLarge _ _ _
  | cons d left =>
      simp only [if_pos (hleft d List.mem_cons_self)]
      split
      next => exact .inr ⟨_, rfl, rfl⟩
      next =>
          rw [List.dropWhile_eq_nil_iff.mpr hleft]
          exact .inl ⟨_, rfl⟩

/-- The digits of an exponent are read behind its sign. -/
theorem IsDigits.readExponent {sign ds : List Char} (h : IsDigits ds)
    (hsign : sign = [] ∨ sign = ['+'] ∨ sign = ['-']) (negative : Bool) (digits : Nat)
    (exponent : Int) : IsReadOrTooLarge (readExponent negative digits exponent (sign ++ ds)) := by
  rcases hsign with rfl | rfl | rfl
  · rw [List.nil_append]
    unfold Json.readExponent
    split
    next => exact absurd (h.isDigit '+' List.mem_cons_self) (by decide)
    next => exact absurd (h.isDigit '-' List.mem_cons_self) (by decide)
    next => exact h.readPower _ _ _ _
  · exact h.readPower _ _ _ _
  · exact h.readPower _ _ _ _

theorem IsExponent.afterDigits (h : IsExponent cs) (negative : Bool) (digits : Nat)
    (exponent : Int) : IsReadOrTooLarge (afterDigits negative digits exponent cs) := by
  cases h with
  | none => exact realOf_readOrTooLarge _ _ _
  | some hmark hsign hds =>
      rcases hmark with rfl | rfl
      · exact hds.readExponent hsign _ _ _
      · exact hds.readExponent hsign _ _ _

theorem IsDigits.readFraction {ds : List Char} (h : IsDigits ds) (hexponent : IsExponent rest)
    (negative : Bool) (digits : Nat) (exponent : Int) :
    IsReadOrTooLarge (readFraction negative digits exponent (ds ++ rest)) := by
  obtain ⟨n, count, left, htake, hleft, hcount⟩ :=
    takeDigits_digits h.isDigit hexponent.noDigit maxNatural digits 0
  have hafter := hexponent.afterDigits negative n (exponent - count)
  unfold Json.readFraction
  simp only [htake]
  cases left with
  | nil =>
      have hne : ¬ count = 0 := by
        have hpos := List.length_pos_of_ne_nil h.ne_nil
        rw [hcount rfl]
        omega
      cases rest with
      | nil => simpa [hne] using hafter
      | cons d rest => simpa [hne, hexponent.noDigit d rfl] using hafter
  | cons d left =>
      simp only [List.cons_append, if_pos (hleft d List.mem_cons_self)]
      rwa [← List.cons_append, List.dropWhile_append_of_pos hleft, hexponent.noDigit.dropWhile]

theorem IsFraction.afterWhole {fraction exponent : List Char} (h : IsFraction fraction)
    (hexponent : IsExponent exponent) (negative : Bool) (digits : Nat) :
    IsReadOrTooLarge (afterWhole negative digits (fraction ++ exponent)) := by
  cases h with
  | some hds => exact hds.readFraction hexponent _ _ _
  | none =>
      cases hexponent with
      | none =>
          rw [List.append_nil, afterWhole_eq negative digits (by simp) (by simp) (by simp)]
          exact .inl ⟨_, rfl⟩
      | some hmark hsign hds =>
          rcases hmark with rfl | rfl
          · exact hds.readExponent hsign _ _ _
          · exact hds.readExponent hsign _ _ _

theorem IsFraction.afterLong {left fraction exponent : List Char}
    (hleft : ∀ c ∈ left, c.isDigit = true) (h : IsFraction fraction)
    (hexponent : IsExponent exponent) (negative : Bool) (digits : Nat) :
    IsReadOrTooLarge (afterLong negative digits (left ++ (fraction ++ exponent))) := by
  have hno := h.noDigit hexponent
  have htake : (left ++ (fraction ++ exponent)).takeWhile Char.isDigit = left := by
    rw [List.takeWhile_append_of_pos hleft, hno.takeWhile, List.append_nil]
  unfold Json.afterLong
  simp only [htake, List.drop_left]
  cases h with
  | some hds => exact hds.readFraction hexponent _ _ _
  | none =>
      rw [List.nil_append]
      cases hexponent with
      | none => exact realOf_readOrTooLarge _ _ _
      | some hmark hsign hds =>
          have hexponent := IsExponent.some hmark hsign hds
          split
          next heq =>
              rcases hmark with rfl | rfl <;> cases heq
          next => exact hexponent.afterDigits _ _ _

/-- Every numeral is read to its end, unless the number is too large. -/
theorem IsNumeral.readNumber (h : IsNumeral cs) (negative : Bool) :
    IsReadOrTooLarge (readNumber negative cs) := by
  obtain ⟨hwhole, hfraction, hexponent⟩ := h
  rename_i whole fraction exponent
  obtain ⟨c, ds, rfl⟩ := List.exists_cons_of_ne_nil hwhole.ne_nil
  have hds := hwhole.isDigit
  rw [List.forall_mem_cons] at hds
  unfold Json.readNumber
  rw [List.cons_append]
  cases hd : c.toNat - '0'.toNat with
  | zero =>
      obtain rfl : c = '0' := by
        have hrange := Char.isDigit_iff_toNat.mp hds.1
        have hzero : '0'.toNat = 48 := rfl
        exact Char.toNat_inj.mp (by omega)
      obtain rfl : ds = [] := (List.cons.inj (hwhole.zero rfl)).2
      have hafter := hfraction.afterWhole hexponent negative 0
      have hno := hfraction.noDigit hexponent
      generalize fraction ++ exponent = tail at hafter hno
      cases tail with
      | nil => exact hafter
      | cons d tail => simpa [digit?, hno d rfl] using hafter
  | succ d =>
      obtain ⟨n, count, left, htake, hleft, -⟩ :=
        takeDigits_digits hds.2 (hfraction.noDigit hexponent) maxNatural (d + 1) 1
      simp only [digit?, if_pos hds.1, hd, htake]
      cases left with
      | nil =>
          have hafter := hfraction.afterWhole hexponent negative n
          have hno := hfraction.noDigit hexponent
          generalize fraction ++ exponent = tail at hafter hno
          cases tail with
          | nil => exact hafter
          | cons e tail => simpa [hno e rfl] using hafter
      | cons e left =>
          simp only [List.cons_append, if_pos (hleft e List.mem_cons_self)]
          exact hfraction.afterLong hleft hexponent negative n

end CodeSurvey.Json
