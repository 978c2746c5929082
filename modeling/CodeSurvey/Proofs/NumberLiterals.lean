import CodeSurvey.Proofs.Spellings
import Mathlib

/-! # Whole numbers in other bases

A number literal in another base than ten has a letter after a zero, and then digits, with any low
lines between them; `IsPrefixed` says which number it stands for.  The case of letters makes no
difference, and digits are read the same without the low lines (`Denotes.digitsFrom?`).

* A literal for a number below 2 ^ 64 is shown as the decimal numeral of that number, and any other
  stays as it is written (`numberText_of_isPrefixed`).
* The letter `n`, which marks big numbers, is no digit in any of the bases, nor does it belong to a
  fraction or an exponent.  So a text with this letter is never read as a number, whatever its
  beginning looks like (`numberText_of_mem`).

`numberText_spec` puts this together. -/

namespace CodeSurvey

namespace Text

/-- Whether a character is the digit for a value; letters may be of either case. -/
structure IsDigit (base : Nat) (c : Char) (d : Nat) : Prop where
  lt : d < base
  toLower_eq : c.toLower = d.digitChar

/-- Whether digits make a number, with any low lines between them. -/
inductive Denotes (base : Nat) : List Char → Nat → Prop
  | digit {c : Char} {d : Nat} (h : IsDigit base c d) : Denotes base [c] d
  | more {cs : List Char} {n k : Nat} {c : Char} {d : Nat} (h : Denotes base cs n)
      (hc : IsDigit base c d) :
      Denotes base (cs ++ (List.replicate k '_' ++ [c])) (n * base + d)

/-- Whether a text is the decimal numeral of a number, without low lines or needless zeros. -/
structure IsNumeral (n : Nat) (text : String) : Prop where
  denotes : Denotes 10 text.toList n
  no_separator : '_' ∉ text.toList
  no_zero : text.toList.head? = some '0' → text = "0"

/-- A text without low lines and with small letters. -/
def folded (cs : List Char) : List Char := (cs.filter (· != '_')).map Char.toLower

variable {base n m k d : Nat} {c : Char} {cs ds : List Char}

/-! ### Reading digits -/

@[simp] theorem folded_append (cs ds : List Char) : folded (cs ++ ds) = folded cs ++ folded ds := by
  simp [folded]

@[simp] theorem folded_separators (k : Nat) : folded (List.replicate k '_') = [] := by
  simp [folded]

theorem IsDigit.digit? (hb : base ≤ 16) (h : IsDigit base c d) :
    Text.digit? base c.toLower = some d := by
  have hsmall : ∀ base < 17, ∀ d < base, Text.digit? base d.digitChar = some d := by decide
  rw [h.toLower_eq]
  exact hsmall base (by omega) d h.lt

theorem IsDigit.folded (hb : base ≤ 16) (h : IsDigit base c d) : folded [c] = [c.toLower] := by
  have hc : c ≠ '_' := by
    rintro rfl
    have hnone := h.digit? hb
    cases base <;> cases hnone
  simp [Text.folded, hc]

/-- Without the low lines, and in small letters, the digits are read as the number they make. -/
theorem Denotes.digitsFrom? (hb : base ≤ 16) (h : Denotes base cs n) :
    Text.digitsFrom? base 0 (folded cs) = some n := by
  induction h with
  | digit h => rw [h.folded hb, Text.digitsFrom?, h.digit? hb]; simp [Text.digitsFrom?]
  | more _ hc ih =>
      rw [folded_append, folded_append, folded_separators, List.nil_append, hc.folded hb,
        digitsFrom?_append, ih, Option.bind_some, Text.digitsFrom?, hc.digit? hb, Option.bind_some,
        Text.digitsFrom?]

theorem Denotes.folded_ne_nil (hb : base ≤ 16) (h : Denotes base cs n) : folded cs ≠ [] := by
  cases h with
  | digit h => simp [h.folded hb]
  | more _ hc => simp [hc.folded hb]

theorem Denotes.number? (hb : base ≤ 16) (h : Denotes base cs n) :
    Text.number? base (folded cs) = some n :=
  number?_of_digitsFrom? (h.folded_ne_nil hb) (h.digitsFrom? hb)

/-- Zeros at the end multiply the number by the base. -/
theorem denotes_zeros (h : Denotes base cs n) (hb : 0 < base) (zeros : Nat) :
    Denotes base (cs ++ List.replicate zeros '0') (n * base ^ zeros) := by
  induction zeros with
  | zero => simpa using h
  | succ zeros ih =>
      have hmore := Denotes.more (k := 0) (c := '0') ih ⟨hb, by decide⟩
      rw [List.replicate_succ', ← List.append_assoc, Nat.pow_succ, ← Nat.mul_assoc]
      exact hmore

/-! ### Decimal numerals -/

theorem isDigit_digitChar (h : d < 10) : IsDigit 10 d.digitChar d := by
  have hsame : ∀ d < 10, d.digitChar.toLower = d.digitChar := by decide
  exact ⟨h, hsame d h⟩

/-- The digits of a number make that number, and they begin with a zero only if they are a single
one. -/
theorem denotes_toDigits (n : Nat) : Denotes 10 (Nat.toDigits 10 n) n ∧
    ((Nat.toDigits 10 n).head? = some '0' → n = 0) := by
  induction n using Nat.strongRecOn with
  | ind n ih =>
      rw [Nat.toDigits_eq_if (by decide)]
      split
      next h =>
          have hzero : ∀ d < 10, d.digitChar = '0' → d = 0 := by decide
          exact ⟨.digit (isDigit_digitChar h), fun hhead => hzero n h (by simpa using hhead)⟩
      next h =>
          obtain ⟨hd, hhead⟩ := ih (n / 10) (by omega)
          have hmore := Denotes.more (k := 0) hd (isDigit_digitChar (Nat.mod_lt n (by decide)))
          rw [Nat.div_add_mod'] at hmore
          refine ⟨hmore, fun hzero => ?_⟩
          rw [List.head?_append_of_ne_nil _ Nat.toDigits_ne_nil] at hzero
          have := hhead hzero
          omega

theorem isNumeral_repr (n : Nat) : IsNumeral n n.repr := by
  obtain ⟨hd, hzero⟩ := denotes_toDigits n
  refine ⟨by rwa [Nat.toList_repr], fun hmem => ?_, fun hhead => ?_⟩
  · rw [Nat.toList_repr] at hmem
    have hdigit := Nat.isDigit_of_mem_toDigits (by decide) (by decide) hmem
    exact absurd hdigit (by decide)
  · rw [Nat.toList_repr] at hhead
    rw [hzero hhead]
    rfl

/-- A text with a character that is no digit makes no number. -/
theorem number?_of_mem (hplus : c ≠ '+') (hc : digit? base c = none) (h : c ∈ ds) :
    number? base ds = none := by
  have hnone : ∀ es, c ∈ es → digitsFrom? base 0 es = none := fun es hmem =>
    Option.eq_none_iff_forall_ne_some.mpr fun _ hsome => digit?_ne_none hsome c hmem hc
  unfold number?
  split
  next => rfl
  next => rfl
  next => exact hnone _ (by simpa [hplus] using h)
  next => exact hnone _ h

end Text

namespace Literal

open Text (Denotes IsNumeral folded)

/-- The letters that tell a base after a zero. -/
def radixLetters : List (Char × Nat) :=
  [('x', 16), ('X', 16), ('o', 8), ('O', 8), ('b', 2), ('B', 2)]

/-- Whether a text is a literal of a number in a base that its first letter tells. -/
inductive IsPrefixed : String → Nat → Prop
  | mk {letter : Char} {base n : Nat} {digits : List Char} (hl : (letter, base) ∈ radixLetters)
      (hd : Denotes base digits n) : IsPrefixed (String.ofList ('0' :: letter :: digits)) n

variable {text : String} {n : Nat} {cs : List Char}

theorem digitsFrom?_of_mem (h : 'n' ∈ cs) (m : Nat) : Text.digitsFrom? 10 m cs = none :=
  Option.eq_none_iff_forall_ne_some.mpr fun _ hsome => Text.digit?_ne_none hsome _ h rfl

theorem mem_dropWhile_isDigit (h : 'n' ∈ cs) : 'n' ∈ cs.dropWhile Char.isDigit := by
  rw [← List.takeWhile_append_dropWhile (p := Char.isDigit) (l := cs), List.mem_append] at h
  refine h.resolve_left fun hmem => ?_
  cases List.mem_takeWhile_imp hmem

/-- The letter is no part of an exponent, whatever that may be used for. -/
theorem exponent_of_mem {rest : List Char} (h : 'n' ∈ rest) (d : Decimal) (f g : Int → Decimal) :
    (match rest with
      | [] => some d
      | 'e' :: '-' :: ds =>
        if ds.isEmpty then none
        else (do let m ← Text.digitsFrom? 10 0 ds; pure (m : Int) : Option Int).map f
      | 'e' :: '+' :: ds =>
        if ds.isEmpty then none
        else (do let m ← Text.digitsFrom? 10 0 ds; pure (m : Int) : Option Int).map g
      | 'e' :: ds =>
        if ds.isEmpty then none
        else (do let m ← Text.digitsFrom? 10 0 ds; pure (m : Int) : Option Int).map g
      | _ => none) = none := by
  have hds : ∀ ds, 'n' ∈ ds →
      (do let m ← Text.digitsFrom? 10 0 ds; pure (m : Int) : Option Int) = none := by
    intro ds hds
    rw [digitsFrom?_of_mem hds]
    rfl
  split
  next => cases h
  next ds => rw [hds ds (by simpa using h)]; split <;> rfl
  next ds => rw [hds ds (by simpa using h)]; split <;> rfl
  next ds _ _ => rw [hds ds (by simpa using h)]; split <;> rfl
  next => rfl

/-- The letter stands behind the whole digits, and behind those of a fraction. -/
theorem decimal?_of_mem (h : 'n' ∈ cs) : decimal? cs = none := by
  have hafter := mem_dropWhile_isDigit h
  unfold decimal?
  simp only [Text.drop_length_takeWhile]
  split
  next after hpoint =>
      rw [hpoint, List.mem_cons] at hafter
      have hrest := mem_dropWhile_isDigit (hafter.resolve_left (by decide))
      split
      next => rfl
      next => exact Option.bind_eq_none_iff.mpr fun _ _ => exponent_of_mem hrest _ _ _
  next =>
      split
      next => rfl
      next => exact Option.bind_eq_none_iff.mpr fun _ _ => exponent_of_mem hafter _ _ _

theorem mem_drop_of_radix? {base : Nat} (hradix : radix? cs = some base) (h : 'n' ∈ cs) :
    'n' ∈ cs.drop 2 := by
  unfold radix? at hradix
  split at hradix
  next => simpa using h
  next => simpa using h
  next => simpa using h
  next => cases hradix

/-- A text with the letter `n` is never read as a number. -/
theorem numberText_of_mem (h : 'n' ∈ text.toList) : numberText text = text := by
  have hcs : 'n' ∈ folded text.toList :=
    List.mem_map.mpr ⟨'n', List.mem_filter.mpr ⟨h, rfl⟩, rfl⟩
  unfold numberText
  rw [← folded]
  generalize folded text.toList = cs at hcs ⊢
  dsimp only
  split
  next base hradix =>
      rw [Text.numberBelow?, Text.number?_of_mem (by decide) rfl (mem_drop_of_radix? hradix hcs)]
      rfl
  next =>
      rw [decimal?_of_mem ?_]
      · rfl
      · split
        next => simpa using hcs
        next => simpa using hcs
        next => exact hcs

/-! ### Literals in other bases -/

theorem base_le {letter : Char} {base : Nat} (h : (letter, base) ∈ radixLetters) : base ≤ 16 := by
  have hall : ∀ p ∈ radixLetters, p.2 ≤ 16 := by decide
  exact hall _ h

theorem radix?_of_mem {letter : Char} {base : Nat} (h : (letter, base) ∈ radixLetters)
    (digits : List Char) :
    radix? (folded ('0' :: letter :: digits)) = some base ∧
      (folded ('0' :: letter :: digits)).drop 2 = folded digits := by
  simp only [radixLetters, List.mem_cons, Prod.mk.injEq, List.not_mem_nil, or_false] at h
  obtain ⟨rfl, rfl⟩ | ⟨rfl, rfl⟩ | ⟨rfl, rfl⟩ | ⟨rfl, rfl⟩ | ⟨rfl, rfl⟩ | ⟨rfl, rfl⟩ := h <;>
    exact ⟨rfl, rfl⟩

/-- A literal is shown as the numeral of its number if that is below the bound. -/
theorem numberText_of_isPrefixed (h : IsPrefixed text n) :
    numberText text = if n < 2 ^ 64 then n.repr else text := by
  cases h with
  | @mk letter base n digits hl hd =>
      obtain ⟨hradix, hdrop⟩ := radix?_of_mem hl digits
      have hread : ∀ bound, Text.numberBelow? bound base (folded digits) =
          if n < bound then some n else none := by
        intro bound
        rw [Text.numberBelow?, hd.number? (base_le hl), Option.filter_some]
        simp
      unfold numberText
      rw [← folded, String.toList_ofList]
      dsimp only
      rw [hradix]
      dsimp only
      rw [hdrop, hread, Nat.pow_eq]
      by_cases hn : n < 2 ^ 64
      · rw [if_pos hn, if_pos hn]
        rfl
      · rw [if_neg hn, if_neg hn]

/-- A literal of a number below 2 ^ 64 in another base is shown as the decimal numeral of that
number, and any other literal in another base stays as it is written.  So does whatever ends in the
letter `n`.  Hence two literals below the bound look the same just if they stand for the same
number. -/
theorem numberText_spec {text text' : String} {n n' : Nat} (h : IsPrefixed text n)
    (h' : IsPrefixed text' n') :
    (n < 2 ^ 64 → numberText text = n.repr ∧ IsNumeral n (numberText text)) ∧
    (2 ^ 64 ≤ n → numberText text = text) ∧
    (∀ big : String, numberText (big ++ "n") = big ++ "n") ∧
    (n < 2 ^ 64 → n' < 2 ^ 64 → (numberText text = numberText text' ↔ n = n')) := by
  have hshown := numberText_of_isPrefixed h
  have hshown' := numberText_of_isPrefixed h'
  refine ⟨fun hn => ?_, fun hn => ?_, fun big => ?_, fun hn hn' => ?_⟩
  · rw [hshown, if_pos hn]
    exact ⟨rfl, Text.isNumeral_repr n⟩
  · rw [hshown, if_neg (Nat.not_lt.mpr hn)]
  · exact numberText_of_mem (by simp)
  · rw [hshown, hshown', if_pos hn, if_pos hn', Nat.repr_inj]

/-- Digits that are letters of other literals too, in either case, and a number at the bound. -/
theorem numberText_spec_mixed :
    (IsPrefixed "0XbE_f" 3055 ∧ IsPrefixed "0o5757" 3055 ∧
      IsPrefixed "0x1__0000000000000000" (2 ^ 64)) ∧
    (numberText "0XbE_f" = (3055 : Nat).repr ∧ IsNumeral 3055 (numberText "0XbE_f")) ∧
    (numberText "0XbE_f" = numberText "0o5757" ↔ 3055 = 3055) ∧
    numberText "0x1__0000000000000000" = "0x1__0000000000000000" ∧
    numberText ("0b1" ++ "n") = "0b1" ++ "n" := by
  have hhex : Denotes 16 (['b'] ++ ([] ++ ['E']) ++ (['_'] ++ ['f'])) ((11 * 16 + 14) * 16 + 15) :=
    .more (k := 1) (.more (k := 0) (.digit ⟨by decide, by decide⟩) ⟨by decide, by decide⟩)
      ⟨by decide, by decide⟩
  have hoctal : Denotes 8 (['5'] ++ ([] ++ ['7']) ++ ([] ++ ['5']) ++ ([] ++ ['7']))
      (((5 * 8 + 7) * 8 + 5) * 8 + 7) :=
    .more (k := 0) (.more (k := 0) (.more (k := 0) (.digit ⟨by decide, by decide⟩)
      ⟨by decide, by decide⟩) ⟨by decide, by decide⟩) ⟨by decide, by decide⟩
  have hbound : Denotes 16 (['1'] ++ (['_', '_'] ++ ['0']) ++ List.replicate 15 '0')
      ((1 * 16 + 0) * 16 ^ 15) :=
    Text.denotes_zeros (.more (k := 2) (.digit ⟨by decide, by decide⟩) ⟨by decide, by decide⟩)
      (by decide) 15
  have h₁ : IsPrefixed "0XbE_f" 3055 := @IsPrefixed.mk 'X' 16 _ _ (by decide) hhex
  have h₂ : IsPrefixed "0o5757" 3055 := @IsPrefixed.mk 'o' 8 _ _ (by decide) hoctal
  have h₃ : IsPrefixed "0x1__0000000000000000" (2 ^ 64) :=
    @IsPrefixed.mk 'x' 16 _ _ (by decide) hbound
  have hsmall : 3055 < 2 ^ 64 := by decide
  obtain ⟨hread, -, hbig, hsame⟩ := numberText_spec h₁ h₂
  obtain ⟨-, hkept, -, -⟩ := numberText_spec h₃ h₁
  exact ⟨⟨h₁, h₂, h₃⟩, hread hsmall, hsame hsmall hsmall, hkept (Nat.le_refl _), hbig "0b1"⟩

end Literal
end CodeSurvey
