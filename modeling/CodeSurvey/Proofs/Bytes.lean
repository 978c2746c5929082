import Mathlib.Data.List.Basic
import Mathlib.Tactic.SplitIfs

/-! # The bytes of texts

A text is matched and ordered by its bytes, of which every character has one to four.  A byte
that begins a character (`Bytes.IsLead`) is never one that continues another, and of two
characters the greater one has the greater bytes, whatever follows (`encode_append_lt`).  So
nothing is lost by looking at bytes:

* `Bytes.ofChars_lt_iff`: characters are ordered like their bytes;
* `Bytes.ofChars_isPrefix_iff` and `Bytes.ofChars_isSuffix_iff`: characters begin or end with
  others exactly if their bytes do. -/

namespace CodeSurvey
namespace Bytes

open String (utf8EncodeChar)

/-- The bytes of characters. -/
def ofChars (cs : List Char) : List UInt8 := cs.flatMap utf8EncodeChar

/-- The bytes of a text. -/
def ofText (s : String) : List UInt8 := s.toUTF8.data.toList

theorem ofText_eq (s : String) : ofText s = ofChars s.toList := by
  have h : s.toByteArray = s.toList.utf8Encode := by
    rw [← String.toByteArray_ofList, String.ofList_toList]
  rw [ofText, String.toUTF8_eq_toByteArray, h, List.utf8Encode, List.data_toByteArray]
  rfl

theorem ofChars_cons (c : Char) (cs : List Char) :
    ofChars (c :: cs) = utf8EncodeChar c ++ ofChars cs := rfl

theorem ofChars_append (cs ds : List Char) : ofChars (cs ++ ds) = ofChars cs ++ ofChars ds :=
  List.flatMap_append

/-! ### Single characters -/

/-- Whether a byte begins a character. -/
def IsLead (b : UInt8) : Prop := b.toNat < 0x80 ∨ 0xc0 ≤ b.toNat

theorem toNat_val_lt (c : Char) : c.val.toNat < 0x110000 := by
  have h : c.val.toNat.isValidChar := c.valid
  unfold Nat.isValidChar at h
  omega

/-- Of the bytes of a character only the first one begins a character. -/
theorem encode_eq (c : Char) :
    ∃ b rest, utf8EncodeChar c = b :: rest ∧ IsLead b ∧ ∀ x ∈ rest, ¬ IsLead x := by
  have hv := toNat_val_lt c
  unfold utf8EncodeChar
  generalize c.val.toNat = v at hv
  simp only
  split_ifs <;>
    · refine ⟨_, _, rfl, ?_, ?_⟩
      · simp only [IsLead, UInt8.toNat_ofNat']
        omega
      · simp [IsLead, UInt8.toNat_ofNat']
        try omega

theorem cons_lt_cons_iff {a b : UInt8} {as bs : List UInt8} :
    a :: as < b :: bs ↔ a.toNat < b.toNat ∨ a.toNat = b.toNat ∧ as < bs := by
  rw [List.cons_lt_cons_iff, UInt8.lt_iff_toNat_lt, UInt8.toNat_inj]

/-- Numbers are ordered by their digits to the base 64, the last of which counts least. -/
theorem lt_iff_div_lt (v w : Nat) :
    v < w ↔ v / 64 < w / 64 ∨ v / 64 = w / 64 ∧ v % 64 < w % 64 := by omega

/-- The bytes of the greater character are the greater ones, whatever follows. -/
theorem encode_append_lt {c d : Char} (h : c < d) (s t : List UInt8) :
    utf8EncodeChar c ++ s < utf8EncodeChar d ++ t := by
  have hc := toNat_val_lt c
  have hd := toNat_val_lt d
  have hlt : c.val.toNat < d.val.toNat := h
  have shorter : ∀ n : Nat, n / 4096 = n / 64 / 64 ∧ n / 262144 = n / 64 / 64 / 64 := by omega
  have first : ∀ n < 0x110000, n / 64 / 64 / 64 < 8 := by omega
  have hc₃ := first _ hc
  have hd₃ := first _ hd
  unfold utf8EncodeChar
  generalize c.val.toNat = v at *
  generalize d.val.toNat = w at *
  have hdigits := hlt
  rw [lt_iff_div_lt, lt_iff_div_lt (v / 64), lt_iff_div_lt (v / 64 / 64)] at hdigits
  simp only [(shorter v).1, (shorter v).2, (shorter w).1, (shorter w).2, Nat.mod_eq_of_lt hc₃,
    Nat.mod_eq_of_lt hd₃]
  -- Between characters of different lengths the first byte decides, else the first digit.
  split_ifs <;>
    simp only [List.cons_append, List.nil_append, cons_lt_cons_iff, UInt8.toNat_ofNat'] <;>
    omega

theorem ne_of_lt {s t : List UInt8} (h : s < t) : s ≠ t := by
  rintro rfl
  exact List.lt_irrefl s h

/-- Bytes tell with which character they begin. -/
theorem encode_append_inj {c d : Char} {s t : List UInt8}
    (h : utf8EncodeChar c ++ s = utf8EncodeChar d ++ t) : c = d ∧ s = t := by
  obtain rfl : c = d := by
    rcases Nat.lt_trichotomy c.toNat d.toNat with hlt | heq | hlt
    · exact absurd h (ne_of_lt (encode_append_lt hlt s t))
    · exact Char.ext (UInt32.toNat_inj.mp heq)
    · exact absurd h.symm (ne_of_lt (encode_append_lt hlt t s))
  exact ⟨rfl, List.append_cancel_left h⟩

/-! ### Order -/

theorem append_lt_append {s t : List UInt8} (r : List UInt8) (h : s < t) : r ++ s < r ++ t := by
  induction r with
  | nil => exact h
  | cons b r ih => exact cons_lt_cons_iff.mpr (.inr ⟨rfl, ih⟩)

theorem ofChars_lt {cs ds : List Char} (h : cs < ds) : ofChars cs < ofChars ds := by
  induction cs generalizing ds with
  | nil =>
      cases ds with
      | nil => exact absurd h (List.lt_irrefl [])
      | cons d ds =>
          obtain ⟨b, rest, hb, -⟩ := encode_eq d
          rw [ofChars_cons, hb]
          exact List.nil_lt_cons b _
  | cons c cs ih =>
      cases ds with
      | nil => exact absurd h (List.not_lt_nil _)
      | cons d ds =>
          rw [ofChars_cons, ofChars_cons]
          rcases List.cons_lt_cons_iff.mp h with hlt | ⟨rfl, hlt⟩
          · exact encode_append_lt hlt _ _
          · exact append_lt_append _ (ih hlt)

/-- Characters are ordered like their bytes. -/
theorem ofChars_lt_iff {cs ds : List Char} : ofChars cs < ofChars ds ↔ cs < ds := by
  constructor
  · intro h
    by_contra hn
    rcases List.le_iff_lt_or_eq.mp (List.not_lt.mp hn) with hlt | rfl
    · exact List.lt_asymm h (ofChars_lt hlt)
    · exact List.lt_irrefl _ h
  · exact ofChars_lt

/-! ### Beginnings and endings -/

theorem ofChars_isPrefix_iff {cs ds : List Char} : ofChars cs <+: ofChars ds ↔ cs <+: ds := by
  constructor
  · intro h
    induction cs generalizing ds with
    | nil => exact List.nil_prefix
    | cons c cs ih =>
        obtain ⟨t, ht⟩ := h
        rw [ofChars_cons, List.append_assoc] at ht
        cases ds with
        | nil =>
            obtain ⟨b, rest, hb, -⟩ := encode_eq c
            rw [hb] at ht
            cases ht
        | cons d ds =>
            rw [ofChars_cons] at ht
            obtain ⟨rfl, hs⟩ := encode_append_inj ht
            exact List.cons_prefix_cons.mpr ⟨rfl, ih ⟨t, hs⟩⟩
  · rintro ⟨es, rfl⟩
    exact ⟨ofChars es, (ofChars_append cs es).symm⟩

theorem ofChars_inj {cs ds : List Char} (h : ofChars cs = ofChars ds) : cs = ds := by
  have hcd : cs <+: ds := ofChars_isPrefix_iff.mp (h ▸ List.prefix_rfl)
  have hdc : ds <+: cs := ofChars_isPrefix_iff.mp (h ▸ List.prefix_rfl)
  exact hcd.eq_of_length_le hdc.length_le

theorem isLead_of_ofChars {cs : List Char} {x : UInt8} {t : List UInt8}
    (h : ofChars cs = x :: t) : IsLead x := by
  cases cs with
  | nil => cases h
  | cons c cs =>
      obtain ⟨b, rest, hb, hl, -⟩ := encode_eq c
      rw [ofChars_cons, hb] at h
      exact (List.cons.inj h).1 ▸ hl

/-- Characters end with others exactly if their bytes do, because what begins within a character
does not begin one. -/
theorem ofChars_isSuffix_iff {cs ds : List Char} : ofChars cs <:+ ofChars ds ↔ cs <:+ ds := by
  constructor
  · intro h
    induction ds with
    | nil =>
        have e : ofChars cs = ofChars [] := List.suffix_nil.mp h
        exact ofChars_inj e ▸ List.suffix_rfl
    | cons d ds ih =>
        obtain ⟨w, hw⟩ := h
        rw [ofChars_cons] at hw
        rcases List.append_eq_append_iff.mp hw with ⟨a, hd, hcs⟩ | ⟨a, -, hds⟩
        · obtain ⟨b, rest, hb, -, hrest⟩ := encode_eq d
          cases w with
          | nil =>
              have e : ofChars cs = ofChars (d :: ds) := hw
              exact ofChars_inj e ▸ List.suffix_rfl
          | cons b' w =>
              cases a with
              | nil => exact ofChars_inj hcs ▸ List.suffix_cons d ds
              | cons x a =>
                  rw [hb] at hd
                  obtain ⟨-, hr⟩ := List.cons.inj hd
                  exact absurd (isLead_of_ofChars hcs) (hrest x (by simp [hr]))
        · exact (ih ⟨a, hds.symm⟩).trans (List.suffix_cons d ds)
  · rintro ⟨es, rfl⟩
    exact ⟨ofChars es, (ofChars_append es cs).symm⟩

end Bytes
end CodeSurvey
