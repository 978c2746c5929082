import CodeSurvey.Proofs.Bytes
import CodeSurvey.Text.Raw

/-! # What is shown of raw texts

Bytes are shown piece by piece: a piece spells a character, or is shown as one replacement
character (`RawText.exists_piece`).  No piece goes on beyond an ASCII character, so what stands
before one and behind it is shown by itself (`chars_append`, `exists_of_chars_eq`).  It follows
that

* a text is shown as itself, and different texts are different raw texts (`shown_ofText`,
  `ofText_injective`), in the same order (`ofText_lt_iff`);
* whatever is shown without a replacement character spells what is shown
  (`eq_ofText_of_shown`), so that two raw texts are shown alike only if they are the same or a
  replacement character stands for some bytes of them;
* an ASCII character at the beginning of what is shown, and an ending that begins with one, are
  told by the bytes (`head?_chars_eq_iff`, `isSuffix_chars_iff`). -/

namespace CodeSurvey
namespace RawText

open String (utf8EncodeChar)

/-- Whether bytes begin with an ASCII character, if with anything. -/
def StartsAscii (bs : List UInt8) : Prop := ∀ b ∈ bs.head?, b.toNat < 0x80

/-! ### Single characters -/

theorem char?_encode_append (c : Char) (bs : List UInt8) :
    char? (utf8EncodeChar c ++ bs) = some c := by
  have hlen : (utf8EncodeChar c).length ≤ 4 := by
    rw [String.length_utf8EncodeChar]
    exact c.utf8Size_le_four
  rw [char?, List.take_append, List.take_of_length_le hlen, List.toByteArray_append]
  exact ByteArray.utf8DecodeChar?_utf8EncodeChar_append

/-- Bytes begin with a character exactly if they begin with its bytes. -/
theorem char?_eq_some_iff {bs : List UInt8} {c : Char} :
    char? bs = some c ↔ utf8EncodeChar c <+: bs := by
  constructor
  · intro h
    obtain ⟨l, hl⟩ := ByteArray.exists_of_utf8DecodeChar?_eq_some h
    have e : bs.take 4 = utf8EncodeChar c ++ l.data.toList := by
      have h := congrArg (fun b : ByteArray => b.data.toList) hl
      simpa using h
    exact (e ▸ List.prefix_append _ _).trans (List.take_prefix 4 bs)
  · rintro ⟨rest, rfl⟩
    exact char?_encode_append c rest

theorem encode_ne_nil (c : Char) : utf8EncodeChar c ≠ [] := by
  obtain ⟨b, rest, h, -⟩ := Bytes.encode_eq c
  simp [h]

/-- An ASCII character is a single byte. -/
theorem encode_of_ascii {c : Char} (h : c.toNat < 0x80) :
    ∃ b, utf8EncodeChar c = [b] ∧ b.toNat < 0x80 := by
  have hv : c.val.toNat ≤ 0x7f := Nat.le_of_lt_succ h
  refine ⟨UInt8.ofNat c.val.toNat, if_pos hv, ?_⟩
  rw [UInt8.toNat_ofNat']
  omega

/-- An ASCII character behind bytes makes no difference to the character that these begin with. -/
theorem char?_append {bs more : List UInt8} (hbs : bs ≠ []) (hm : StartsAscii more) :
    char? (bs ++ more) = char? bs := by
  ext c
  rw [char?_eq_some_iff, char?_eq_some_iff]
  constructor
  · rintro ⟨t, ht⟩
    rcases List.append_eq_append_iff.mp ht with ⟨a, ha, -⟩ | ⟨a, ha, hmore⟩
    · exact ⟨a, ha.symm⟩
    · -- A byte of `more` would continue a character.
      cases a with
      | nil => exact ⟨[], by rw [List.append_nil, ha, List.append_nil]⟩
      | cons x a =>
          obtain ⟨b, rest, hb, -, hrest⟩ := Bytes.encode_eq c
          obtain ⟨y, ys, rfl⟩ := List.exists_cons_of_ne_nil hbs
          rw [hb, List.cons_append, List.cons.injEq] at ha
          refine absurd (.inl ?_) (hrest x (by simp [ha.2]))
          exact hm x (by simp [hmore])
  · exact fun h => h.trans (List.prefix_append bs more)

/-! ### Broken pieces -/

theorem not_follows_of_ascii {a b : UInt8} (h : b.toNat < 0x80) : follows a b = false := by
  have hb : ∀ n : UInt8, 0x80 ≤ n.toNat → decide (n ≤ b) = false := fun n hn => by
    rw [decide_eq_false_iff_not, UInt8.le_iff_toNat_le]
    omega
  unfold follows isTail
  split_ifs <;> simp [hb]

theorem not_isTail_of_ascii {b : UInt8} (h : b.toNat < 0x80) : isTail b = false := by
  have hb : decide ((0x80 : UInt8) ≤ b) = false := by
    rw [decide_eq_false_iff_not, UInt8.le_iff_toNat_le]
    exact Nat.not_le.mpr h
  rw [isTail, hb, Bool.false_and]

theorem brokenLength_pos (bs : List UInt8) : 0 < brokenLength bs := by
  unfold brokenLength
  split
  · split_ifs <;> omega
  · split <;> omega
  · exact Nat.one_pos

theorem brokenLength_le {bs : List UInt8} (h : bs ≠ []) : brokenLength bs ≤ bs.length := by
  match bs, h with
  | [_], _ => exact Nat.le_refl 1
  | [a, b], _ => simp only [brokenLength]; split <;> simp
  | a :: b :: c :: _, _ => simp only [brokenLength]; split_ifs <;> simp

theorem brokenLength_append {bs more : List UInt8} (hbs : bs ≠ []) (hm : StartsAscii more) :
    brokenLength (bs ++ more) = brokenLength bs := by
  cases more with
  | nil => rw [List.append_nil]
  | cons x more =>
      have hx : x.toNat < 0x80 := hm x rfl
      match bs, hbs with
      | [a], _ => cases more <;> simp [brokenLength, not_follows_of_ascii hx]
      | [a, b], _ => cases h : follows a b <;> simp [brokenLength, not_isTail_of_ascii hx, h]
      | a :: b :: c :: _, _ => rfl

/-! ### Pieces -/

theorem charsFrom_eq (skip : Nat) (bs : List UInt8) : charsFrom skip bs = chars (bs.drop skip) := by
  induction bs generalizing skip with
  | nil => rw [List.drop_nil, chars, charsFrom, charsFrom]
  | cons b bs ih =>
      cases skip with
      | zero => rfl
      | succ skip => rw [charsFrom, ih, List.drop_succ_cons]

theorem chars_nil : chars [] = [] := by rw [chars, charsFrom]

@[simp] theorem chars_encode_append (c : Char) (bs : List UInt8) :
    chars (utf8EncodeChar c ++ bs) = c :: chars bs := by
  have h := char?_encode_append c bs
  have hlen := String.length_utf8EncodeChar c
  obtain ⟨b, rest, hb, -⟩ := Bytes.encode_eq c
  rw [hb] at h hlen ⊢
  rw [List.cons_append] at h ⊢
  rw [chars, charsFrom, h]
  simp only
  rw [charsFrom_eq, ← hlen, List.length_cons, Nat.add_sub_cancel, List.drop_left]

theorem chars_of_char?_eq_none {bs : List UInt8} (hne : bs ≠ []) (h : char? bs = none) :
    chars bs = '\uFFFD' :: chars (bs.drop (brokenLength bs)) := by
  obtain ⟨b, bs, rfl⟩ := List.exists_cons_of_ne_nil hne
  rw [chars, charsFrom, h]
  simp only
  have hpos := brokenLength_pos (b :: bs)
  rw [charsFrom_eq, ← List.drop_succ_cons (a := b), Nat.sub_add_cancel hpos]

/-- Bytes begin with a piece, which spells a character or is shown as one replacement character,
whatever ASCII character follows the bytes. -/
theorem exists_piece {bs : List UInt8} (h : bs ≠ []) :
    ∃ c piece rest, bs = piece ++ rest ∧ piece ≠ [] ∧ (piece = utf8EncodeChar c ∨ c = '\uFFFD') ∧
      ∀ more, StartsAscii more → chars (bs ++ more) = c :: chars (rest ++ more) := by
  cases hc : char? bs with
  | some c =>
      obtain ⟨rest, rfl⟩ := char?_eq_some_iff.mp hc
      refine ⟨c, _, rest, rfl, encode_ne_nil c, .inl rfl, fun more _ => ?_⟩
      rw [List.append_assoc, chars_encode_append]
  | none =>
      refine ⟨'\uFFFD', bs.take (brokenLength bs), bs.drop (brokenLength bs),
        (List.take_append_drop _ bs).symm, ?_, .inr rfl, fun more hm => ?_⟩
      · have hpos := brokenLength_pos bs
        rw [Ne, List.take_eq_nil_iff, not_or]
        exact ⟨by omega, h⟩
      · rw [chars_of_char?_eq_none (by simp [h]) (by rw [char?_append h hm, hc]),
          brokenLength_append h hm, List.drop_append_of_le_length (brokenLength_le h)]

theorem startsAscii_nil : StartsAscii [] := by simp [StartsAscii]

/-- To show something of all bytes, show it of none, and of bytes with a piece before them. -/
theorem piece_induction {motive : List UInt8 → Prop} (nil : motive [])
    (piece : ∀ c piece rest, piece ≠ [] → (piece = utf8EncodeChar c ∨ c = '\uFFFD') →
      (∀ more, StartsAscii more → chars (piece ++ rest ++ more) = c :: chars (rest ++ more)) →
      motive rest → motive (piece ++ rest)) (bs : List UInt8) : motive bs := by
  induction h : bs.length using Nat.strongRecOn generalizing bs with
  | ind n ih =>
      by_cases hne : bs = []
      · exact hne ▸ nil
      · obtain ⟨c, front, rest, rfl, hfront, hc, hchars⟩ := exists_piece hne
        refine piece c front rest hfront hc hchars (ih _ ?_ rest rfl)
        have := List.length_pos_iff.mpr hfront
        rw [← h, List.length_append]
        omega

/-! ### Several pieces -/

/-- What follows behind an ASCII character is shown by itself. -/
theorem chars_append {bs more : List UInt8} (hm : StartsAscii more) :
    chars (bs ++ more) = chars bs ++ chars more := by
  induction bs using piece_induction with
  | nil => rw [chars_nil, List.nil_append, List.nil_append]
  | piece c piece rest _ _ hchars ih =>
      have h := hchars [] startsAscii_nil
      rw [List.append_nil, List.append_nil] at h
      rw [hchars more hm, ih, h, List.cons_append]

/-- Characters are shown as themselves. -/
@[simp] theorem chars_ofChars (cs : List Char) : chars (Bytes.ofChars cs) = cs := by
  induction cs with
  | nil => exact chars_nil
  | cons c cs ih => rw [Bytes.ofChars_cons, chars_encode_append, ih]

/-- Bytes of which no piece is shown as a replacement character spell what is shown. -/
theorem eq_ofChars_of_chars {bs : List UInt8} (h : '\uFFFD' ∉ chars bs) :
    bs = Bytes.ofChars (chars bs) := by
  induction bs using piece_induction with
  | nil => rw [chars_nil]; rfl
  | piece c piece rest _ hc hchars ih =>
      have e := hchars [] startsAscii_nil
      rw [List.append_nil, List.append_nil] at e
      rw [e, List.mem_cons, not_or] at h
      rw [e, Bytes.ofChars_cons, ← ih h.2, hc.resolve_right (Ne.symm h.1)]

/-- Where an ASCII character is shown the bytes have it. -/
theorem exists_of_chars_eq {bs : List UInt8} {front rest : List Char} {c : Char}
    (hc : c.toNat < 0x80) (h : chars bs = front ++ c :: rest) :
    ∃ as ds, bs = as ++ (utf8EncodeChar c ++ ds) ∧ chars as = front ∧ chars ds = rest := by
  induction bs using piece_induction generalizing front with
  | nil => simp [chars_nil] at h
  | piece d piece ds _ hd hchars ih =>
      have e := hchars [] startsAscii_nil
      rw [List.append_nil, List.append_nil] at e
      rw [e] at h
      cases front with
      | nil =>
          obtain ⟨rfl, hds⟩ := List.cons.inj h
          have hne : d ≠ '\uFFFD' := by
            rintro rfl
            exact absurd hc (by decide)
          exact ⟨[], ds, by rw [hd.resolve_right hne, List.nil_append], chars_nil, hds⟩
      | cons x front =>
          obtain ⟨rfl, hds⟩ := List.cons.inj h
          obtain ⟨as, es, rfl, -, hes⟩ := ih hds
          refine ⟨piece ++ as, es, (List.append_assoc ..).symm, ?_, hes⟩
          have hascii : StartsAscii (utf8EncodeChar c ++ es) := by
            obtain ⟨b, hb, hlt⟩ := encode_of_ascii hc
            simpa [StartsAscii, hb] using hlt
          have hall : chars (piece ++ as ++ (utf8EncodeChar c ++ es)) = _ := chars_append hascii
          rw [List.append_assoc, e, h, chars_encode_append, hes] at hall
          exact (List.append_cancel_right hall).symm

theorem eq_nil_of_chars {bs : List UInt8} (h : chars bs = []) : bs = [] := by
  have e : bs = Bytes.ofChars (chars bs) := eq_ofChars_of_chars (by simp [h])
  rwa [h] at e

/-- What is shown begins with an ASCII character if the bytes do. -/
theorem head?_chars_eq_iff {bs : List UInt8} {c : Char} (hc : c.toNat < 0x80) :
    (chars bs).head? = some c ↔ utf8EncodeChar c <+: bs := by
  constructor
  · intro h
    obtain ⟨cs, hcs⟩ := List.head?_eq_some_iff.mp h
    rw [← List.nil_append (c :: cs)] at hcs
    obtain ⟨as, ds, rfl, has, -⟩ := exists_of_chars_eq hc hcs
    rw [eq_nil_of_chars has]
    exact List.prefix_append _ ds
  · rintro ⟨ds, rfl⟩
    rw [chars_encode_append]
    rfl

/-- What is shown ends with an ASCII character and others, none of which is a replacement
character, if the bytes do. -/
theorem isSuffix_chars_iff {bs : List UInt8} {c : Char} {cs : List Char} (hc : c.toNat < 0x80)
    (hcs : '\uFFFD' ∉ cs) : c :: cs <:+ chars bs ↔ Bytes.ofChars (c :: cs) <:+ bs := by
  constructor
  · rintro ⟨front, h⟩
    obtain ⟨as, ds, rfl, -, hds⟩ := exists_of_chars_eq hc h.symm
    have e : ds = Bytes.ofChars (chars ds) := eq_ofChars_of_chars (hds ▸ hcs)
    rw [hds] at e
    exact ⟨as, by rw [Bytes.ofChars_cons, e]⟩
  · rintro ⟨as, rfl⟩
    have hascii : StartsAscii (Bytes.ofChars (c :: cs)) := by
      obtain ⟨b, hb, hlt⟩ := encode_of_ascii hc
      simpa [StartsAscii, Bytes.ofChars_cons, hb] using hlt
    rw [chars_append hascii, chars_ofChars]
    exact List.suffix_append _ _

/-! ### Raw texts -/

variable {s t : RawText} {x y : String}

theorem bytes_ofText (x : String) : (ofText x).bytes = Bytes.ofChars x.toList := rfl

theorem toList_shown (t : RawText) : t.shown.toList = chars t.bytes := String.toList_ofList

/-- A text is shown as itself. -/
@[simp] theorem shown_ofText (x : String) : (ofText x).shown = x := by
  rw [← String.toList_inj, toList_shown, bytes_ofText, chars_ofChars]

theorem ofText_injective : Function.Injective ofText := fun x y h => by
  rw [← shown_ofText x, h, shown_ofText]

/-- What is shown without a replacement character is spelled. -/
theorem eq_ofText_of_shown (h : '\uFFFD' ∉ t.shown.toList) : t = ofText t.shown := by
  rw [toList_shown] at h
  obtain ⟨bs⟩ := t
  rw [RawText.mk.injEq, bytes_ofText, toList_shown]
  exact eq_ofChars_of_chars h

theorem shown_eq_iff (h : '\uFFFD' ∉ x.toList) : t.shown = x ↔ t = ofText x := by
  constructor
  · rintro rfl
    exact eq_ofText_of_shown h
  · rintro rfl
    exact shown_ofText x

/-- The text that is spelled, if one is. -/
theorem text?_eq_some_iff : t.text? = some x ↔ t = ofText x := by
  unfold text?
  split
  next h =>
      rw [Option.some.injEq]
      constructor
      · rintro rfl
        exact h.symm
      · rintro rfl
        exact shown_ofText x
  next h =>
      simp only [reduceCtorEq, false_iff]
      rintro rfl
      exact h (by rw [shown_ofText])

@[simp] theorem bytes_append (s t : RawText) : (s ++ t).bytes = s.bytes ++ t.bytes := rfl

@[simp] theorem ofText_append (x y : String) : ofText (x ++ y) = ofText x ++ ofText y := by
  have e : (ofText x ++ ofText y).bytes = Bytes.ofChars (x ++ y).toList := by
    rw [String.toList_append, Bytes.ofChars_append]
    rfl
  exact congrArg mk e.symm

/-! ### Order -/

/-- Raw texts are ordered by their bytes. -/
instance : Std.IsLinearOrder RawText where
  le_refl s := Std.le_refl s.bytes
  le_trans s t u := Std.le_trans (a := s.bytes) (b := t.bytes) (c := u.bytes)
  le_antisymm s t h h' := congrArg mk (Std.le_antisymm (a := s.bytes) (b := t.bytes) h h')
  le_total s t := Std.le_total (a := s.bytes) (b := t.bytes)

instance : Std.LawfulOrderLT RawText where
  lt_iff s t := Std.lt_iff_le_and_not_ge (a := s.bytes) (b := t.bytes)

/-- Texts are ordered as raw texts just as they are. -/
theorem ofText_lt_iff : ofText x < ofText y ↔ x < y := Bytes.ofChars_lt_iff

end RawText
end CodeSurvey
