import CodeSurvey.Extraction.Literal
import Mathlib.Data.List.Basic
import Mathlib.Data.Nat.Basic

/-! # Spellings of string literals

A character can be written between quotes in several ways: as itself, after a backslash, or by its
number in hexadecimal digits (`Literal.Spelling`).  `Literal.Spells text v` says that `text` writes
the characters of `v` one after the other, each in one of these ways, with any line continuations
before, between and after them.

`Literal.unescape` reads exactly one such piece at a time, whatever comes after it:

* `unescape_spelling`: a piece in front of any text gives its character;
* `unescape_continuation`: a line continuation gives nothing.  After a backslash and a return a line
  feed would be taken as well, but no piece begins with one (`Spells.head_ne_newline`).

So every spelling of `v` is decoded to `v` (`unescape_of_spells`). -/

namespace CodeSurvey

/-! ### Hexadecimal digits -/

namespace Text

/-- Whether digits spell a number in hexadecimal: its digits in either case, after any zeros. -/
def IsHex (n : Nat) (digits : List Char) : Prop :=
  ∃ zeros, digits.map Char.toLower = List.replicate zeros '0' ++ Nat.toDigits 16 n

variable {n m : Nat} {ds es : List Char}

/-- The case of a digit makes no difference. -/
theorem digit?_toLower (c : Char) : digit? 16 c.toLower = digit? 16 c := by
  have low : ∀ k < 128, digit? 16 (Char.ofNat k).toLower = digit? 16 (Char.ofNat k) := by decide
  by_cases hc : c.toNat < 128
  · rw [← Char.ofNat_toNat c]
    exact low _ hc
  · have hsame : c.toLower = c := by
      unfold Char.toLower
      rw [dif_neg]
      rintro ⟨-, hz⟩
      have : c.toNat ≤ 'Z'.toNat := hz
      have hZ : 'Z'.toNat = 90 := rfl
      omega
    rw [hsame]

theorem digitsFrom?_toLower (n : Nat) (ds : List Char) :
    digitsFrom? 16 n (ds.map Char.toLower) = digitsFrom? 16 n ds := by
  induction ds generalizing n with
  | nil => rfl
  | cons c ds ih => simp only [List.map_cons, digitsFrom?, digit?_toLower, ih]

theorem digitsFrom?_append (base n : Nat) (ds es : List Char) :
    digitsFrom? base n (ds ++ es) = (digitsFrom? base n ds).bind fun m => digitsFrom? base m es := by
  induction ds generalizing n with
  | nil => rfl
  | cons c ds ih =>
      simp only [List.cons_append, digitsFrom?]
      cases digit? base c with
      | none => rfl
      | some d => exact ih _

theorem digitsFrom?_zeros (zeros : Nat) : digitsFrom? 16 0 (List.replicate zeros '0') = some 0 := by
  induction zeros with
  | zero => rfl
  | succ zeros ih =>
      have hzero : digit? 16 '0' = some 0 := by decide
      rw [List.replicate_succ, digitsFrom?, hzero]
      exact ih

theorem digit?_digitChar : ∀ d < 16, digit? 16 d.digitChar = some d := by decide

/-- The digits of a number make that number. -/
theorem digitsFrom?_toDigits (n : Nat) : digitsFrom? 16 0 (Nat.toDigits 16 n) = some n := by
  induction n using Nat.strongRecOn with
  | ind n ih =>
      rw [Nat.toDigits_eq_if (by decide)]
      split
      next h => simp only [digitsFrom?, digit?_digitChar n h, Option.bind_some, Nat.zero_mul, Nat.zero_add]
      next h =>
          have hdigit := digit?_digitChar (n % 16) (Nat.mod_lt _ (by decide))
          rw [digitsFrom?_append, ih (n / 16) (by omega)]
          simp only [digitsFrom?, hdigit, Option.bind_some]
          congr 1
          omega

/-- Where digits make a number, each of them is a digit. -/
theorem digit?_ne_none {base : Nat} (h : digitsFrom? base n ds = some m) :
    ∀ c ∈ ds, digit? base c ≠ none := by
  induction ds generalizing n with
  | nil => simp
  | cons c ds ih =>
      rw [digitsFrom?] at h
      obtain ⟨d, hd, hrest⟩ := Option.bind_eq_some_iff.mp h
      rw [List.forall_mem_cons]
      exact ⟨by simp [hd], ih hrest⟩

/-- Digits that make a number have no sign. -/
theorem number?_of_digitsFrom? {base : Nat} (hne : ds ≠ []) (h : digitsFrom? base 0 ds = some n) :
    number? base ds = some n := by
  have hplus : '+' ∉ ds := fun hmem => digit?_ne_none h _ hmem rfl
  unfold number?
  split
  next => exact absurd rfl hne
  next => simp at hplus
  next => simp at hplus
  next => exact h

namespace IsHex

theorem digitsFrom? (h : IsHex n ds) : Text.digitsFrom? 16 0 ds = some n := by
  obtain ⟨zeros, hds⟩ := h
  rw [← digitsFrom?_toLower, hds, digitsFrom?_append, digitsFrom?_zeros]
  exact digitsFrom?_toDigits n

/-- A character that is no digit is not among the digits. -/
theorem not_mem (h : IsHex n ds) {c : Char} (hc : digit? 16 c = none) : c ∉ ds :=
  fun hmem => digit?_ne_none h.digitsFrom? c hmem hc

theorem ne_nil (h : IsHex n ds) : ds ≠ [] := by
  rintro rfl
  obtain ⟨zeros, hds⟩ := h
  have hlength := congrArg List.length hds
  have hpos : 0 < (Nat.toDigits 16 n).length := List.length_pos_of_ne_nil Nat.toDigits_ne_nil
  simp only [List.map_nil, List.length_nil, List.length_append] at hlength
  omega

theorem number? (h : IsHex n ds) : Text.number? 16 ds = some n :=
  number?_of_digitsFrom? h.ne_nil h.digitsFrom?

end IsHex
end Text

namespace Literal

open Text (IsHex)

/-! ### Spellings -/

/-- The letters that stand for a character after a backslash. -/
def letters : List (Char × Char) :=
  [('n', '\n'), ('t', '\t'), ('r', '\r'), ('b', '\x08'), ('f', '\x0c'), ('v', '\x0b'), ('0', '\x00')]

/-- The characters other than digits that do not stand for themselves after a backslash, or are
none to be written so: letters that mean something else, and the ends of lines. -/
def reserved : List Char :=
  ['n', 't', 'r', 'b', 'f', 'v', 'x', 'u', '\n', '\r', '\u2028', '\u2029']

/-- What stands for nothing: a backslash before the end of a line. -/
def continuations : List (List Char) := [['\\', '\n'], ['\\', '\r'], ['\\', '\r', '\n']]

/-- A way to write a character in a string literal. -/
inductive Spelling : List Char → Char → Prop
  | plain {c : Char} (h : c ∉ ['\\', '\n', '\r']) : Spelling [c] c
  | letter {l c : Char} (h : (l, c) ∈ letters) : Spelling ['\\', l] c
  | itself {c : Char} (hr : c ∉ reserved) (hd : c.isDigit = false) : Spelling ['\\', c] c
  | twoDigits {c : Char} {ds : List Char} (h : IsHex c.toNat ds) (hl : ds.length = 2) :
      Spelling ('\\' :: 'x' :: ds) c
  | fourDigits {c : Char} {ds : List Char} (h : IsHex c.toNat ds) (hl : ds.length = 4) :
      Spelling ('\\' :: 'u' :: ds) c
  | braces {c : Char} {ds : List Char} (h : IsHex c.toNat ds) :
      Spelling ('\\' :: 'u' :: '\x7b' :: ds ++ ['\x7d']) c

/-- Whether a text writes some characters one after the other, with any line continuations. -/
inductive Spells : List Char → List Char → Prop
  | nil : Spells [] []
  | char {w text v : List Char} {c : Char} (hw : Spelling w c) (h : Spells text v) :
      Spells (w ++ text) (c :: v)
  | continuation {w text v : List Char} (hw : w ∈ continuations) (h : Spells text v) :
      Spells (w ++ text) v

variable {c : Char} {ds w text v rest : List Char}

theorem Spells.head_ne_newline (h : Spells text v) : text.head? ≠ some '\n' := by
  cases h with
  | nil => simp
  | char hw _ =>
      cases hw with
      | plain h =>
          rintro heq
          simp_all
      | letter | itself | twoDigits | fourDigits | braces => simp
  | continuation hw _ =>
      simp only [continuations, List.mem_cons, List.not_mem_nil, or_false] at hw
      obtain rfl | rfl | rfl := hw <;> simp

/-! ### Decoding -/

theorem codePoint?_of_isHex (h : IsHex c.toNat ds) : codePoint? ds = some c := by
  have hvalid : c.toNat.isValidChar := c.valid
  have hbound : c.toNat < Nat.pow 2 32 := by
    have hsize : c.toNat < UInt32.size := c.val.toNat_lt
    exact hsize
  simp only [codePoint?, Text.numberBelow?, h.number?, Option.filter_some, hbound, decide_true, if_true,
    Option.bind_some, hvalid, Char.ofNat_toNat]

theorem unescape_cons (h : c ≠ '\\') (rest : List Char) :
    unescape (c :: rest) = c :: unescape rest := by
  rw [unescape.eq_def]
  exact if_neg h

theorem unescape_escape (c : Char) (rest : List Char) :
    unescape ('\\' :: c :: rest) = (escape c rest).1 ++ unescape (escape c rest).2 := by
  rw [unescape.eq_def]
  exact if_pos rfl

theorem letter?_of_mem_letters {l : Char} (h : (l, c) ∈ letters) : letter? l = some c := by
  simp only [letters, List.mem_cons, Prod.mk.injEq, List.not_mem_nil, or_false] at h
  obtain ⟨rfl, rfl⟩ | ⟨rfl, rfl⟩ | ⟨rfl, rfl⟩ | ⟨rfl, rfl⟩ | ⟨rfl, rfl⟩ | ⟨rfl, rfl⟩ | ⟨rfl, rfl⟩ := h <;>
    rfl

theorem escape_letter {l : Char} (h : (l, c) ∈ letters) (rest : List Char) :
    escape l rest = ([c], rest) := by
  simp only [escape, letter?_of_mem_letters h]

theorem escape_itself (hr : c ∉ reserved) (hd : c.isDigit = false) (rest : List Char) :
    escape c rest = ([c], rest) := by
  simp only [reserved, List.mem_cons, List.not_mem_nil, or_false, not_or] at hr
  obtain ⟨hn, ht, hret, hb, hf, hv, hx, hu, hlf, hcr, -, -⟩ := hr
  have h0 : c ≠ '0' := by
    rintro rfl
    simp at hd
  have hletter : letter? c = none := by simp [letter?]
  simp [escape, hletter, hcr, hu]

theorem escape_twoDigits (h : IsHex c.toNat ds) (hl : ds.length = 2) (rest : List Char) :
    escape 'x' (ds ++ rest) = ([c], rest) := by
  have hletter : letter? 'x' = none := rfl
  simp only [escape, hletter, List.take_left' hl, List.drop_left' hl, codePoint?_of_isHex h]

theorem escape_fourDigits (h : IsHex c.toNat ds) (hl : ds.length = 4) (rest : List Char) :
    escape 'u' (ds ++ rest) = ([c], rest) := by
  have hletter : letter? 'u' = none := rfl
  have hbrace : '\x7b' ∉ ds := h.not_mem (by decide)
  have hopen : ∀ after, ds ++ rest ≠ '\x7b' :: after := by
    obtain ⟨d, ds, rfl⟩ := List.exists_cons_of_ne_nil h.ne_nil
    rintro after hcons
    obtain ⟨rfl, -⟩ := List.cons.inj hcons
    exact hbrace List.mem_cons_self
  simp [escape, hletter, List.take_left' hl, List.drop_left' hl, codePoint?_of_isHex h]

theorem escape_braces (h : IsHex c.toNat ds) (rest : List Char) :
    escape 'u' ('\x7b' :: ds ++ '\x7d' :: rest) = ([c], rest) := by
  have hletter : letter? 'u' = none := rfl
  have hbrace : '\x7d' ∉ ds := h.not_mem (by decide)
  have hdigits : (ds ++ '\x7d' :: rest).takeWhile (· != '\x7d') = ds := by
    rw [List.takeWhile_append_of_pos]
    · simp
    · intro d hd
      simpa using fun heq : d = '\x7d' => hbrace (heq ▸ hd)
  simp only [escape, hletter, List.cons_append, hdigits, codePoint?_of_isHex h, List.drop_left,
    List.drop_one, List.tail_cons]

/-- A piece in front of any text gives its character. -/
theorem unescape_spelling (h : Spelling w c) (rest : List Char) :
    unescape (w ++ rest) = c :: unescape rest := by
  cases h with
  | plain h => exact unescape_cons (by rintro rfl; simp at h) rest
  | letter h =>
      rw [List.cons_append, List.cons_append, unescape_escape, List.nil_append, escape_letter h]
      rfl
  | itself hr hd =>
      rw [List.cons_append, List.cons_append, unescape_escape, List.nil_append, escape_itself hr hd]
      rfl
  | twoDigits h hl =>
      rw [List.cons_append, List.cons_append, unescape_escape, escape_twoDigits h hl]
      rfl
  | fourDigits h hl =>
      rw [List.cons_append, List.cons_append, unescape_escape, escape_fourDigits h hl]
      rfl
  | @braces _ ds h =>
      have happend : '\\' :: 'u' :: '\x7b' :: ds ++ ['\x7d'] ++ rest =
          '\\' :: 'u' :: ('\x7b' :: ds ++ '\x7d' :: rest) := by simp
      rw [happend, unescape_escape, escape_braces h]
      rfl

/-- A line continuation gives nothing. -/
theorem unescape_continuation (h : w ∈ continuations) (hrest : rest.head? ≠ some '\n') :
    unescape (w ++ rest) = unescape rest := by
  simp only [continuations, List.mem_cons, List.not_mem_nil, or_false] at h
  obtain rfl | rfl | rfl := h
  · rw [List.cons_append, List.cons_append, unescape_escape]
    rfl
  · rw [List.cons_append, List.cons_append, List.nil_append, unescape_escape]
    have hescape : escape '\r' rest = ([], rest) := by
      unfold escape
      cases rest with
      | nil => rfl
      | cons d rest =>
          have hd : d ≠ '\n' := fun heq => hrest (by rw [heq]; rfl)
          simp [letter?, hd]
    rw [hescape]
    rfl
  · rw [List.cons_append, List.cons_append, unescape_escape]
    rfl

/-- However characters are written, decoding gives these characters. -/
theorem unescape_of_spells (h : Spells text v) : unescape text = v := by
  induction h with
  | nil => rw [unescape]
  | char hw _ ih => rw [unescape_spelling hw, ih]
  | continuation hw h ih => rw [unescape_continuation hw h.head_ne_newline, ih]

/-- Two digits, a line continuation, a letter, digits in braces, and a quote, each after a
backslash. -/
def mixedSpelling : List Char :=
  ['\\', 'x', '4', '1'] ++ (['\\', '\r'] ++ (['\\', 'n'] ++
    ('\\' :: 'u' :: '\x7b' :: ['0', '1', 'F', '6', '0', '0'] ++ ['\x7d'] ++ (['\\', '\''] ++ []))))

theorem unescape_of_spells_mixed :
    Spells mixedSpelling ['A', '\n', '😀', '\''] ∧
    unescape mixedSpelling = ['A', '\n', '😀', '\''] := by
  have h : Spells mixedSpelling ['A', '\n', '😀', '\''] :=
    .char (.twoDigits ⟨0, by decide⟩ rfl) <| .continuation (by decide) <|
      .char (.letter (by decide)) <| .char (.braces ⟨1, by decide⟩) <|
      .char (.itself (by decide) (by decide)) .nil
  exact ⟨h, unescape_of_spells h⟩

end Literal
end CodeSurvey
