import CodeSurvey.Extraction.Parameter
import CodeSurvey.Proofs.Imports
import CodeSurvey.Proofs.Spellings

/-! # Surrogate pairs in string literals

A character above U+FFFF has two code units, its surrogates, and a string literal may write it by
these, each with its number in four hexadecimal digits (`Literal.PairSpelling`).  The value of such
a literal is the character.

`Literal.unescape` reads each escape sequence on its own, and the number of a surrogate is that of
no character.  So both escape sequences stay as they are written (`unescape_pair`).  This is so
wherever the pair stands: a literal is decoded piece by piece, and a piece does not depend on what
comes before it (`IsBody.unescape_append`).  Any other spelling of the character is decoded, hence
the text of a default value with a pair is never what it is with the character itself
(`defaultText?_pair`). -/

namespace CodeSurvey
namespace Literal

open Text (IsHex)

variable {c : Char} {n : Nat} {ds w pair text out before rest : List Char}

/-! ### Code units -/

/-- The code units of a character. -/
def codeUnits (c : Char) : List Nat :=
  if c.toNat < 0x10000 then [c.toNat]
  else [0xD800 + (c.toNat - 0x10000) / 0x400, 0xDC00 + (c.toNat - 0x10000) % 0x400]

/-- Whether a text writes a character by two code units, each by its number in four digits. -/
inductive PairSpelling : List Char → Char → Prop
  | mk {c : Char} {high low : Nat} {hs ls : List Char} (hc : codeUnits c = [high, low])
      (hhs : IsHex high hs) (hhl : hs.length = 4) (hls : IsHex low ls) (hll : ls.length = 4) :
      PairSpelling (('\\' :: 'u' :: hs) ++ ('\\' :: 'u' :: ls)) c

/-- The two code units of a character above U+FFFF lie in the ranges of surrogates. -/
theorem codeUnits_of_lt (hc : 0xFFFF < c.toNat) :
    ∃ high low, codeUnits c = [high, low] ∧ (0xD800 ≤ high ∧ high < 0xDC00) ∧
      0xDC00 ≤ low ∧ low < 0xE000 := by
  have hvalid : c.toNat < 0x110000 := by
    rcases c.valid with h | h
    · have hsmall : c.toNat < 0xD800 := h
      omega
    · exact h.2
  refine ⟨_, _, if_neg (by omega), ⟨?_, ?_⟩, ?_, ?_⟩ <;> omega

theorem lt_of_codeUnits {high low : Nat} (h : codeUnits c = [high, low]) : 0xFFFF < c.toNat := by
  by_contra hlt
  rw [codeUnits, if_pos (by omega)] at h
  cases h

/-- Surrogates are no characters. -/
theorem not_isValidChar_of_codeUnits {high low : Nat} (h : codeUnits c = [high, low]) :
    ¬ high.isValidChar ∧ ¬ low.isValidChar := by
  obtain ⟨high', low', h', hhigh, hlow⟩ := codeUnits_of_lt (lt_of_codeUnits h)
  cases h.symm.trans h'
  simp only [Nat.isValidChar]
  omega

/-- A number of four digits, written with four digits. -/
theorem exists_fourDigits (h : 0x1000 ≤ n) (hn : n < 0x10000) :
    ∃ ds, IsHex n ds ∧ ds.length = 4 := by
  have hdigits : Nat.toDigits 16 n =
      [n / 16 / 16 / 16, n / 16 / 16 % 16, n / 16 % 16, n % 16].map Nat.digitChar := by
    rw [Nat.toDigits_eq_if (by decide), if_neg (by omega), Nat.toDigits_eq_if (by decide),
      if_neg (by omega), Nat.toDigits_eq_if (by decide), if_neg (by omega),
      Nat.toDigits_of_lt_base (by omega)]
    rfl
  have hlower : ∀ d < 16, d.digitChar.toLower = d.digitChar := by decide
  refine ⟨Nat.toDigits 16 n, ⟨0, ?_⟩, by rw [hdigits]; rfl⟩
  rw [List.replicate_zero, List.nil_append, hdigits, List.map_map]
  refine List.map_congr_left fun d hd => hlower d ?_
  simp only [List.mem_cons, List.not_mem_nil, or_false] at hd
  omega

/-- Every character above U+FFFF can be written by its code units. -/
theorem exists_pairSpelling (hc : 0xFFFF < c.toNat) : ∃ pair, PairSpelling pair c := by
  obtain ⟨high, low, hunits, hhigh, hlow⟩ := codeUnits_of_lt hc
  obtain ⟨hs, hhs, hhl⟩ := exists_fourDigits (n := high) (by omega) (by omega)
  obtain ⟨ls, hls, hll⟩ := exists_fourDigits (n := low) (by omega) (by omega)
  exact ⟨_, .mk hunits hhs hhl hls hll⟩

/-! ### Pieces of a literal -/

/-- What stands for itself in a string literal or is one escape sequence. -/
inductive Piece : List Char → Prop
  | plain {c : Char} (h : c ≠ '\\') : Piece [c]
  | sign {c : Char} (h : c ∉ ['x', 'u', '\r']) : Piece ['\\', c]
  | lineEnd {w : List Char} (h : w ∈ [['\\', '\r'], ['\\', '\r', '\n']]) : Piece w
  | twoDigits {n : Nat} {ds : List Char} (h : IsHex n ds) (hl : ds.length = 2) :
      Piece ('\\' :: 'x' :: ds)
  | fourDigits {n : Nat} {ds : List Char} (h : IsHex n ds) (hl : ds.length = 4) :
      Piece ('\\' :: 'u' :: ds)
  | braces {n : Nat} {ds : List Char} (h : IsHex n ds) :
      Piece ('\\' :: 'u' :: '\x7b' :: ds ++ ['\x7d'])

/-- Whether a text is what may stand between the quotes of a string literal, piece by piece.  A
return after a backslash takes the line feed behind it along. -/
inductive IsBody : List Char → Prop
  | nil : IsBody []
  | append {w text : List Char} (hw : Piece w) (h : IsBody text)
      (hline : w = ['\\', '\r'] → text.head? ≠ some '\n') : IsBody (w ++ text)

theorem unescape_nil : unescape [] = [] := by rw [unescape]

/-- An escape sequence that is read in the same way whatever comes after it. -/
theorem unescape_append_of_escape (hnil : escape c ds = (out, []))
    (h : escape c (ds ++ rest) = (out, rest)) :
    unescape (('\\' :: c :: ds) ++ rest) = unescape ('\\' :: c :: ds) ++ unescape rest := by
  rw [List.cons_append, List.cons_append, unescape_escape, unescape_escape, h, hnil, unescape_nil,
    List.append_nil]

theorem escape_sign (h : c ∉ ['x', 'u', '\r']) : ∃ out, ∀ rest, escape c rest = (out, rest) := by
  simp only [List.mem_cons, List.not_mem_nil, or_false, not_or] at h
  obtain ⟨hx, hu, hr⟩ := h
  cases hletter : letter? c with
  | some d => exact ⟨[d], fun rest => by simp only [escape, hletter]⟩
  | none =>
      by_cases hn : c = '\n'
      · exact ⟨[], fun rest => by simp [escape, hn, letter?]⟩
      · exact ⟨[c], fun rest => by simp [escape, hletter, hu, hr]⟩

/-- What digits are read as that are written in some way: the character of that number, and what is
written if there is none. -/
def decoded (ds written : List Char) : List Char := (codePoint? ds).elim written ([·])

theorem escape_two (hl : ds.length = 2) (rest : List Char) :
    escape 'x' (ds ++ rest) = (decoded ds ('\\' :: 'x' :: ds), rest) := by
  have hletter : letter? 'x' = none := rfl
  cases hcode : codePoint? ds <;>
    simp [escape, decoded, hletter, List.take_left' hl, List.drop_left' hl, hcode]

theorem escape_four (h : IsHex n ds) (hl : ds.length = 4) (rest : List Char) :
    escape 'u' (ds ++ rest) = (decoded ds ('\\' :: 'u' :: ds), rest) := by
  have hletter : letter? 'u' = none := rfl
  have hopen : ∀ after, ds ++ rest ≠ '\x7b' :: after := by
    obtain ⟨d, ds, rfl⟩ := List.exists_cons_of_ne_nil h.ne_nil
    rintro after hcons
    obtain ⟨rfl, -⟩ := List.cons.inj hcons
    exact h.not_mem (by decide) List.mem_cons_self
  cases hcode : codePoint? ds <;>
    simp [escape, decoded, hletter, List.take_left' hl, List.drop_left' hl, hcode]

theorem escape_closed (h : IsHex n ds) (rest : List Char) :
    escape 'u' ('\x7b' :: ds ++ ['\x7d'] ++ rest) =
      (decoded ds ('\\' :: 'u' :: '\x7b' :: ds ++ ['\x7d']), rest) := by
  have hletter : letter? 'u' = none := rfl
  have hbrace : '\x7d' ∉ ds := h.not_mem (by decide)
  have hdigits : (ds ++ '\x7d' :: rest).takeWhile (· != '\x7d') = ds := by
    rw [List.takeWhile_append_of_pos]
    · simp
    · intro d hd
      simpa using fun heq : d = '\x7d' => hbrace (heq ▸ hd)
  cases hcode : codePoint? ds <;>
    simp [escape, decoded, hletter, hdigits, hcode]

/-- A piece is decoded in the same way whatever comes after it. -/
theorem Piece.unescape_append (h : Piece w) (hline : w = ['\\', '\r'] → rest.head? ≠ some '\n') :
    unescape (w ++ rest) = unescape w ++ unescape rest := by
  cases h with
  | plain h =>
      rw [List.singleton_append, unescape_cons h, unescape_cons h, unescape_nil]
      rfl
  | sign h =>
      obtain ⟨out, hout⟩ := escape_sign h
      exact unescape_append_of_escape (hout []) (hout rest)
  | lineEnd h =>
      have hnil : unescape w = [] := by
        rw [← List.append_nil w, unescape_continuation (List.mem_cons_of_mem _ h) (by simp),
          unescape_nil]
      rw [hnil, List.nil_append]
      rcases List.mem_cons.mp h with rfl | h
      · exact unescape_continuation (by decide) (hline rfl)
      · obtain rfl := List.mem_singleton.mp h
        rw [List.cons_append, List.cons_append, unescape_escape]
        rfl
  | twoDigits _ hl =>
      refine unescape_append_of_escape ?_ (escape_two hl rest)
      simpa using escape_two hl []
  | fourDigits h hl =>
      refine unescape_append_of_escape ?_ (escape_four h hl rest)
      simpa using escape_four h hl []
  | braces h =>
      refine unescape_append_of_escape ?_ (escape_closed h rest)
      simpa using escape_closed h []

/-- Each piece of a literal is decoded on its own. -/
theorem IsBody.unescape_append (h : IsBody before) (hrest : rest.head? ≠ some '\n') :
    unescape (before ++ rest) = unescape before ++ unescape rest := by
  induction h with
  | nil => rw [List.nil_append, unescape_nil, List.nil_append]
  | @append w text hw h hline ih =>
      have hnext : w = ['\\', '\r'] → (text ++ rest).head? ≠ some '\n' := by
        intro hw
        cases text with
        | nil => exact hrest
        | cons d ds => exact hline hw
      rw [List.append_assoc, hw.unescape_append hnext, hw.unescape_append hline, ih,
        List.append_assoc]

/-! ### Pairs in literals -/

theorem codePoint?_of_not_valid (h : IsHex n ds) (hn : ¬ n.isValidChar) : codePoint? ds = none := by
  rw [codePoint?, Text.numberBelow?, h.number?]
  by_cases hbound : n < Nat.pow 2 32
  · simp [Option.filter_some, hbound, hn]
  · simp [Option.filter_some, hbound]

/-- An escape sequence for the number of no character stays as it is written. -/
theorem unescape_of_not_valid (h : IsHex n ds) (hl : ds.length = 4) (hn : ¬ n.isValidChar)
    (rest : List Char) :
    unescape ('\\' :: 'u' :: ds ++ rest) = '\\' :: 'u' :: ds ++ unescape rest := by
  rw [List.cons_append, List.cons_append, unescape_escape, escape_four h hl, decoded,
    codePoint?_of_not_valid h hn]
  rfl

/-- A surrogate pair stays as it is written. -/
theorem unescape_pair (h : PairSpelling pair c) (rest : List Char) :
    unescape (pair ++ rest) = pair ++ unescape rest := by
  cases h with
  | mk hc hhs hhl hls hll =>
      obtain ⟨hhigh, hlow⟩ := not_isValidChar_of_codeUnits hc
      rw [List.append_assoc, unescape_of_not_valid hhs hhl hhigh,
        unescape_of_not_valid hls hll hlow, List.append_assoc]

theorem PairSpelling.length_eq (h : PairSpelling pair c) : pair.length = 12 := by
  cases h with
  | mk _ _ hhl _ hll => simp [hhl, hll]

theorem Spelling.head_ne_newline (h : Spelling w c) : (w ++ rest).head? ≠ some '\n' := by
  cases h with
  | plain h =>
      rintro heq
      simp_all
  | letter | itself | twoDigits | fourDigits | braces => simp

theorem PairSpelling.head_ne_newline (h : PairSpelling pair c) :
    (pair ++ rest).head? ≠ some '\n' := by
  cases h with
  | mk => simp

end Literal

/-- The default value of a string literal is what its body is decoded to, in double quotes. -/
theorem defaultText?_of_quotes {t : Tree} {n : Node} {text : String} (hk : n.kind = "string")
    (h : t.Quotes n text) :
    defaultText? t n = some ("\"" ++ String.ofList (Literal.unescape text.toList) ++ "\"") := by
  have hinside : String.ofList (Literal.inside (t.text n).toList) = text := by
    have hname := ImportRecord.nameText_of_quotes hk h
    rwa [ImportRecord.nameText, if_pos hk] at hname
  rw [defaultText?, hk, ← hinside, String.toList_ofList]
  rfl

namespace Literal

variable {c : Char} {before : List Char}

/-- Wherever a character above U+FFFF is written by its surrogates, these stay as they are written,
while any other spelling in their place is decoded; so the text of the default value is not the
same. -/
theorem defaultText?_pair (hc : 0xFFFF < c.toNat) (hb : IsBody before) (after : List Char) :
    (∃ pair, PairSpelling pair c) ∧
    ∀ pair, PairSpelling pair c →
      unescape (before ++ (pair ++ after)) = unescape before ++ (pair ++ unescape after) ∧
      ∀ w, Spelling w c →
        unescape (before ++ (w ++ after)) = unescape before ++ (c :: unescape after) ∧
        ∀ (t u : Tree) (m n : Node), m.kind = "string" → n.kind = "string" →
          t.Quotes m (String.ofList (before ++ (pair ++ after))) →
          u.Quotes n (String.ofList (before ++ (w ++ after))) →
          defaultText? t m ≠ defaultText? u n := by
  refine ⟨exists_pairSpelling hc, fun pair hpair => ?_⟩
  have hkept : unescape (before ++ (pair ++ after)) =
      unescape before ++ (pair ++ unescape after) := by
    rw [hb.unescape_append hpair.head_ne_newline, unescape_pair hpair]
  refine ⟨hkept, fun w hw => ?_⟩
  have hread : unescape (before ++ (w ++ after)) = unescape before ++ (c :: unescape after) := by
    rw [hb.unescape_append hw.head_ne_newline, unescape_spelling hw]
  refine ⟨hread, fun t u m n hm hn ht hu heq => ?_⟩
  rw [defaultText?_of_quotes hm ht, defaultText?_of_quotes hn hu, String.toList_ofList,
    String.toList_ofList, hkept, hread] at heq
  -- the pair has twelve characters
  have hlength := congrArg (fun o : Option String => o.map (·.toList.length)) heq
  simp [hpair.length_eq] at hlength
  omega

/-- A body with an escape sequence, and the spelling of a character by its surrogates. -/
def lineThen : List Char := ['a', '\\', 'n']
@[inherit_doc lineThen]
def smilePair : List Char := ['\\', 'u', 'D', '8', '3', 'D'] ++ ['\\', 'u', 'd', 'e', '0', '0']

/-- The body of a literal with that character between those, written by its surrogates. -/
def pairBody : String := String.ofList (lineThen ++ (smilePair ++ ['b']))

/-- The same body with the character itself. -/
def plainBody : String := String.ofList (lineThen ++ (['😀'] ++ ['b']))

/-- A source that is one string literal in double quotes. -/
def quotedTree (body : String) : Tree where
  source := .ofBytes ("\"" ++ body ++ "\"").toUTF8
  root := ⟨"string", true, none, ⟨0, 0, 0⟩, ⟨body.utf8ByteSize + 2, 0, body.utf8ByteSize + 2⟩,
    false, false, []⟩

/-- After a line feed and before a letter, the pair stays while the character itself and its number
in braces are decoded. -/
theorem defaultText?_pair_smile :
    0xFFFF < '😀'.toNat ∧ IsBody lineThen ∧ PairSpelling smilePair '😀' ∧
    unescape (lineThen ++ (smilePair ++ ['b'])) = ['a', '\n'] ++ smilePair ++ ['b'] ∧
    unescape (lineThen ++ (['😀'] ++ ['b'])) = ['a', '\n', '😀', 'b'] ∧
    unescape (lineThen ++ ("\\u\x7b1f600\x7d".toList ++ ['b'])) = ['a', '\n', '😀', 'b'] ∧
    (quotedTree pairBody).Quotes (quotedTree pairBody).root pairBody ∧
    (quotedTree plainBody).Quotes (quotedTree plainBody).root plainBody ∧
    defaultText? (quotedTree pairBody) (quotedTree pairBody).root ≠
      defaultText? (quotedTree plainBody) (quotedTree plainBody).root := by
  have hc : 0xFFFF < '😀'.toNat := by decide
  have hb : IsBody lineThen :=
    .append (w := ['a']) (.plain (by decide))
      (.append (w := ['\\', 'n']) (.sign (by decide)) .nil nofun) nofun
  have hhigh : Text.IsHex 0xD83D ['D', '8', '3', 'D'] := ⟨0, by decide⟩
  have hlow : Text.IsHex 0xDE00 ['d', 'e', '0', '0'] := ⟨0, by decide⟩
  have hp : PairSpelling smilePair '😀' := .mk (by decide) hhigh rfl hlow rfl
  obtain ⟨hkept, hread⟩ := (defaultText?_pair hc hb ['b']).2 smilePair hp
  have hline : unescape lineThen = ['a', '\n'] := by decide +kernel
  have hend : unescape ['b'] = ['b'] := by decide +kernel
  obtain ⟨hplain, hdiffer⟩ := hread ['😀'] (.plain (by decide))
  have hnumber : Text.IsHex 0x1F600 ['1', 'f', '6', '0', '0'] := ⟨0, by decide⟩
  have hbraces := (hread _ (.braces hnumber)).1
  have hpair : (quotedTree pairBody).Quotes (quotedTree pairBody).root pairBody :=
    ⟨"\"", by simp, by decide +kernel⟩
  have hchar : (quotedTree plainBody).Quotes (quotedTree plainBody).root plainBody :=
    ⟨"\"", by simp, by decide +kernel⟩
  rw [hline, hend] at hkept hplain hbraces
  exact ⟨hc, hb, hp, hkept, hplain, hbraces, hpair, hchar, hdiffer _ _ _ _ rfl rfl hpair hchar⟩

end Literal
end CodeSurvey
