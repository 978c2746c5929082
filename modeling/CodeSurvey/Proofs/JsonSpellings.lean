import CodeSurvey.Proofs.JsonNumerals
import CodeSurvey.Records.Dict

/-! # Every spelling of a JSON value is read

A value has many texts: blanks may stand around its parts, characters of strings may be escaped,
and an object may give a name several times (`Spells`).

* `Quotes.readString`: a string is read up to its closing quote;
* `IsReadAs`: what it means that a text is read as a value wherever it stands, and
  `IsReadAs.array` and `IsReadAs.object` show it for what is built of such texts;
* `parse_of_spells`: so every spelling of a value is read that is not nested too deep.

Every numeral is one of the spellings, unless the number is too large (`spells_numeral`).  A value
that is spelled has each name once in every object (`Spells.isOrdered`). -/

namespace CodeSurvey.Json

variable {b cs rest : List Char} {v : Json}

/-! ### Blanks -/

theorem skipSpace_cons {c : Char} (h : isSpace c = true) (cs : List Char) :
    skipSpace (c :: cs) = skipSpace cs := by
  rw [skipSpace, List.dropWhile_cons_of_pos h]
  rfl

theorem skipSpace_of_not {c : Char} (h : isSpace c = false) (cs : List Char) :
    skipSpace (c :: cs) = c :: cs := by
  rw [skipSpace, List.dropWhile_cons_of_neg (by simp [h])]

/-- Whether a text consists of blanks. -/
def IsGap (cs : List Char) : Prop := ∀ c ∈ cs, isSpace c = true

theorem skipSpace_append (h : IsGap b) (cs : List Char) : skipSpace (b ++ cs) = skipSpace cs :=
  List.dropWhile_append_of_pos h

theorem skipSpace_gap (h : IsGap b) : skipSpace b = [] := List.dropWhile_eq_nil_iff.mpr h

/-! ### Strings -/

/-- The characters that a letter behind a backslash stands for. -/
def shortEscapes : List (Char × Char) :=
  [('"', '"'), ('\\', '\\'), ('/', '/'), ('b', '\x08'), ('f', '\x0c'), ('n', '\n'), ('r', '\r'),
    ('t', '\t')]

/-- Four hexadecimal digits and the number that they write. -/
inductive IsCode : List Char → Nat → Prop
  | mk {a b c d : Char} {w x y z : Nat} (ha : hexValue? a = some w) (hb : hexValue? b = some x)
      (hc : hexValue? c = some y) (hd : hexValue? d = some z) :
      IsCode [a, b, c, d] (((w * 16 + x) * 16 + y) * 16 + z)

/-- Whether a text between quotes stands for a string of these characters. -/
inductive Quotes : List Char → List Char → Prop
  | nil : Quotes [] []
  | plain {c : Char} {cs s : List Char} (hquote : c ≠ '"') (hslash : c ≠ '\\')
      (hcontrol : 32 ≤ c.toNat) (h : Quotes cs s) : Quotes (c :: cs) (c :: s)
  | short {c d : Char} {cs s : List Char} (hc : (c, d) ∈ shortEscapes) (h : Quotes cs s) :
      Quotes ('\\' :: c :: cs) (d :: s)
  | code {digits cs s : List Char} {n : Nat} (hn : IsCode digits n)
      (hsurrogate : n < 0xD800 ∨ 0xDFFF < n) (h : Quotes cs s) :
      Quotes ('\\' :: 'u' :: (digits ++ cs)) (Char.ofNat n :: s)
  | pair {digits digits' cs s : List Char} {high low : Nat} (hh : IsCode digits high)
      (hhigh : 0xD800 ≤ high ∧ high ≤ 0xDBFF) (hl : IsCode digits' low)
      (hlow : 0xDC00 ≤ low ∧ low ≤ 0xDFFF) (h : Quotes cs s) :
      Quotes ('\\' :: 'u' :: (digits ++ '\\' :: 'u' :: (digits' ++ cs)))
        (Char.ofNat ((high - 0xD800) * 0x400 + (low - 0xDC00) + 0x10000) :: s)

theorem IsCode.readHex {digits : List Char} {n : Nat} (h : IsCode digits n) (rest : List Char) :
    readHex (digits ++ rest) = .ok (n, rest) := by
  obtain ⟨ha, hb, hc, hd⟩ := h
  rename_i a b c d w x y z
  have hbytes : ¬ byteCount [a, b, c, d] < 4 := by
    have hpos := And.intro a.utf8Size_pos (And.intro b.utf8Size_pos
      (And.intro c.utf8Size_pos d.utf8Size_pos))
    simp only [byteCount, List.foldl_cons, List.foldl_nil]
    omega
  simp [Json.readHex, hbytes, ha, hb, hc, hd]

theorem readEscape_short {c d : Char} (hc : (c, d) ∈ shortEscapes) (rest : List Char) :
    readEscape (c :: rest) = .ok (d, rest) := by
  simp only [shortEscapes, List.mem_cons, Prod.mk.injEq, List.not_mem_nil, or_false] at hc
  rcases hc with ⟨rfl, rfl⟩ | ⟨rfl, rfl⟩ | ⟨rfl, rfl⟩ | ⟨rfl, rfl⟩ | ⟨rfl, rfl⟩ | ⟨rfl, rfl⟩ |
    ⟨rfl, rfl⟩ | ⟨rfl, rfl⟩ <;> rfl

theorem readEscape_code {digits : List Char} {n : Nat} (hn : IsCode digits n)
    (hsurrogate : n < 0xD800 ∨ 0xDFFF < n) (rest : List Char) :
    readEscape ('u' :: (digits ++ rest)) = .ok (Char.ofNat n, rest) := by
  have hlow : ¬ (0xDC00 ≤ n ∧ n ≤ 0xDFFF) := by omega
  have hhigh : ¬ (0xD800 ≤ n ∧ n ≤ 0xDBFF) := by omega
  simp only [readEscape, hn.readHex, if_neg hlow, if_neg hhigh]

theorem readEscape_pair {digits digits' : List Char} {high low : Nat} (hh : IsCode digits high)
    (hhigh : 0xD800 ≤ high ∧ high ≤ 0xDBFF) (hl : IsCode digits' low)
    (hlow : 0xDC00 ≤ low ∧ low ≤ 0xDFFF) (rest : List Char) :
    readEscape ('u' :: (digits ++ '\\' :: 'u' :: (digits' ++ rest))) =
      .ok (Char.ofNat ((high - 0xD800) * 0x400 + (low - 0xDC00) + 0x10000), rest) := by
  have hnot : ¬ (0xDC00 ≤ high ∧ high ≤ 0xDFFF) := by omega
  simp only [readEscape, hh.readHex, if_neg hnot, if_pos hhigh, readLowSurrogate, hl.readHex,
    if_pos hlow]

theorem readString_escape {c : Char} {more : List Char} (h : readEscape cs = .ok (c, more))
    (fuel : Nat) (read : List Char) :
    readString (fuel + 1) read ('\\' :: cs) = readString fuel (c :: read) more := by
  rw [Json.readString, if_neg (by decide), if_pos rfl, h]

/-- A string is read up to its closing quote. -/
theorem Quotes.readString {s : List Char} (h : Quotes cs s) {fuel : Nat} (hf : cs.length < fuel)
    (read rest : List Char) :
    readString fuel read (cs ++ '"' :: rest) = .ok (String.ofList (read.reverse ++ s), rest) := by
  -- one round is left for the closing quote
  obtain ⟨fuel, rfl⟩ : ∃ n, fuel = n + 1 := ⟨fuel - 1, by omega⟩
  induction h generalizing fuel read with
  | nil => simp [Json.readString]
  | plain hquote hslash hcontrol _ ih =>
      rw [List.length_cons] at hf
      obtain ⟨fuel, rfl⟩ : ∃ n, fuel = n + 1 := ⟨fuel - 1, by omega⟩
      rw [List.cons_append, Json.readString, if_neg hquote, if_neg hslash,
        if_neg (Nat.not_lt.mpr hcontrol), ih _ _ (by omega)]
      simp
  | short hc _ ih =>
      simp only [List.length_cons] at hf
      obtain ⟨fuel, rfl⟩ : ∃ n, fuel = n + 1 := ⟨fuel - 1, by omega⟩
      rw [List.cons_append, List.cons_append, readString_escape (readEscape_short hc _),
        ih _ _ (by omega)]
      simp
  | code hn hsurrogate _ ih =>
      simp only [List.length_cons, List.length_append] at hf
      obtain ⟨fuel, rfl⟩ : ∃ n, fuel = n + 1 := ⟨fuel - 1, by omega⟩
      simp only [List.cons_append, List.append_assoc]
      rw [readString_escape (readEscape_code hn hsurrogate _), ih _ _ (by omega)]
      simp
  | pair hh hhigh hl hlow _ ih =>
      simp only [List.length_cons, List.length_append] at hf
      obtain ⟨fuel, rfl⟩ : ∃ n, fuel = n + 1 := ⟨fuel - 1, by omega⟩
      simp only [List.cons_append, List.append_assoc]
      rw [readString_escape (readEscape_pair hh hhigh hl hlow _), ih _ _ (by omega)]
      simp

/-! ### Values -/

/-- Texts with commas between them. -/
def separated : List (List Char) → List Char
  | [] => []
  | t :: ts => t ++ ts.flatMap (',' :: ·)

/-- A field as it is written, and what it stands for. -/
structure WrittenField where
  /-- What stands before the name. -/
  before : List Char
  /-- The name between its quotes. -/
  name : List Char
  /-- What stands between the name and the colon. -/
  between : List Char
  value : List Char
  meaning : String × Json

namespace WrittenField

/-- The text of a field. -/
def text (f : WrittenField) : List Char :=
  f.before ++ '"' :: (f.name ++ '"' :: (f.between ++ ':' :: f.value))

theorem length_value (f : WrittenField) : f.value.length ≤ f.text.length := by
  simp only [text, List.length_append, List.length_cons]
  omega

/-- Whether a field is written with its name, and with nothing but blanks around it. -/
structure IsNamed (f : WrittenField) : Prop where
  before : IsGap f.before
  name : Quotes f.name f.meaning.1.toList
  between : IsGap f.between

end WrittenField

/-- Whether a text is one of the spellings of a value in which others are nested at most `height`
deep.  Which number a numeral stands for is left to the reader of numbers, and of several fields
with one name the last counts. -/
inductive Spells : (height : Nat) → List Char → Json → Prop
  | null (height : Nat) : Spells height ['n', 'u', 'l', 'l'] .null
  | true (height : Nat) : Spells height ['t', 'r', 'u', 'e'] (.bool Bool.true)
  | false (height : Nat) : Spells height ['f', 'a', 'l', 's', 'e'] (.bool Bool.false)
  | number (height : Nat) {cs : List Char} {n : JsonNumber}
      (h : readNumber Bool.false cs = .ok (n, [])) : Spells height cs (.number n)
  | negative (height : Nat) {cs : List Char} {n : JsonNumber}
      (h : readNumber Bool.true cs = .ok (n, [])) : Spells height ('-' :: cs) (.number n)
  | string (height : Nat) {cs : List Char} {s : String} (h : Quotes cs s.toList) :
      Spells height ('"' :: (cs ++ ['"'])) (.string s)
  | array {height : Nat} {items : List (List Char × Json)} {gap : List Char} (hgap : IsGap gap)
      (h : ∀ i ∈ items, Spells height i.1 i.2) :
      Spells (height + 1) ('[' :: (separated (items.map (·.1)) ++ (gap ++ [']'])))
        (.array (items.map (·.2)))
  | object {height : Nat} {fields : List WrittenField} {gap : List Char} (hgap : IsGap gap)
      (hname : ∀ f ∈ fields, f.IsNamed) (h : ∀ f ∈ fields, Spells height f.value f.meaning.2) :
      Spells (height + 1) ('\x7b' :: (separated (fields.map (·.text)) ++ (gap ++ ['\x7d'])))
        (ofFields (fields.map (·.meaning)))
  | before {height : Nat} {c : Char} {cs : List Char} {v : Json} (hc : isSpace c = Bool.true)
      (h : Spells height cs v) : Spells height (c :: cs) v
  | after {height : Nat} {c : Char} {cs : List Char} {v : Json} (h : Spells height cs v)
      (hc : isSpace c = Bool.true) : Spells height (cs ++ [c]) v

/-- Every numeral spells a number, unless it is too large. -/
theorem spells_numeral (h : IsNumeral cs) (height : Nat) (negative : Bool) :
    (∃ n, Spells height ((if negative then ['-'] else []) ++ cs) (.number n)) ∨
      ∃ f, readNumber negative cs = .error f ∧ f.problem = .numberTooLarge := by
  refine (h.readNumber negative).imp_left fun ⟨n, hn⟩ => ⟨n, ?_⟩
  cases negative with
  | false => exact .number height hn
  | true => exact .negative height hn

theorem ends_nil : Ends [] := by
  intro c hc
  cases hc

theorem ends_cons {c : Char} (h : isNumeric c = false) (rest : List Char) : Ends (c :: rest) := by
  intro d hd
  cases hd
  exact h

theorem ends_space {c : Char} (h : isSpace c = true) (rest : List Char) : Ends (c :: rest) := by
  refine ends_cons ?_ rest
  simp only [isSpace, Bool.or_eq_true, beq_iff_eq] at h
  rcases h with ((rfl | rfl) | rfl) | rfl <;> decide

theorem ends_gap (h : IsGap b) {c : Char} (hc : isNumeric c = false) (rest : List Char) :
    Ends (b ++ c :: rest) := by
  cases b with
  | nil => exact ends_cons hc rest
  | cons d b => exact ends_space (h d List.mem_cons_self) _

theorem ends_commas (ts : List (List Char)) (h : Ends rest) :
    Ends (ts.flatMap (',' :: ·) ++ rest) := by
  cases ts with
  | nil => exact h
  | cons t ts => exact ends_cons (by decide) _

/-- Whether a text is read as a value, wherever it stands.  Some of the blanks at its end may be left:
the reader passes over them only when it looks for what comes next. -/
structure IsReadAs (depth : Nat) (cs : List Char) (v : Json) : Prop where
  opens : ∃ c ds, skipSpace cs = c :: ds ∧ c ≠ ',' ∧ c ≠ ']'
  read : ∀ {fuel : Nat} {rest : List Char}, Ends rest → cs.length < fuel →
    ∃ b, IsGap b ∧ readValue fuel depth (cs ++ rest) = .ok (v, b ++ rest)

section reading

variable {depth fuel : Nat} {t more gap : List Char}

theorem IsReadAs.opens_append (h : IsReadAs depth cs v) (rest : List Char) :
    ∃ c ds, skipSpace (cs ++ rest) = c :: ds ∧ c ≠ ',' ∧ c ≠ ']' := by
  obtain ⟨c, ds, hds, hc⟩ := h.opens
  refine ⟨c, ds ++ rest, ?_, hc⟩
  unfold skipSpace at hds ⊢
  rw [List.dropWhile_append, hds]
  rfl

/-- A value is read behind the blanks before it, too. -/
theorem IsReadAs.read_skipSpace (h : IsReadAs depth cs v) (hr : Ends rest) (hf : cs.length < fuel) :
    ∃ b, IsGap b ∧ readValue fuel depth (skipSpace (cs ++ rest)) = .ok (v, b ++ rest) := by
  obtain ⟨b, hb, hread⟩ := h.read hr hf
  refine ⟨b, hb, ?_⟩
  obtain ⟨fuel, rfl⟩ : ∃ n, fuel = n + 1 := ⟨fuel - 1, by omega⟩
  rw [← hread, readValue, readValue]
  rw [show skipSpace (skipSpace (cs ++ rest)) = skipSpace (cs ++ rest) from
    List.dropWhile_idempotent (p := isSpace) _]

/-- It is enough that a text is read to its end. -/
theorem IsReadAs.of_read {c : Char} (hspace : isSpace c = false) (hcomma : c ≠ ',') (hend : c ≠ ']')
    (hread : ∀ fuel rest, Ends rest → cs.length < fuel →
      readValue (fuel + 1) depth (c :: (cs ++ rest)) = .ok (v, rest)) :
    IsReadAs depth (c :: cs) v := by
  refine ⟨⟨c, cs, skipSpace_of_not hspace cs, hcomma, hend⟩, ?_⟩
  intro fuel rest hr hf
  rw [List.length_cons] at hf
  obtain ⟨fuel, rfl⟩ : ∃ n, fuel = n + 1 := ⟨fuel - 1, by omega⟩
  exact ⟨[], List.forall_mem_nil _, hread fuel rest hr (by omega)⟩

/-- A value is read in front of a blank. -/
theorem IsReadAs.after {c : Char} (h : IsReadAs depth cs v) (hc : isSpace c = true) :
    IsReadAs depth (cs ++ [c]) v := by
  refine ⟨h.opens_append [c], ?_⟩
  intro fuel rest hr hf
  rw [List.length_append, List.length_singleton] at hf
  obtain ⟨b, hb, hread⟩ := h.read (ends_space hc rest) (show cs.length < fuel by omega)
  refine ⟨b ++ [c], ?_, ?_⟩
  · intro d hd
    rcases List.mem_append.mp hd with hd | hd
    · exact hb d hd
    · rwa [List.mem_singleton.mp hd]
  · simpa using hread

/-- A value is read behind a blank. -/
theorem IsReadAs.before {c : Char} (hc : isSpace c = true) (h : IsReadAs depth cs v) :
    IsReadAs depth (c :: cs) v := by
  refine ⟨by rw [skipSpace_cons hc]; exact h.opens, ?_⟩
  intro fuel rest hr hf
  rw [List.length_cons] at hf
  obtain ⟨fuel, rfl⟩ : ∃ n, fuel = n + 1 := ⟨fuel - 1, by omega⟩
  obtain ⟨b, hb, hread⟩ := h.read hr (show cs.length < fuel + 1 by omega)
  refine ⟨b, hb, ?_⟩
  rw [← hread, List.cons_append, readValue, readValue, skipSpace_cons hc]

/-! ### Items -/

theorem readItems_gap (hb : IsGap b) (read : List Json) (cs : List Char) :
    readItems (fuel + 1) depth read (b ++ cs) = readItems (fuel + 1) depth read cs := by
  rw [readItems, readItems, skipSpace_append hb]

theorem readItems_close (hgap : IsGap gap) (read : List Json) (rest : List Char) :
    readItems (fuel + 1) depth read (gap ++ ']' :: rest) = .ok (.array read.reverse, rest) := by
  rw [readItems, skipSpace_append hgap, skipSpace_of_not rfl]
  rfl

theorem readItems_one (hv : IsReadAs depth t v) (hm : Ends more) (hf : t.length < fuel) :
    ∃ b, IsGap b ∧
      readItems (fuel + 1) depth [] (t ++ more) = readItems fuel depth [v] (b ++ more) := by
  obtain ⟨b, hb, hread⟩ := hv.read_skipSpace hm hf
  obtain ⟨c, ds, hds, hcomma, hend⟩ := hv.opens_append more
  refine ⟨b, hb, ?_⟩
  rw [hds] at hread
  rw [readItems, hds]
  split
  next h => cases h
  next h => exact absurd (List.cons.inj h).1 hend
  next h => exact absurd (List.cons.inj h).1 hcomma
  next => simp only [List.isEmpty_nil, if_true, hread]

theorem readItems_more (hv : IsReadAs depth t v) (hm : Ends more) (hf : t.length < fuel)
    {read : List Json} (hr : read ≠ []) (hb : IsGap b) :
    ∃ b', IsGap b' ∧ readItems (fuel + 1) depth read (b ++ ',' :: (t ++ more)) =
      readItems fuel depth (v :: read) (b' ++ more) := by
  obtain ⟨b', hb', hread⟩ := hv.read_skipSpace hm hf
  obtain ⟨c, ds, hds, hcomma, hend⟩ := hv.opens_append more
  refine ⟨b', hb', ?_⟩
  have he : read.isEmpty = false := by simpa using hr
  rw [hds] at hread
  rw [readItems, skipSpace_append hb, skipSpace_of_not rfl]
  simp only [he, if_neg Bool.false_ne_true, hds]
  split
  next h => cases h
  next h => exact absurd (List.cons.inj h).1 hend
  next => simp only [hread]

/-- The items after the first are read, and the end of the list. -/
theorem readItems_commas {items : List (List Char × Json)}
    (h : ∀ i ∈ items, IsReadAs depth i.1 i.2) {read : List Json} (hr : read ≠ []) (hb : IsGap b)
    (hgap : IsGap gap) (rest : List Char)
    (hf : ((items.map (·.1)).flatMap (',' :: ·)).length < fuel) :
    readItems fuel depth read
        (b ++ ((items.map (·.1)).flatMap (',' :: ·) ++ (gap ++ ']' :: rest))) =
      .ok (.array (read.reverse ++ items.map (·.2)), rest) := by
  induction items generalizing read fuel b with
  | nil =>
      obtain ⟨fuel, rfl⟩ : ∃ n, fuel = n + 1 := ⟨fuel - 1, by omega⟩
      rw [readItems_gap hb, List.map_nil, List.flatMap_nil, List.nil_append, readItems_close hgap,
        List.map_nil, List.append_nil]
  | cons i items ih =>
      rw [List.forall_mem_cons] at h
      simp only [List.map_cons, List.flatMap_cons, List.cons_append, List.append_assoc,
        List.length_cons, List.length_append] at hf ⊢
      obtain ⟨fuel, rfl⟩ : ∃ n, fuel = n + 1 := ⟨fuel - 1, by omega⟩
      have hm := ends_commas (items.map (·.1)) (ends_gap hgap (c := ']') (by decide) rest)
      obtain ⟨b', hb', hread⟩ := readItems_more h.1 hm (show i.1.length < fuel by omega) hr hb
      rw [hread, ih h.2 (List.cons_ne_nil _ _) hb' (by omega)]
      simp

theorem IsReadAs.array {items : List (List Char × Json)} (hd : 1 < depth) (hgap : IsGap gap)
    (h : ∀ i ∈ items, IsReadAs (depth - 1) i.1 i.2) :
    IsReadAs depth ('[' :: (separated (items.map (·.1)) ++ (gap ++ [']'])))
      (.array (items.map (·.2))) := by
  refine .of_read rfl (by decide) (by decide) fun fuel rest _ hf => ?_
  rw [readValue, skipSpace_of_not rfl]
  simp only [if_neg (Nat.not_le.mpr hd)]
  obtain ⟨fuel, rfl⟩ : ∃ n, fuel = n + 1 := ⟨fuel - 1, by omega⟩
  cases items with
  | nil =>
      simp only [separated, List.map_nil, List.nil_append, List.append_assoc]
      exact readItems_close hgap [] rest
  | cons i items =>
      rw [List.forall_mem_cons] at h
      have hm := ends_commas (items.map (·.1)) (ends_gap hgap (c := ']') (by decide) rest)
      simp only [separated, List.map_cons, List.length_append, List.length_singleton] at hf
      obtain ⟨b, hb, hread⟩ := readItems_one h.1 hm (show i.1.length < fuel by omega)
      simp only [separated, List.map_cons, List.cons_append, List.nil_append, List.append_assoc]
      rw [hread, readItems_commas h.2 (List.cons_ne_nil _ _) hb hgap rest (by omega)]
      simp

/-! ### Fields -/

theorem readFields_gap (hb : IsGap b) (first : Bool) (read : List (String × Json))
    (cs : List Char) : readFields (fuel + 1) depth first read (b ++ cs) =
      readFields (fuel + 1) depth first read cs := by
  rw [readFields, readFields, skipSpace_append hb]

theorem readFields_close (hgap : IsGap gap) (first : Bool) (read : List (String × Json))
    (rest : List Char) :
    readFields (fuel + 1) depth first read (gap ++ '\x7d' :: rest) = .ok (.object read, rest) := by
  rw [readFields, skipSpace_append hgap, skipSpace_of_not rfl]
  rfl

theorem readColon_gap (hb : IsGap b) (cs : List Char) : readColon (b ++ ':' :: cs) = .ok cs := by
  rw [readColon, skipSpace_append hb, skipSpace_of_not rfl]
  rfl

/-- A name is read behind its opening quote. -/
theorem WrittenField.IsNamed.readString {f : WrittenField} (h : f.IsNamed) (rest : List Char) :
    readString ((f.name ++ '"' :: rest).length + 1) [] (f.name ++ '"' :: rest) =
      .ok (f.meaning.1, rest) := by
  rw [h.name.readString (by rw [List.length_append]; omega), List.reverse_nil, List.nil_append,
    String.ofList_toList]

variable {f : WrittenField}

theorem readFields_one (hn : f.IsNamed) (hv : IsReadAs depth f.value f.meaning.2) (hm : Ends more)
    (hf : f.value.length < fuel) :
    ∃ b, IsGap b ∧ readFields (fuel + 1) depth true [] (f.text ++ more) =
      readFields fuel depth false (insertField f.meaning.1 f.meaning.2 []) (b ++ more) := by
  obtain ⟨b, hb, hread⟩ := hv.read hm hf
  refine ⟨b, hb, ?_⟩
  simp only [WrittenField.text, List.append_assoc, List.cons_append]
  rw [readFields, skipSpace_append hn.before, skipSpace_of_not rfl]
  simp only [if_true, hn.readString, readColon_gap hn.between, hread]

theorem readFields_more (hn : f.IsNamed) (hv : IsReadAs depth f.value f.meaning.2) (hm : Ends more)
    (hf : f.value.length < fuel) (read : List (String × Json)) (hb : IsGap b) :
    ∃ b', IsGap b' ∧ readFields (fuel + 1) depth false read (b ++ ',' :: (f.text ++ more)) =
      readFields fuel depth false (insertField f.meaning.1 f.meaning.2 read) (b' ++ more) := by
  obtain ⟨b', hb', hread⟩ := hv.read hm hf
  refine ⟨b', hb', ?_⟩
  have hquote : isSpace '"' = false := rfl
  simp only [WrittenField.text, List.append_assoc, List.cons_append]
  rw [readFields, skipSpace_append hb, skipSpace_of_not rfl]
  simp only [if_neg Bool.false_ne_true, skipSpace_append hn.before, skipSpace_of_not hquote,
    hn.readString, readColon_gap hn.between, hread]

/-- The fields after the first are read, and the end of the object. -/
theorem readFields_commas {fields : List WrittenField} (hn : ∀ f ∈ fields, f.IsNamed)
    (h : ∀ f ∈ fields, IsReadAs depth f.value f.meaning.2) (read : List (String × Json))
    (hb : IsGap b) (hgap : IsGap gap) (rest : List Char)
    (hf : ((fields.map (·.text)).flatMap (',' :: ·)).length < fuel) :
    readFields fuel depth false read
        (b ++ ((fields.map (·.text)).flatMap (',' :: ·) ++ (gap ++ '\x7d' :: rest))) =
      .ok (.object ((fields.map (·.meaning)).foldl (fun acc f => insertField f.1 f.2 acc) read),
        rest) := by
  induction fields generalizing read fuel b with
  | nil =>
      obtain ⟨fuel, rfl⟩ : ∃ n, fuel = n + 1 := ⟨fuel - 1, by omega⟩
      rw [readFields_gap hb, List.map_nil, List.flatMap_nil, List.nil_append,
        readFields_close hgap, List.map_nil, List.foldl_nil]
  | cons f fields ih =>
      rw [List.forall_mem_cons] at h hn
      have hlength : f.value.length ≤ f.text.length := f.length_value
      simp only [List.map_cons, List.flatMap_cons, List.cons_append, List.append_assoc,
        List.length_cons, List.length_append] at hf ⊢
      obtain ⟨fuel, rfl⟩ : ∃ n, fuel = n + 1 := ⟨fuel - 1, by omega⟩
      have hm := ends_commas (fields.map (·.text)) (ends_gap hgap (c := '\x7d') (by decide) rest)
      obtain ⟨b', hb', hread⟩ :=
        readFields_more hn.1 h.1 hm (show f.value.length < fuel by omega) read hb
      rw [hread, ih hn.2 h.2 _ hb' (by omega), List.foldl_cons]

theorem IsReadAs.object {fields : List WrittenField} (hd : 1 < depth) (hgap : IsGap gap)
    (hn : ∀ f ∈ fields, f.IsNamed)
    (h : ∀ f ∈ fields, IsReadAs (depth - 1) f.value f.meaning.2) :
    IsReadAs depth ('\x7b' :: (separated (fields.map (·.text)) ++ (gap ++ ['\x7d'])))
      (ofFields (fields.map (·.meaning))) := by
  refine .of_read rfl (by decide) (by decide) fun fuel rest _ hf => ?_
  rw [readValue, skipSpace_of_not rfl]
  simp only [if_neg (Nat.not_le.mpr hd)]
  obtain ⟨fuel, rfl⟩ : ∃ n, fuel = n + 1 := ⟨fuel - 1, by omega⟩
  cases fields with
  | nil =>
      simp only [separated, List.map_nil, List.nil_append, List.append_assoc]
      exact readFields_close hgap true [] rest
  | cons f fields =>
      rw [List.forall_mem_cons] at h hn
      have hlength : f.value.length ≤ f.text.length := f.length_value
      have hm := ends_commas (fields.map (·.text)) (ends_gap hgap (c := '\x7d') (by decide) rest)
      simp only [separated, List.map_cons, List.length_append, List.length_singleton] at hf
      obtain ⟨b, hb, hread⟩ := readFields_one hn.1 h.1 hm (show f.value.length < fuel by omega)
      simp only [separated, List.map_cons, List.cons_append, List.nil_append, List.append_assoc]
      rw [hread, readFields_commas hn.2 h.2 _ hb hgap rest (by omega)]
      rfl

end reading

/-! ### Texts -/

theorem isReadAs_null (depth : Nat) : IsReadAs depth ['n', 'u', 'l', 'l'] .null := by
  refine .of_read rfl (by decide) (by decide) fun fuel rest _ _ => ?_
  rw [readValue, skipSpace_of_not rfl]
  rfl

theorem isReadAs_true (depth : Nat) : IsReadAs depth ['t', 'r', 'u', 'e'] (.bool true) := by
  refine .of_read rfl (by decide) (by decide) fun fuel rest _ _ => ?_
  rw [readValue, skipSpace_of_not rfl]
  rfl

theorem isReadAs_false (depth : Nat) : IsReadAs depth ['f', 'a', 'l', 's', 'e'] (.bool false) := by
  refine .of_read rfl (by decide) (by decide) fun fuel rest _ _ => ?_
  rw [readValue, skipSpace_of_not rfl]
  rfl

theorem isReadAs_string (depth : Nat) {s : String} (h : Quotes cs s.toList) :
    IsReadAs depth ('"' :: (cs ++ ['"'])) (.string s) := by
  refine .of_read rfl (by decide) (by decide) fun fuel rest _ _ => ?_
  have hread := h.readString
    (show cs.length < (cs ++ '"' :: rest).length + 1 by rw [List.length_append]; omega) [] rest
  rw [List.reverse_nil, List.nil_append, String.ofList_toList] at hread
  rw [readValue, skipSpace_of_not rfl, List.append_assoc, List.singleton_append]
  simp only [hread]
  rfl

theorem isReadAs_negative (depth : Nat) {n : JsonNumber} (h : readNumber true cs = .ok (n, [])) :
    IsReadAs depth ('-' :: cs) (.number n) := by
  refine .of_read rfl (by decide) (by decide) fun fuel rest hr _ => ?_
  rw [readValue, skipSpace_of_not rfl]
  simp only [readNumber_append hr true cs _ _ h]
  rfl

/-- A numeral without a sign begins with a digit. -/
theorem exists_digit_of_readNumber {n : JsonNumber} {negative : Bool}
    (h : readNumber negative cs = .ok (n, rest)) : ∃ c ds, cs = c :: ds ∧ c.isDigit = true := by
  unfold readNumber at h
  split at h
  next => cases h
  next c ds =>
      refine ⟨c, ds, rfl, ?_⟩
      by_contra hdigit
      rw [digit?, if_neg hdigit] at h
      cases h

theorem isReadAs_number (depth : Nat) {n : JsonNumber} (h : readNumber false cs = .ok (n, [])) :
    IsReadAs depth cs (.number n) := by
  obtain ⟨c, ds, rfl, hdigit⟩ := exists_digit_of_readNumber h
  have hne : ∀ d : Char, d.isDigit = false → c ≠ d := by
    rintro d hd rfl
    rw [hdigit] at hd
    cases hd
  have hspace : isSpace c = false := by
    simp [isSpace, hne ' ' rfl, hne '\n' rfl, hne '\t' rfl, hne '\r' rfl]
  refine .of_read hspace (hne ',' rfl) (hne ']' rfl) fun fuel rest hr _ => ?_
  rw [readValue, skipSpace_of_not hspace]
  split
  next h => cases h
  next h => exact absurd (List.cons.inj h).1 (hne 'n' rfl)
  next h => exact absurd (List.cons.inj h).1 (hne 't' rfl)
  next h => exact absurd (List.cons.inj h).1 (hne 'f' rfl)
  next h => exact absurd (List.cons.inj h).1 (hne '-' rfl)
  next h => exact absurd (List.cons.inj h).1 (hne '"' rfl)
  next h => exact absurd (List.cons.inj h).1 (hne '[' rfl)
  next h => exact absurd (List.cons.inj h).1 (hne '\x7b' rfl)
  next heq =>
      obtain ⟨rfl, rfl⟩ := List.cons.inj heq
      rw [if_pos hdigit, ← List.cons_append, readNumber_append hr false _ _ _ h]
      rfl

/-- A spelling of a value is read as it if there is room for what is nested in it. -/
theorem Spells.isReadAs {height : Nat} (h : Spells height cs v) {depth : Nat}
    (hd : height < depth) : IsReadAs depth cs v := by
  induction h generalizing depth with
  | null => exact isReadAs_null depth
  | true => exact isReadAs_true depth
  | false => exact isReadAs_false depth
  | number _ h => exact isReadAs_number depth h
  | negative _ h => exact isReadAs_negative depth h
  | string _ h => exact isReadAs_string depth h
  | array hgap _ ih => exact .array (by omega) hgap fun i hi => ih i hi (by omega)
  | object hgap hname _ ih => exact .object (by omega) hgap hname fun f hf => ih f hf (by omega)
  | before hc _ ih => exact (ih hd).before hc
  | after _ hc ih => exact (ih hd).after hc

/-- A text is read as what it spells. -/
theorem parse_of_spells {height : Nat} {text : String} (h : Spells height text.toList v)
    (hh : height < maxDepth) : parse text = .ok v := by
  obtain ⟨b, hb, hread⟩ := (h.isReadAs hh).read ends_nil
    (show text.toList.length < 2 * text.toList.length + 2 by omega)
  rw [List.append_nil, List.append_nil] at hread
  unfold parse
  simp only [hread, skipSpace_gap hb]

/-! ### Names -/

theorem insertField_eq (name : String) (v : Json) (fields : List (String × Json)) :
    insertField name v fields = Dict.insertEntry name v fields := by
  induction fields with
  | nil => rfl
  | cons f rest ih => rw [insertField, Dict.insertEntry, ih]

/-- Whether every object in a value has each name once, in order. -/
inductive IsOrdered : Json → Prop
  | null : IsOrdered .null
  | bool (b : Bool) : IsOrdered (.bool b)
  | number (n : JsonNumber) : IsOrdered (.number n)
  | string (s : String) : IsOrdered (.string s)
  | array {items : List Json} (h : ∀ v ∈ items, IsOrdered v) : IsOrdered (.array items)
  | object {fields : List (String × Json)} (hs : fields.Pairwise (·.1 < ·.1))
      (h : ∀ f ∈ fields, IsOrdered f.2) : IsOrdered (.object fields)

theorem IsOrdered.ofFields {fields : List (String × Json)} (h : ∀ f ∈ fields, IsOrdered f.2) :
    IsOrdered (ofFields fields) := by
  -- the fields that were read before are in order already
  have hfold : ∀ read : List (String × Json), read.Pairwise (·.1 < ·.1) →
      (∀ f ∈ read, IsOrdered f.2) →
      IsOrdered (.object (fields.foldl (fun acc f => insertField f.1 f.2 acc) read)) := by
    induction fields with
    | nil => exact fun read hs hread => .object hs hread
    | cons f fields ih =>
        rw [List.forall_mem_cons] at h
        intro read hs hread
        rw [List.foldl_cons]
        refine ih h.2 _ ?_ ?_
        · rw [insertField_eq]
          exact Dict.sorted_insertEntry _ _ hs
        · intro g hg
          rw [insertField_eq] at hg
          rcases Dict.mem_insertEntry hg with rfl | hg
          · exact h.1
          · exact hread g hg
  exact hfold [] .nil (List.forall_mem_nil _)

theorem Spells.isOrdered {height : Nat} (h : Spells height cs v) : v.IsOrdered := by
  induction h with
  | null => exact .null
  | true => exact .bool _
  | false => exact .bool _
  | number => exact .number _
  | negative => exact .number _
  | string => exact .string _
  | array _ _ ih =>
      refine .array fun v hv => ?_
      obtain ⟨i, hi, rfl⟩ := List.mem_map.mp hv
      exact ih i hi
  | object _ _ _ ih =>
      refine .ofFields fun f hf => ?_
      obtain ⟨e, he, rfl⟩ := List.mem_map.mp hf
      exact ih e he
  | before _ _ ih => exact ih
  | after _ _ ih => exact ih

end CodeSurvey.Json
