import CodeSurvey.Json.Writer
import CodeSurvey.Proofs.JsonSpellings

/-! # JSON that was written is read back

What `Json.pretty` writes is undone by `Json.parse`, but for the order of fields: an object that is
read has its fields in the order of their names (`Json.normal`).

* `quotes_escaped`: characters are escaped so that they are spelled;
* `spells_array` and `spells_object`: values that are spelled are spelled behind blanks as well, and
  with commas between them and brackets around them;
* so both the text without blanks and the one on several lines are spellings of what was written
  (`Readable.spells_compact`, `Readable.spells_pretty`), if its numbers are read back (`Readable`);
* `parse_pretty`: hence what was written is read back. -/

namespace CodeSurvey
namespace Json

/-! ### Values as they are read -/

mutual

/-- A value with the fields of its objects in the order of their names. -/
def normal : Json → Json
  | .array items => .array (normalItems items)
  | .object fields => ofFields (normalFields fields)
  | v => v

/-- Items with the fields of their objects in order. -/
def normalItems : List Json → List Json
  | [] => []
  | v :: rest => normal v :: normalItems rest

/-- Fields with the fields of the objects in them in order. -/
def normalFields : List (String × Json) → List (String × Json)
  | [] => []
  | (name, v) :: rest => (name, normal v) :: normalFields rest

end

theorem normalItems_eq (items : List Json) : normalItems items = items.map normal := by
  induction items with
  | nil => rw [normalItems, List.map_nil]
  | cons v rest ih => rw [normalItems, ih, List.map_cons]

theorem normalFields_eq (fields : List (String × Json)) :
    normalFields fields = fields.map fun f => (f.1, f.2.normal) := by
  induction fields with
  | nil => rw [normalFields, List.map_nil]
  | cons f rest ih =>
      obtain ⟨name, v⟩ := f
      rw [normalFields, ih, List.map_cons]

theorem normal_array (items : List Json) : (array items).normal = .array (items.map normal) := by
  rw [normal, normalItems_eq]

theorem normal_object (fields : List (String × Json)) :
    (object fields).normal = ofFields (fields.map fun f => (f.1, f.2.normal)) := by
  rw [normal, normalFields_eq]

/-! ### Strings -/

theorem hexValue?_hexDigit : ∀ n < 16, hexValue? (hexDigit n) = some n := by decide

variable {b cs : List Char} {v : Json}

theorem isCode_control {n : Nat} (h : n < 32) :
    IsCode ['0', '0', hexDigit (n / 16), hexDigit (n % 16)] n := by
  have hzero : hexValue? '0' = some 0 := by decide
  have hcode := IsCode.mk hzero hzero (hexValue?_hexDigit (n / 16) (by omega))
    (hexValue?_hexDigit (n % 16) (by omega))
  rwa [show ((0 * 16 + 0) * 16 + n / 16) * 16 + n % 16 = n by omega] at hcode

theorem quotes_escapeChar (c : Char) {s : List Char} (h : Quotes cs s) :
    Quotes (escapeChar c ++ cs) (c :: s) := by
  unfold escapeChar
  split
  case h_8 hq hs _ _ _ _ _ =>
      split
      next hcontrol =>
          have hcode := Quotes.code (isCode_control hcontrol) (.inl (by omega)) h
          rwa [Char.ofNat_toNat] at hcode
      next hcontrol => exact .plain hq hs (by omega) h
  all_goals exact .short (by decide) h

theorem quotes_escaped (s : List Char) : Quotes (s.flatMap escapeChar) s := by
  induction s with
  | nil => exact .nil
  | cons c s ih => exact quotes_escapeChar c ih

theorem toList_quote (s : String) :
    (quote s).toList = '"' :: (s.toList.flatMap escapeChar ++ ['"']) := by
  rw [quote, String.toList_ofList, List.cons_append]

/-! ### Numbers -/

/-- Whether a text may follow a value: nothing, or a text that cannot be part of a number. -/
def Follows (rest : List Char) : Prop := ∀ c ∈ rest.head?, c = ',' ∨ c = '\n'

/-- Whether a number is read back: it begins with a digit, and nothing that follows counts as a part
of it. -/
structure IsReadNumber (n : JsonNumber) : Prop where
  opens : ∃ c cs, n.write.toList = c :: cs ∧ c.isDigit = true
  read : ∀ {rest : List Char}, Follows rest →
    readNumber false (n.write.toList ++ rest) = .ok (n, rest)

theorem isReadNumber_of_read {n : JsonNumber} (h : readNumber false n.write.toList = .ok (n, [])) :
    IsReadNumber n := by
  refine ⟨exists_digit_of_readNumber h, fun hr => readNumber_append ?_ false _ _ _ h⟩
  intro c hc
  rcases hr c hc with rfl | rfl <;> decide

theorem isReadNumber_one : IsReadNumber (.real (.ofRatio 1 1)) := by
  have hs : (Binary64.ofRatio 1 1).shortest = ⟨1, 0⟩ := by decide +kernel
  have hn : (Binary64.ofRatio 1 1).negative = false := by decide +kernel
  have hw : (JsonNumber.real (.ofRatio 1 1)).write.toList = ['1', '.', '0'] := by
    simp only [JsonNumber.write, hs, Binary64.signed, hn]
    decide +kernel
  refine isReadNumber_of_read ?_
  rw [hw]
  decide +kernel

theorem isReadNumber_half : IsReadNumber (.real (.ofRatio 1 2)) := by
  have hs : (Binary64.ofRatio 1 2).shortest = ⟨5, -1⟩ := by decide +kernel
  have hn : (Binary64.ofRatio 1 2).negative = false := by decide +kernel
  have hw : (JsonNumber.real (.ofRatio 1 2)).write.toList = ['0', '.', '5'] := by
    simp only [JsonNumber.write, hs, Binary64.signed, hn]
    decide +kernel
  refine isReadNumber_of_read ?_
  rw [hw]
  decide +kernel

/-! ### What is written -/

/-- Whether a value is read back if others may be nested `height` deep in it. -/
inductive Readable : (height : Nat) → Json → Prop
  | null (height : Nat) : Readable height .null
  | bool (height : Nat) (b : Bool) : Readable height (.bool b)
  | number (height : Nat) {n : JsonNumber} (h : IsReadNumber n) : Readable height (.number n)
  | string (height : Nat) (s : String) : Readable height (.string s)
  | array {height : Nat} {items : List Json} (h : ∀ v ∈ items, Readable height v) :
      Readable (height + 1) (.array items)
  | object {height : Nat} {fields : List (String × Json)} (h : ∀ f ∈ fields, Readable height f.2) :
      Readable (height + 1) (.object fields)

theorem toList_intercalate (ts : List String) :
    (",".intercalate ts).toList = separated (ts.map String.toList) := by
  induction ts with
  | nil => rfl
  | cons t ts ih =>
      cases ts with
      | nil => simp [separated]
      | cons u us =>
          rw [String.intercalate_cons_cons, String.toList_append, String.toList_append, ih]
          simp [separated]

section written

variable {height : Nat} {before space gap : List Char}

/-- A value is spelled behind blanks. -/
theorem Spells.gap_append (hb : IsGap b) (h : Spells height cs v) : Spells height (b ++ cs) v := by
  induction b with
  | nil => exact h
  | cons c b ih =>
      rw [IsGap, List.forall_mem_cons] at hb
      exact .before hb.1 (ih hb.2)

/-- A field whose name is escaped, with blanks before it and before its value. -/
def writtenField (before space : List Char) (write : Json → String) (f : String × Json) :
    WrittenField where
  before := before
  name := f.1.toList.flatMap escapeChar
  between := []
  value := space ++ (write f.2).toList
  meaning := (f.1, f.2.normal)

theorem text_writtenField (before space : List Char) (write : Json → String)
    (f : String × Json) : (writtenField before space write f).text =
      before ++ ((quote f.1).toList ++ ':' :: (space ++ (write f.2).toList)) := by
  simp [writtenField, WrittenField.text, toList_quote]

/-- Items that are spelled are an array that is spelled. -/
theorem spells_array {write : Json → String} {items : List Json} (hb : IsGap before)
    (hgap : IsGap gap) (h : ∀ v ∈ items, Spells height (write v).toList v.normal) :
    Spells (height + 1) ('[' :: (separated (items.map fun v => before ++ (write v).toList) ++
      (gap ++ [']']))) (array items).normal := by
  have hitems : ∀ i ∈ items.map (fun v => (before ++ (write v).toList, v.normal)),
      Spells height i.1 i.2 := by
    rw [List.forall_mem_map]
    exact fun v hv => (h v hv).gap_append hb
  have hspells := Spells.array hgap hitems
  rw [List.map_map, List.map_map] at hspells
  rw [normal_array]
  exact hspells

/-- Fields whose values are spelled are an object that is spelled. -/
theorem spells_object {write : Json → String} {fields : List (String × Json)}
    (hb : IsGap before) (hspace : IsGap space) (hgap : IsGap gap)
    (h : ∀ f ∈ fields, Spells height (write f.2).toList f.2.normal) :
    Spells (height + 1)
      ('\x7b' :: (separated (fields.map fun f => (writtenField before space write f).text) ++
        (gap ++ ['\x7d']))) (object fields).normal := by
  have hnamed : ∀ f ∈ fields.map (writtenField before space write), f.IsNamed := by
    rw [List.forall_mem_map]
    exact fun f _ => ⟨hb, quotes_escaped f.1.toList, List.forall_mem_nil _⟩
  have hvalues : ∀ f ∈ fields.map (writtenField before space write),
      Spells height f.value f.meaning.2 := by
    rw [List.forall_mem_map]
    exact fun f hf => (h f hf).gap_append hspace
  have hspells := Spells.object hgap hnamed hvalues
  rw [List.map_map, List.map_map] at hspells
  rw [normal_object]
  exact hspells

end written

theorem compactItems_eq (items : List Json) : compactItems items = items.map compact := by
  induction items with
  | nil => rw [compactItems, List.map_nil]
  | cons v items ih => rw [compactItems, ih, List.map_cons]

theorem compactFields_eq (fields : List (String × Json)) :
    compactFields fields = fields.map fun f => quote f.1 ++ ":" ++ f.2.compact := by
  induction fields with
  | nil => rw [compactFields, List.map_nil]
  | cons f fields ih =>
      obtain ⟨name, v⟩ := f
      rw [compactFields, ih, List.map_cons]

theorem prettyItems_eq (level : Nat) (items : List Json) :
    prettyItems level items = items.map (prettyAt level) := by
  induction items with
  | nil => rw [prettyItems, List.map_nil]
  | cons v rest ih => rw [prettyItems, ih, List.map_cons]

theorem prettyFields_eq (level : Nat) (fields : List (String × Json)) :
    prettyFields level fields = fields.map fun f => quote f.1 ++ ": " ++ prettyAt level f.2 := by
  induction fields with
  | nil => rw [prettyFields, List.map_nil]
  | cons f rest ih =>
      obtain ⟨name, v⟩ := f
      rw [prettyFields, ih, List.map_cons]

theorem isGap_newline (level : Nat) : IsGap (newline level).toList := by
  intro c hc
  rw [newline, String.toList_ofList] at hc
  rcases List.mem_cons.mp hc with rfl | hc
  · rfl
  · rw [List.eq_of_mem_replicate hc]
    rfl

/-- Parts on lines of their own have commas between them, and blanks around. -/
theorem toList_block (opening closing : String) (level : Nat) (parts : List String) :
    ∃ gap, IsGap gap ∧ (block opening closing level parts).toList = opening.toList ++
      (separated (parts.map fun p => (newline (level + 1)).toList ++ p.toList) ++
        (gap ++ closing.toList)) := by
  cases parts with
  | nil => exact ⟨[], List.forall_mem_nil _, by simp [block, separated]⟩
  | cons p parts =>
      refine ⟨(newline level).toList, isGap_newline level, ?_⟩
      rw [block, List.isEmpty_cons, if_neg Bool.false_ne_true]
      simp only [String.toList_append, toList_intercalate, List.map_map, Function.comp_def,
        List.append_assoc]

theorem spells_bool (height : Nat) (b : Bool) :
    Spells height (if b then "true" else "false").toList (.bool b) := by
  cases b with
  | true => exact .true height
  | false => exact .false height

theorem spells_number (height : Nat) {n : JsonNumber} (h : IsReadNumber n) :
    Spells height n.write.toList (.number n) := by
  have hread := h.read (show Follows [] by simp [Follows])
  rw [List.append_nil] at hread
  exact .number height hread

theorem spells_quote (height : Nat) (s : String) : Spells height (quote s).toList (.string s) := by
  rw [toList_quote]
  exact .string height (quotes_escaped s.toList)

/-- What is written without blanks is a spelling of what was written. -/
theorem Readable.spells_compact {height : Nat} (h : Readable height v) :
    Spells height v.compact.toList v.normal := by
  induction h with
  | null height =>
      rw [compact]
      exact .null height
  | bool height b =>
      rw [compact]
      exact spells_bool height b
  | number height hn =>
      rw [compact]
      exact spells_number height hn
  | string height s =>
      rw [compact]
      exact spells_quote height s
  | @array height items _ ih =>
      have hspells := spells_array (List.forall_mem_nil _) (List.forall_mem_nil _) ih
      rw [compact, compactItems_eq, String.toList_append, String.toList_append,
        toList_intercalate, List.map_map]
      exact hspells
  | @object height fields _ ih =>
      have hspells := spells_object (List.forall_mem_nil _) (List.forall_mem_nil _)
        (List.forall_mem_nil _) ih
      have htexts : fields.map (fun f => (writtenField [] [] compact f).text) =
          (compactFields fields).map String.toList := by
        rw [compactFields_eq, List.map_map]
        exact List.map_congr_left fun f _ => by simp [text_writtenField]
      rw [compact, String.toList_append, String.toList_append, toList_intercalate, ← htexts]
      exact hspells

/-- What is written on several lines is a spelling of what was written. -/
theorem Readable.spells_pretty {height : Nat} (h : Readable height v) (level : Nat) :
    Spells height (prettyAt level v).toList v.normal := by
  induction h generalizing level with
  | null height =>
      rw [prettyAt]
      exact .null height
  | bool height b =>
      rw [prettyAt]
      exact spells_bool height b
  | number height hn =>
      rw [prettyAt]
      exact spells_number height hn
  | string height s =>
      rw [prettyAt]
      exact spells_quote height s
  | @array height items _ ih =>
      obtain ⟨gap, hgap, hblock⟩ := toList_block "[" "]" level (prettyItems (level + 1) items)
      have hspells := spells_array (isGap_newline (level + 1)) hgap fun v hv => ih v hv (level + 1)
      rw [prettyAt, hblock, prettyItems_eq, List.map_map]
      exact hspells
  | @object height fields _ ih =>
      obtain ⟨gap, hgap, hblock⟩ :=
        toList_block "\x7b" "\x7d" level (prettyFields (level + 1) fields)
      have hspace : IsGap [' '] := List.forall_mem_singleton.mpr rfl
      have hspells := spells_object (isGap_newline (level + 1)) hspace hgap
        fun f hf => ih f hf (level + 1)
      have htexts : fields.map (fun f =>
            (writtenField (newline (level + 1)).toList [' '] (prettyAt (level + 1)) f).text) =
          (prettyFields (level + 1) fields).map
            fun p => (newline (level + 1)).toList ++ p.toList := by
        rw [prettyFields_eq, List.map_map]
        exact List.map_congr_left fun f _ => by simp [text_writtenField]
      rw [prettyAt, hblock, ← htexts]
      exact hspells

/-- What was written is read back, with a line break behind it. -/
theorem parse_pretty {height : Nat} {v : Json} (h : Readable height v) (hh : height < maxDepth) :
    parse (v.pretty ++ "\n") = .ok v.normal := by
  refine parse_of_spells ?_ hh
  rw [String.toList_append, pretty]
  exact .after (h.spells_pretty 0) rfl

end Json
end CodeSurvey
