import CodeSurvey.Proofs.FrameworkTable
import CodeSurvey.Proofs.Styles
import Mathlib.Data.List.MinMax

/-! # The table of files

Every row shows the path of a file, filled up with blanks, and behind it the counts of what the file
declares.  The width of the paths is measured in bytes, but a path is filled up by characters.  A
text has no more characters than bytes (`length_toList_le`), so the widest column holds all paths
(`length_le_pathWidth`): none is cut off, and all are filled up to the same column
(`standsAt_row`).

A row is one line (`not_mem_fileRow`), and style sequences take no column, so this holds of the
lines of the table with colours and without (`aligned_rows`). -/

namespace CodeSurvey.Report

/-! ### Rows -/

/-- The row of a file, without the line break, where paths take at least `width` columns. -/
def fileRow (width : Nat) (f : FileRecord) : List Char :=
  (fileLine width f).flatMap (Piece.render false)

/-- Whether a row shows the counts of a file from a column on.  Before them stands the whole path,
with nothing but blanks around it, and they do not begin with a blank. -/
structure StandsAt (column : Nat) (f : FileRecord) (row : List Char) : Prop where
  path : ∃ gap, 2 ≤ gap ∧ row = List.replicate 4 ' ' ++ (f.relativePath.toList ++
    (List.replicate gap ' ' ++ (declarationCounts f).toList))
  column : row.drop column = (declarationCounts f).toList
  begins : ∃ c ∈ (declarationCounts f).toList.head?, Text.isBlank c = false

variable {files : List FileRecord} {f : FileRecord}

/-- A text has no more characters than bytes. -/
theorem length_toList_le (s : String) : s.toList.length ≤ s.utf8ByteSize := by
  rw [← String.ofList_toList (s := s), String.utf8ByteSize_ofList, String.toList_ofList]
  induction s.toList with
  | nil => exact Nat.le_refl 0
  | cons c cs ih =>
      have hc := c.utf8Size_pos
      rw [List.length_cons, String.utf8Len_cons]
      omega

/-- The widest path is as wide as any, whether in bytes or in characters. -/
theorem length_le_pathWidth (h : f ∈ files) : f.relativePath.toList.length ≤ pathWidth files := by
  rw [pathWidth, List.foldl_eq_foldr]
  exact List.le_max_of_le' 0 (List.mem_map_of_mem h) (length_toList_le f.relativePath)

theorem exists_head_plural (n : Nat) (noun : String) :
    ∃ c ∈ (plural n noun).toList.head?, Text.isBlank c = false := by
  obtain ⟨c, ds, hds⟩ := List.exists_cons_of_ne_nil (Nat.toDigits_ne_nil (n := n) (b := 10))
  have hdigit : c.isDigit = true :=
    Nat.isDigit_of_mem_toDigits (by decide) (by decide) (hds ▸ List.mem_cons_self)
  refine ⟨c, ?_, not_isBlank_of_plain (by simp [hdigit])⟩
  simp [plural, hds]

theorem exists_head_intercalate {p : Char → Prop} {s : String} {ts : List String} (hne : ts ≠ [])
    (h : ∀ t ∈ ts, ∃ c ∈ t.toList.head?, p c) : ∃ c ∈ (s.intercalate ts).toList.head?, p c := by
  obtain ⟨t, us, rfl⟩ := List.exists_cons_of_ne_nil hne
  obtain ⟨c, hc, hp⟩ := h t List.mem_cons_self
  refine ⟨c, ?_, hp⟩
  cases us with
  | nil => simpa using hc
  | cons u us =>
      rw [String.intercalate_cons_cons, String.toList_append, String.toList_append,
        List.append_assoc, List.head?_append, Option.mem_def.mp hc]
      rfl

/-- The counts of declarations begin with a number or with a word. -/
theorem exists_head_declarationCounts (f : FileRecord) :
    ∃ c ∈ (declarationCounts f).toList.head?, Text.isBlank c = false := by
  rw [declarationCounts]
  split
  next => exact ⟨'n', rfl, by decide⟩
  next h =>
      refine exists_head_intercalate (by simpa using h) fun t ht => ?_
      obtain ⟨⟨n, noun⟩, -, rfl⟩ := List.mem_map.mp ht
      exact exists_head_plural n noun

theorem fileRow_eq (width : Nat) (f : FileRecord) :
    fileRow width f = List.replicate 4 ' ' ++ (Piece.fill width f.relativePath.toList ++
      (List.replicate 2 ' ' ++ (declarationCounts f).toList)) := by
  simp [fileRow, fileLine, Piece.render, Piece.plain, Piece.styled, Piece.fill]

/-- All rows show their counts from the same column on. -/
theorem standsAt_row (h : f ∈ files) :
    StandsAt (pathWidth files + 6) f (fileRow (pathWidth files) f) := by
  have hle := length_le_pathWidth h
  refine ⟨⟨pathWidth files - f.relativePath.toList.length + 2, by omega, ?_⟩, ?_,
    exists_head_declarationCounts f⟩
  · rw [fileRow_eq, Piece.fill, List.replicate_add, List.append_assoc, List.append_assoc]
  · have hlength : (List.replicate 4 ' ' ++ Piece.fill (pathWidth files) f.relativePath.toList ++
        List.replicate 2 ' ').length = pathWidth files + 6 := by
      simp only [Piece.fill, List.length_append, List.length_replicate]
      omega
    rw [fileRow_eq, ← hlength, ← List.append_assoc, ← List.append_assoc, List.drop_left]

/-! ### The table -/

/-- The table of files, with colours or without. -/
def fileTable (colours : Bool) (files : List FileRecord) : List Char :=
  (fileLines files).flatMap (Line.render colours)

/-- A row is one line. -/
theorem not_mem_fileRow (h : '\n' ∉ f.relativePath.toList) (width : Nat) :
    '\n' ∉ fileRow width f := by
  have hcounts := not_mem_declarationCounts (c := '\n') (by decide) (by decide) f
  simp [fileRow_eq, not_mem_fill_break h, hcounts]

/-- Below its headline the table has one row for each file. -/
theorem lines_fileTable (h : ∀ f ∈ files, '\n' ∉ f.relativePath.toList) :
    (Text.lines (fileTable false files)).tail = files.map (fileRow (pathWidth files)) := by
  have hlines : ∀ l ∈ fileLines files, '\n' ∉ l.flatMap (Piece.render false) := by
    rw [fileLines, List.forall_mem_cons, List.forall_mem_map]
    exact ⟨not_mem_headline _ (by decide) _, fun f hf => not_mem_fileRow (h f hf) _⟩
  rw [fileTable, lines_render hlines, fileLines, List.map_cons, List.tail_cons, List.map_map]
  rfl

/-- The rows of the table show the files in order, each with its whole path and with its counts from
the same column on.  With colours that is so once the style sequences are taken away. -/
theorem aligned_rows
    (h : ∀ f ∈ files, '\n' ∉ f.relativePath.toList ∧ IsBare f.relativePath) :
    List.Forall₂ (StandsAt (pathWidth files + 6)) files
      (Text.lines (fileTable false files)).tail ∧
    List.Forall₂ (StandsAt (pathWidth files + 6)) files
      (Text.lines (unstyled (fileTable true files))).tail := by
  have hplain : List.Forall₂ (StandsAt (pathWidth files + 6)) files
      (Text.lines (fileTable false files)).tail := by
    rw [lines_fileTable fun f hf => (h f hf).1, List.forall₂_map_right_iff, List.forall₂_same]
    exact fun f hf => standsAt_row hf
  have hsame : unstyled (fileTable true files) = fileTable false files :=
    unstyled_lines (isBare_fileLines fun f hf => (h f hf).2)
  exact ⟨hplain, by rwa [hsame]⟩

/-- A path with more bytes than characters, beside a shorter one. -/
theorem aligned_rows_manifold :
    (∀ f ∈ manifoldCodebase.files, '\n' ∉ f.relativePath.toList ∧ IsBare f.relativePath) ∧
    List.Forall₂ (StandsAt 14) manifoldCodebase.files
      (Text.lines (fileTable false manifoldCodebase.files)).tail ∧
    List.Forall₂ (StandsAt 14) manifoldCodebase.files
      (Text.lines (unstyled (fileTable true manifoldCodebase.files))).tail := by
  have h : ∀ f ∈ manifoldCodebase.files,
      '\n' ∉ f.relativePath.toList ∧ IsBare f.relativePath := by decide
  exact ⟨h, aligned_rows h⟩

example : (Text.lines (fileTable false manifoldCodebase.files)).tail =
    ["    é[1m.ts   1 type".toList, "    b.ts      no declarations".toList] := by
  decide +kernel

end CodeSurvey.Report
