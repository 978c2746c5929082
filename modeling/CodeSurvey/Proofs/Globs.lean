import CodeSurvey.Glob.Reader
import CodeSurvey.Proofs.Bytes

/-! # What globs fit

A glob is matched piece by piece, and what may remain of a path after some pieces is what may
remain after the last of them of what may remain after the others (`mem_afterAll_cons`).  From
what each piece leaves two forms of globs are understood as a whole:

* `Glob.below` is the glob of all that is below a directory, and fits the paths that begin with
  its name and a slash (`fits_below`);
* `Glob.ending` is the glob of all files whose names have an ending, and fits the paths that have
  that ending (`fits_ending`).

Each is what its text spells, if the name or the ending is plain (`parse_below`,
`parse_ending`). -/

namespace CodeSurvey
namespace Glob

/-! ### What remains -/

variable {p : Piece} {ps : List Piece} {s t x : List UInt8}

theorem mem_afterAll {ss : List (List UInt8)} :
    x ∈ afterAll ps ss ↔ ∃ s ∈ ss, x ∈ afterAll ps [s] := by
  induction ps generalizing ss with
  | nil => simp [afterAll]
  | cons p ps ih =>
      simp only [afterAll]
      rw [ih]
      simp only [List.mem_eraseDups, List.mem_flatMap]
      constructor
      · rintro ⟨t, ⟨s, hs, ht⟩, hx⟩
        refine ⟨s, hs, ?_⟩
        rw [ih]
        exact ⟨t, by simpa using ht, hx⟩
      · rintro ⟨s, hs, hx⟩
        rw [ih] at hx
        obtain ⟨t, ht, hx⟩ := hx
        exact ⟨t, ⟨s, hs, by simpa using ht⟩, hx⟩

theorem mem_afterAll_cons : x ∈ afterAll (p :: ps) [s] ↔ ∃ t ∈ p.after s, x ∈ afterAll ps [t] := by
  rw [afterAll, mem_afterAll]
  simp

theorem mem_afterAll_singleton : x ∈ afterAll [p] [s] ↔ x ∈ p.after s := by
  rw [mem_afterAll_cons]
  simp [afterAll]

theorem afterText_eq_some_iff {a : List UInt8} : afterText a s = some t ↔ s = a ++ t := by
  induction a generalizing s with
  | nil => simp [afterText]
  | cons b a ih =>
      cases s with
      | nil => simp [afterText]
      | cons c s =>
          rw [afterText]
          by_cases h : b = c
          · simp [h, ih]
          · simp [h, Ne.symm h]

theorem mem_afterBytes {q : UInt8 → Bool} :
    t ∈ afterBytes q s ↔ ∃ a, s = a ++ t ∧ ∀ b ∈ a, q b = true := by
  induction s with
  | nil =>
      simp only [afterBytes, List.mem_singleton]
      constructor
      · rintro rfl
        exact ⟨[], rfl, by simp⟩
      · rintro ⟨a, h, -⟩
        exact (List.append_eq_nil_iff.mp h.symm).2
  | cons c s ih =>
      rw [afterBytes, List.mem_cons]
      constructor
      · rintro (rfl | h)
        · exact ⟨[], rfl, by simp⟩
        · split at h
          next hq =>
              obtain ⟨a, rfl, ha⟩ := ih.mp h
              exact ⟨c :: a, rfl, List.forall_mem_cons.mpr ⟨hq, ha⟩⟩
          next => cases h
      · rintro ⟨a, h, ha⟩
        cases a with
        | nil => exact .inl h.symm
        | cons b a =>
            obtain ⟨rfl, rfl⟩ := List.cons.inj h
            rw [List.forall_mem_cons] at ha
            rw [if_pos ha.1]
            exact .inr (ih.mpr ⟨a, rfl, ha.2⟩)

theorem mem_afterSlashes : t ∈ afterSlashes s ↔ ∃ a, s = a ++ slash :: t := by
  induction s with
  | nil => simp [afterSlashes]
  | cons c s ih =>
      have hs : t ∈ afterSlashes (c :: s) ↔ (c = slash ∧ t = s) ∨ t ∈ afterSlashes s := by
        rw [afterSlashes]
        by_cases h : c = slash <;> simp [h]
      rw [hs, ih]
      constructor
      · rintro (⟨rfl, rfl⟩ | ⟨a, rfl⟩)
        · exact ⟨[], rfl⟩
        · exact ⟨c :: a, rfl⟩
      · rintro ⟨a, h⟩
        cases a with
        | nil =>
            obtain ⟨rfl, rfl⟩ := List.cons.inj h
            exact .inl ⟨rfl, rfl⟩
        | cons b a => exact .inr ⟨a, (List.cons.inj h).2⟩

/-! ### What pieces leave -/

theorem mem_after_literal {c : Char} : t ∈ (Piece.literal c).after s ↔ s = bytesOf c ++ t := by
  rw [Piece.after, Option.mem_toList, afterText_eq_some_iff]

theorem mem_after_leading : t ∈ Piece.leading.after s ↔ t = s ∨ ∃ a, s = a ++ slash :: t := by
  rw [Piece.after, List.mem_cons, mem_afterSlashes]

theorem mem_after_run :
    t ∈ Piece.run.after s ↔ ∃ a, s = a ++ t ∧ ∀ b ∈ a, b ≠ slash := by
  rw [Piece.after, mem_afterBytes]
  simp

theorem nil_mem_after_trailing : [] ∈ Piece.trailing.after s ↔ ∃ t, s = slash :: t := by
  rw [Piece.after, List.mem_flatMap]
  simp only [afterSlash, Option.mem_toList, mem_afterBytes]
  constructor
  · rintro ⟨t, ht, -⟩
    cases s with
    | nil => cases ht
    | cons b s =>
        rw [afterByte] at ht
        split at ht
        next hb => exact ⟨s, by rw [beq_iff_eq.mp hb]⟩
        next => cases ht
  · rintro ⟨t, rfl⟩
    exact ⟨t, by simp [afterByte], t, by simp, by simp⟩

/-- Letters leave what follows them. -/
theorem mem_afterAll_literals {cs : List Char} :
    x ∈ afterAll (cs.map .literal ++ ps) [s] ↔
      ∃ t, s = Bytes.ofChars cs ++ t ∧ x ∈ afterAll ps [t] := by
  induction cs generalizing s with
  | nil => simp [Bytes.ofChars]
  | cons c cs ih =>
      rw [List.map_cons, List.cons_append, mem_afterAll_cons]
      simp only [mem_after_literal, ih, Bytes.ofChars_cons, bytesOf]
      constructor
      · rintro ⟨u, rfl, t, rfl, hx⟩
        exact ⟨t, by rw [List.append_assoc], hx⟩
      · rintro ⟨t, rfl, hx⟩
        exact ⟨_, by rw [List.append_assoc], t, rfl, hx⟩

/-! ### What lies below a directory -/

/-- The glob of what is below a directory at the beginning of a path. -/
def below (directory : String) : Glob :=
  ⟨directory ++ "/**", directory.toList.map .literal ++ [.trailing]⟩

theorem fits_iff_of_not_isAll {g : Glob} (h : isAll g.pieces = false) (path : String) :
    g.fits path ↔ [] ∈ afterAll g.pieces [Bytes.ofChars path.toList] := by
  rw [fits, h, Bool.false_or, List.contains_iff_mem, ← Bytes.ofText_eq]
  rfl

theorem fits_below {directory path : String} :
    (below directory).fits path ↔ directory.toList ++ ['/'] <+: path.toList := by
  have hall : isAll (below directory).pieces = false := by
    unfold below
    cases directory.toList <;> rfl
  have hslash : Bytes.ofChars ['/'] = [slash] := by decide
  rw [fits_iff_of_not_isAll hall, below, mem_afterAll_literals, ← Bytes.ofChars_isPrefix_iff,
    Bytes.ofChars_append, hslash]
  simp only [mem_afterAll_singleton, nil_mem_after_trailing]
  constructor
  · rintro ⟨t, ht, u, rfl⟩
    exact ⟨u, by rw [ht, List.append_assoc]; rfl⟩
  · rintro ⟨u, hu⟩
    exact ⟨slash :: u, by rw [← hu, List.append_assoc]; rfl, u, rfl⟩

/-! ### What has an ending -/

/-- The glob of files, wherever they are, whose names have an ending. -/
def ending (e : String) : Glob := ⟨"**/*" ++ e, .leading :: .run :: e.toList.map .literal⟩

/-- Whatever bytes there are, the last slash among them splits them. -/
theorem exists_last_slash (s : List UInt8) :
    (∀ b ∈ s, b ≠ slash) ∨ ∃ a t, s = a ++ slash :: t ∧ ∀ b ∈ t, b ≠ slash := by
  induction s with
  | nil => exact .inl (by simp)
  | cons c s ih =>
      rcases ih with h | ⟨a, t, rfl, ht⟩
      · by_cases hc : c = slash
        · exact .inr ⟨[], s, by rw [hc]; rfl, h⟩
        · exact .inl (List.forall_mem_cons.mpr ⟨hc, h⟩)
      · exact .inr ⟨c :: a, t, rfl, ht⟩

theorem fits_ending {e path : String} : (ending e).fits path ↔ e.toList <:+ path.toList := by
  have hlit : ∀ u, [] ∈ afterAll (e.toList.map .literal) [u] ↔ u = Bytes.ofChars e.toList := by
    intro u
    rw [← List.append_nil (e.toList.map Piece.literal), mem_afterAll_literals]
    simp [afterAll]
  rw [fits_iff_of_not_isAll rfl, ending, ← Bytes.ofChars_isSuffix_iff]
  simp only [mem_afterAll_cons, mem_after_leading, mem_after_run, hlit]
  constructor
  · rintro ⟨t, ht, _, ⟨a, rfl, -⟩, rfl⟩
    rcases ht with ht | ⟨b, hb⟩
    · exact ⟨a, ht⟩
    · exact ⟨b ++ slash :: a, by rw [hb, List.append_assoc]; rfl⟩
  · rintro ⟨w, hw⟩
    rcases exists_last_slash w with h | ⟨a, t, rfl, ht⟩
    · exact ⟨_, .inl rfl, _, ⟨w, hw.symm, h⟩, rfl⟩
    · refine ⟨t ++ Bytes.ofChars e.toList, .inr ⟨a, ?_⟩, _, ⟨t, rfl, ht⟩, rfl⟩
      rw [← hw, List.append_assoc]
      rfl

/-! ### Their texts -/

/-- The characters that have no meaning in a glob. -/
def IsPlain (c : Char) : Prop := c ∉ ['?', '*', '[', '\x7b', '\x7d', ',', '\\']

theorem readPieces_plain {cs : List Char} (hcs : ∀ c ∈ cs, IsPlain c) (fuel : Nat)
    (before : Option Char) (ps : List Piece) (rest : List Char) :
    readPieces (cs.length + fuel) before [] ⟨[], ps⟩ (cs ++ rest) =
      readPieces fuel (cs.getLast?.or before) [] ⟨[], (cs.map .literal).reverse ++ ps⟩ rest := by
  induction cs generalizing before ps with
  | nil => simp
  | cons c cs ih =>
      rw [List.forall_mem_cons] at hcs
      have hstep : readPieces (cs.length + fuel + 1) before [] ⟨[], ps⟩ (c :: (cs ++ rest)) =
          readPieces (cs.length + fuel) (some c) [] ⟨[], .literal c :: ps⟩ (cs ++ rest) := by
        have hc := hcs.1
        simp only [IsPlain, List.mem_cons, List.not_mem_nil, or_false, not_or] at hc
        rw [readPieces]
        · rfl
        all_goals tauto
      rw [List.length_cons, Nat.add_right_comm, List.cons_append, hstep, ih hcs.2]
      cases cs with
      | nil => simp
      | cons d ds => simp [List.getLast?_cons_cons, Option.or_of_isSome]

theorem parse_eq {text : String} {ps : List Piece}
    (h : readPieces (text.toList.length + 1) none [] .none text.toList = .ok ps) :
    parse text = .ok ⟨text, ps⟩ := by
  unfold parse
  simp only [h]
  rfl

theorem parse_below {directory : String} (h : ∀ c ∈ directory.toList, IsPlain c) :
    parse (directory ++ "/**") = .ok (below directory) := by
  have hplain : ∀ c ∈ directory.toList ++ ['/'], IsPlain c :=
    List.forall_mem_append.mpr ⟨h, by simp [IsPlain]⟩
  have htext : (directory ++ "/**").toList = (directory.toList ++ ['/']) ++ ['*', '*'] := by simp
  have hlast : (directory.toList ++ ['/']).getLast?.or none = some '/' := by simp
  have hpieces : ((directory.toList ++ ['/']).map Piece.literal).reverse ++ [] =
      .literal '/' :: (directory.toList.map Piece.literal).reverse := by simp
  have hend : readPieces 3 (some '/') []
      ⟨[], .literal '/' :: (directory.toList.map Piece.literal).reverse⟩ ['*', '*'] =
        .ok (.trailing :: (directory.toList.map Piece.literal).reverse).reverse := rfl
  have hread := readPieces_plain hplain 3 none [] ['*', '*']
  rw [hlast, hpieces, hend, List.reverse_cons, List.reverse_reverse] at hread
  have hlength : (directory.toList ++ ['/'] ++ ['*', '*']).length =
      (directory.toList ++ ['/']).length + ['*', '*'].length := List.length_append
  apply parse_eq
  rw [htext, hlength]
  exact hread

theorem parse_ending {e : String} (h : ∀ c ∈ e.toList, IsPlain c) :
    parse ("**/*" ++ e) = .ok (ending e) := by
  have htext : ("**/*" ++ e).toList = '*' :: '*' :: '/' :: '*' :: e.toList := by simp
  have hread := readPieces_plain h 3 (some '*') [.run, .leading] []
  have hend : readPieces 3 (e.toList.getLast?.or (some '*')) []
      ⟨[], (e.toList.map Piece.literal).reverse ++ [.run, .leading]⟩ [] =
        .ok (ending e).pieces := by
    rw [readPieces]
    simp [ending]
  rw [List.append_nil, hend] at hread
  have hrun : readPieces (e.toList.length + 4) (some '/') [] ⟨[], [.leading]⟩ ('*' :: e.toList) =
      readPieces (e.toList.length + 3) (some '*') [] ⟨[], [.run, .leading]⟩ e.toList := by
    cases he : e.toList with
    | nil => rfl
    | cons c cs =>
        have hc : c ≠ '*' := by
          rintro rfl
          exact absurd (h '*' (by simp [he])) (by simp [IsPlain])
        rw [readPieces]
        · rfl
        · rintro more ⟨⟩
          exact hc rfl
  have hleading : readPieces (e.toList.length + 5) none [] .none
      ('*' :: '*' :: '/' :: '*' :: e.toList) =
        readPieces (e.toList.length + 4) (some '/') [] ⟨[], [.leading]⟩ ('*' :: e.toList) := by
    rw [readPieces]
    simp [readDirectories, Branches.none]
  apply parse_eq
  rw [htext]
  exact hleading.trans (hrun.trans hread)

end Glob
end CodeSurvey
