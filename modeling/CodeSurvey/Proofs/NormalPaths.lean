import CodeSurvey.Proofs.Survey
import Mathlib.Logic.Relation

/-! # Normal forms of paths

A path says no more than its components: how it starts, which is told by its first segments
(`Path.start?`), and then the parents and names among its segments (`Path.inner`).

* `components_rejoin`: its components with single slashes between them say the same, also where
  they begin with the root, which is written as a slash itself and so with two of them.
* `components_normalize`: the normal form, which shows these, says what is shown of the path
  (`Component.asShown`); of a path that spells a text that is what the path says.
* `components_eq_iff`: paths have the same components if one can be turned into the other by
  adding and removing slashes beside slashes, inner dots, and slashes and dots at the end
  (`Path.Respells`), and only then.
* `SameFrame.of_components_shown`: paths that are shown with the same components begin alike and
  have the same number of parents.

In a survey (`Survey.normalize_faithful`) the normal form stands for the path, so that paths that
are shown differently are told apart in records, in exports and by exclude patterns. -/

namespace CodeSurvey

namespace Path

/-! ### Segments -/

/-- The parents and names in a path. -/
def inner (path : RawText) : List Component := (segments path.bytes).filterMap component?

theorem components_eq (path : RawText) :
    components path = (start? (segments path.bytes)).toList ++ inner path := rfl

theorem segments_cons_of_ne {b : UInt8} (hb : b ≠ slash) (bs : List UInt8) :
    ∃ s rest, segments bs = s :: rest ∧ segments (b :: bs) = (b :: s) :: rest := by
  obtain ⟨s, rest, h⟩ := List.exists_cons_of_ne_nil (segments_ne_nil bs)
  exact ⟨s, rest, h, by rw [segments, if_neg hb, h]⟩

theorem segments_append_slash (as bs : List UInt8) :
    segments (as ++ slash :: bs) = segments as ++ segments bs := by
  induction as with
  | nil => rw [List.nil_append, segments_cons_slash, segments, List.singleton_append]
  | cons a rest ih =>
      by_cases ha : a = slash
      · rw [ha, List.cons_append, segments_cons_slash, segments_cons_slash, ih, List.cons_append]
      · obtain ⟨s, more, h, hcons⟩ := segments_cons_of_ne ha rest
        rw [hcons, List.cons_append, segments, if_neg ha, ih, h, List.cons_append,
          List.cons_append]

theorem segments_append (a b : RawText) :
    segments (a ++ "/" ++ b).bytes = segments a.bytes ++ segments b.bytes := by
  rw [← segments_append_slash]
  simp [bytes_slash]

/-- The segments of texts with slashes between them, whatever slashes are in the texts. -/
theorem segments_ofNames_of_ne_nil {texts : List RawText} (h : texts ≠ []) :
    segments (ofNames texts).bytes = texts.flatMap fun t => segments t.bytes := by
  induction texts with
  | nil => exact absurd rfl h
  | cons t rest ih =>
      by_cases hr : rest = []
      · rw [hr, ofNames_singleton]
        simp
      · rw [ofNames_cons t hr, segments_append, ih hr, List.flatMap_cons]

/-- A path is its segments with slashes between them. -/
theorem ofNames_segments (path : RawText) : ofNames ((segments path.bytes).map .mk) = path := by
  have e : (ofNames ((segments path.bytes).map .mk)).bytes = path.bytes := by
    rw [bytes_ofNames, List.map_map, segments_eq_splitOn]
    simp [Function.comp_def]
  exact congrArg RawText.mk e

/-- How a path starts is seen before its last slash. -/
theorem start?_append {front : List (List UInt8)} (hf : front ≠ []) {rest more : List (List UInt8)}
    (hr : rest ≠ []) (hm : more ≠ []) : start? (front ++ rest) = start? (front ++ more) := by
  obtain ⟨s, front, rfl⟩ := List.exists_cons_of_ne_nil hf
  obtain ⟨t, rest, rfl⟩ := List.exists_cons_of_ne_nil hr
  obtain ⟨u, more, rfl⟩ := List.exists_cons_of_ne_nil hm
  cases s <;> cases front <;> rfl

/-! ### Parents and names -/

/-- Whether a component can stand anywhere in a path. -/
def Component.IsInner (c : Component) : Prop := c = .parent ∨ ∃ n, IsName n ∧ c = .normal n

theorem component?_eq_none_iff {seg : List UInt8} :
    component? seg = none ↔ seg = [] ∨ seg = [dot] := by
  unfold component?
  split
  next h => simp [h]
  next h => split <;> simp [h]

/-- A parent or a name is not taken for a start. -/
theorem start?_cons_of_component? {seg : List UInt8} {c : Component} (h : component? seg = some c)
    (rest : List (List UInt8)) : start? (seg :: rest) = none := by
  have hsome : ¬ (seg = [] ∨ seg = [dot]) := by
    rw [← component?_eq_none_iff, h]
    exact Option.some_ne_none c
  exact start?_of_ne (fun e => hsome (.inl e)) fun e => hsome (.inr e)

/-- A segment is what is written of the component that it says. -/
theorem raw_of_component? {seg : List UInt8} {c : Component} (h : component? seg = some c) :
    c.raw = ⟨seg⟩ := by
  unfold component? at h
  split at h
  next => cases h
  next =>
      split at h
      next hs => cases h; rw [hs]; rfl
      next => cases h; rfl

theorem isInner_of_component? {seg : List UInt8} {c : Component} (hs : slash ∉ seg)
    (h : component? seg = some c) : c.IsInner := by
  unfold component? at h
  split at h
  next => cases h
  next hdot =>
      rw [not_or] at hdot
      split at h
      next => exact .inl (Option.some.inj h).symm
      next hparent =>
          exact .inr ⟨⟨seg⟩, .of_bytes_ne hdot.1 hdot.2 hparent hs, (Option.some.inj h).symm⟩

theorem Component.IsInner.component?_raw {c : Component} (h : c.IsInner) :
    component? c.raw.bytes = some c := by
  obtain rfl | ⟨n, hn, rfl⟩ := h
  · rfl
  · exact component?_bytes hn

theorem Component.IsInner.slash_not_mem {c : Component} (h : c.IsInner) : slash ∉ c.raw.bytes := by
  obtain rfl | ⟨n, hn, rfl⟩ := h
  · decide
  · exact hn.2.2.2

/-- What the segments of a path say. -/
theorem isInner_of_mem {path : RawText} {c : Component} (h : c ∈ inner path) : c.IsInner := by
  obtain ⟨seg, hseg, hc⟩ := List.mem_filterMap.mp h
  exact isInner_of_component? (not_mem_segments hseg) hc

/-! ### Components written again -/

/-- The components of a path with single slashes between them. -/
def rejoin (path : RawText) : RawText := ofNames ((components path).map Component.raw)

theorem Component.IsInner.segments_raw {c : Component} (h : c.IsInner) :
    segments c.raw.bytes = [c.raw.bytes] := by
  rw [segments_eq_splitOn, List.splitOn_eq_singleton h.slash_not_mem]

theorem filterMap_component?_raw {inner : List Component} (h : ∀ c ∈ inner, c.IsInner) :
    (inner.flatMap fun c => segments c.raw.bytes).filterMap component? = inner := by
  induction inner with
  | nil => rfl
  | cons c rest ih =>
      rw [List.forall_mem_cons] at h
      rw [List.flatMap_cons, h.1.segments_raw, List.singleton_append, List.filterMap_cons,
        h.1.component?_raw, ih h.2]

/-- Whether a path can start like this. -/
def IsStart (start : Option Component) : Prop :=
  start = none ∨ start = some .root ∨ start = some .current

/-- Components that are written with slashes between them can be read again. -/
theorem components_write {start : Option Component} {body : List Component} (hs : IsStart start)
    (h : ∀ c ∈ body, c.IsInner) :
    components (ofNames ((start.toList ++ body).map Component.raw)) = start.toList ++ body := by
  by_cases hne : start.toList ++ body = []
  · rw [hne]
    rfl
  · have htexts : (start.toList ++ body).map Component.raw ≠ [] := mt List.map_eq_nil_iff.mp hne
    have hsegs := segments_ofNames_of_ne_nil htexts
    rw [List.flatMap_map, List.flatMap_append] at hsegs
    rw [components_eq, inner, hsegs, List.filterMap_append, filterMap_component?_raw h]
    obtain rfl | rfl | rfl := hs
    · obtain ⟨c, rest, rfl⟩ := List.exists_cons_of_ne_nil hne
      have hc := h c (by simp)
      have hstart := start?_cons_of_component? hc.component?_raw
      simp only [Option.toList_none, List.flatMap_nil, List.nil_append, List.filterMap_nil,
        List.flatMap_cons, hc.segments_raw, List.singleton_append, hstart]
    · rfl
    · rfl

theorem isStart_start? (segs : List (List UInt8)) : IsStart (start? segs) := by
  unfold start?
  split
  next => exact .inr (.inl rfl)
  next =>
      split
      next => exact .inr (.inr rfl)
      next => exact .inl rfl
  next => exact .inl rfl

/-- Written again, a path says the same. -/
theorem components_rejoin (path : RawText) : components (rejoin path) = components path := by
  rw [rejoin, components_eq path]
  exact components_write (isStart_start? _) fun c hc => isInner_of_mem hc

/-! ### What is shown -/

/-- The normal form shows this. -/
theorem shown_rejoin (path : RawText) : (rejoin path).shown = normalize path := by
  rw [rejoin, shown_ofNames, List.map_map]
  rfl

theorem ofText_intercalate (texts : List String) :
    RawText.ofText ("/".intercalate texts) = ofNames (texts.map RawText.ofText) := by
  induction texts with
  | nil => rfl
  | cons t rest ih =>
      by_cases hr : rest = []
      · rw [hr, String.intercalate_singleton, List.map_singleton, ofNames_singleton]
      · rw [String.intercalate_cons_of_ne_nil hr, List.map_cons, ofNames_cons _ (by simpa using hr),
          RawText.ofText_append, RawText.ofText_append, ih]

/-- A component of which the name is what is shown of it. -/
def Component.asShown : Component → Component
  | normal name => normal name.shown
  | c => c

theorem Component.text_asShown (c : Component) : c.asShown.text = c.text := by
  cases c with
  | normal n => exact RawText.shown_ofText _
  | root => rfl
  | current => rfl
  | parent => rfl

/-- Only its own bytes are shown as a text in which nothing is replaced. -/
theorem ofText_shown_eq_iff {t : RawText} {x : String} (h : '\uFFFD' ∉ x.toList) :
    RawText.ofText t.shown = x ↔ t = x := by
  rw [RawText.ofText_injective.eq_iff, RawText.shown_eq_iff h]

theorem slash_mem_shown_iff {t : RawText} : '/' ∈ t.shown.toList ↔ slash ∈ t.bytes := by
  refine ⟨not_imp_not.mp slash_not_mem_shown, fun h => ?_⟩
  obtain ⟨as, bs, e⟩ := List.append_of_mem h
  rw [RawText.toList_shown, e, RawText.chars_append (startsAscii_slash bs), chars_slash_cons]
  simp

/-- Bytes as the text that is shown of them is spelled. -/
def respell (seg : List UInt8) : List UInt8 := (RawText.ofText (RawText.mk seg).shown).bytes

theorem respell_eq_iff {seg : List UInt8} {x : String} (h : '\uFFFD' ∉ x.toList) :
    respell seg = (x : RawText).bytes ↔ seg = (x : RawText).bytes := by
  rw [respell, ← RawText.mk.injEq, ← RawText.mk.injEq]
  exact ofText_shown_eq_iff h

/-- Segment by segment a path is shown. -/
theorem segments_shown (path : RawText) :
    segments (RawText.ofText path.shown).bytes = (segments path.bytes).map respell := by
  have hshown : path.shown = "/".intercalate ((segments path.bytes).map fun seg =>
      (RawText.mk seg).shown) := by
    nth_rewrite 1 [← ofNames_segments path]
    rw [shown_ofNames, List.map_map]
    rfl
  have hne : (segments path.bytes).map (fun seg => RawText.ofText (RawText.mk seg).shown) ≠ [] :=
    mt List.map_eq_nil_iff.mp (segments_ne_nil path.bytes)
  rw [hshown, ofText_intercalate, List.map_map]
  simp only [Function.comp_def]
  rw [segments_ofNames_of_ne_nil hne, List.flatMap_map, List.map_eq_flatMap]
  apply List.flatMap_congr
  intro seg hseg
  have hslash : slash ∉ respell seg := by
    rw [respell, ← slash_mem_shown_iff, RawText.shown_ofText, slash_mem_shown_iff]
    exact not_mem_segments hseg
  rw [segments_eq_splitOn]
  exact List.splitOn_eq_singleton hslash

theorem component?_respell (seg : List UInt8) :
    component? (respell seg) = (component? seg).map Component.asShown := by
  have hempty : respell seg = [] ↔ seg = [] := respell_eq_iff (x := "") (by decide)
  have hdot : respell seg = [dot] ↔ seg = [dot] := respell_eq_iff (x := ".") (by decide)
  have hdots : respell seg = [dot, dot] ↔ seg = [dot, dot] := respell_eq_iff (x := "..") (by decide)
  simp only [component?, hempty, hdot, hdots]
  split
  next => rfl
  next => split <;> rfl

theorem start?_cons (seg : List UInt8) (rest : List (List UInt8)) :
    start? (seg :: rest) =
      if seg = [] ∧ rest ≠ [] then some .root else if seg = [dot] then some .current else none := by
  cases seg <;> cases rest <;> simp [start?]

theorem start?_respell (segs : List (List UInt8)) : start? (segs.map respell) = start? segs := by
  cases segs with
  | nil => rfl
  | cons seg rest =>
      have hempty : respell seg = [] ↔ seg = [] := respell_eq_iff (x := "") (by decide)
      have hdot : respell seg = [dot] ↔ seg = [dot] := respell_eq_iff (x := ".") (by decide)
      simp only [List.map_cons, start?_cons, hempty, hdot, ne_eq, List.map_eq_nil_iff]

theorem map_asShown_start (segs : List (List UInt8)) :
    (start? segs).map Component.asShown = start? segs := by
  obtain e | e | e := isStart_start? segs <;> rw [e] <;> rfl

/-- What is shown of a path says its components as they are shown. -/
theorem components_shown (path : RawText) :
    components path.shown = (components path).map Component.asShown := by
  have hstart : (start? (segments path.bytes)).toList.map Component.asShown =
      (start? (segments path.bytes)).toList := by
    rw [← Option.toList_map, map_asShown_start]
  have hinner : inner path.shown = (inner path).map Component.asShown := by
    rw [inner, segments_shown, List.filterMap_map, inner, List.map_filterMap]
    exact congrArg (List.filterMap · _) (funext component?_respell)
  rw [components_eq, segments_shown, start?_respell, hinner, components_eq, List.map_append, hstart]

/-- The normal form of a path says what is shown of the path. -/
theorem components_normalize (path : RawText) :
    components (normalize path) = components path.shown := by
  rw [← shown_rejoin, components_shown, components_rejoin, components_shown]

theorem normalize_shown (path : RawText) : normalize path.shown = normalize path := by
  rw [normalize, components_shown, List.map_map, normalize]
  exact congrArg _ (List.map_congr_left fun c _ => c.text_asShown)

theorem normalize_eq_iff {p q : RawText} :
    normalize p = normalize q ↔ components p.shown = components q.shown := by
  constructor
  · intro h
    rw [← components_normalize p, h, components_normalize]
  · intro h
    rw [← normalize_shown p, normalize, h, ← normalize, normalize_shown]

/-! ### Spellings -/

/-- A path with a slash or a dot that makes no difference, and the path without it. -/
inductive Respells : RawText → RawText → Prop
  | slashes (a b : RawText) : Respells (a ++ "//" ++ b) (a ++ "/" ++ b)
  | dot (a b : RawText) : Respells (a ++ "/./" ++ b) (a ++ "/" ++ b)
  | lastSlash (a : RawText) (h : a ≠ "") : Respells (a ++ "/") a

theorem append_empty (a : RawText) : a ++ "" = a := congrArg RawText.mk (List.append_nil a.bytes)

theorem slashes_eq (a b : RawText) : a ++ "//" ++ b = a ++ "/" ++ ("" ++ "/" ++ b) := by
  have e : (a ++ "//" ++ b).bytes = (a ++ "/" ++ ("" ++ "/" ++ b)).bytes := by
    simp [bytes_slash, bytes_empty]
    rfl
  exact congrArg RawText.mk e

theorem dotted_eq (a b : RawText) : a ++ "/./" ++ b = a ++ "/" ++ ("." ++ "/" ++ b) := by
  have e : (a ++ "/./" ++ b).bytes = (a ++ "/" ++ ("." ++ "/" ++ b)).bytes := by
    simp [bytes_slash, bytes_dot]
    rfl
  exact congrArg RawText.mk e

theorem inner_append (a b : RawText) : inner (a ++ "/" ++ b) = inner a ++ inner b := by
  rw [inner, segments_append, List.filterMap_append]
  rfl

/-- What stands behind a slash adds its parents and names. -/
theorem components_append (a b : RawText) :
    components (a ++ "/" ++ b) = components (a ++ "/") ++ inner b := by
  have e : a ++ "/" = a ++ "/" ++ "" := (append_empty _).symm
  have hstart : start? (segments (a ++ "/" ++ b).bytes) = start? (segments (a ++ "/").bytes) := by
    rw [segments_append, e, segments_append]
    exact start?_append (segments_ne_nil _) (segments_ne_nil _) (segments_ne_nil _)
  have hinner : inner (a ++ "/") = inner a := by
    rw [e, inner_append]
    exact List.append_nil _
  rw [components_eq, components_eq (a ++ "/"), hstart, inner_append, hinner,
    List.append_assoc]

theorem segments_ne_singleton_nil {path : RawText} (h : path ≠ "") :
    segments path.bytes ≠ [[]] := by
  intro e
  have hjoin := ofNames_segments path
  rw [e] at hjoin
  exact h hjoin.symm

/-- A slash at the end is not seen in the components. -/
theorem components_append_slash {path : RawText} (h : path ≠ "") :
    components (path ++ "/") = components path := by
  have e : segments (path ++ "/").bytes = segments path.bytes ++ [[]] := by
    rw [← append_empty (path ++ "/"), segments_append]
    rfl
  have hstart : start? (segments path.bytes ++ [[]]) = start? (segments path.bytes) := by
    obtain ⟨s, rest, hs⟩ := List.exists_cons_of_ne_nil (segments_ne_nil path.bytes)
    cases rest with
    | cons t more =>
        rw [hs]
        exact start?_append (List.cons_ne_nil s []) (by simp) (by simp)
    | nil =>
        have hne : s ≠ [] := fun he => segments_ne_singleton_nil h (he ▸ hs)
        rw [hs, List.singleton_append, start?_cons, start?_cons]
        simp [hne]
  rw [components_eq, inner, e, hstart, List.filterMap_append, components_eq, inner]
  simp [component?]

/-- What makes no difference leaves the components. -/
theorem Respells.components_eq {p q : RawText} (h : Respells p q) :
    components p = components q := by
  cases h with
  | slashes a b =>
      rw [slashes_eq, components_append, components_append, inner_append]
      rfl
  | dot a b =>
      rw [dotted_eq, components_append, components_append, inner_append]
      rfl
  | lastSlash _ h => exact components_append_slash h

/-- It is shown. -/
theorem Respells.shown {p q : RawText} (h : Respells p q) : Respells p.shown q.shown := by
  cases h with
  | slashes a b =>
      have hs := Respells.slashes a.shown b.shown
      rw [slashes_eq] at hs ⊢
      simpa only [shown_append_slash, RawText.ofText_append, RawText.shown_ofText] using hs
  | dot a b =>
      have hs := Respells.dot a.shown b.shown
      rw [dotted_eq] at hs ⊢
      simpa only [shown_append_slash, RawText.ofText_append, RawText.shown_ofText] using hs
  | lastSlash _ h =>
      have hs := Respells.lastSlash q.shown (mt (ofText_shown_eq_iff (by decide)).mp h)
      rw [← append_empty (q ++ "/"), shown_append_slash]
      simpa only [RawText.ofText_append, RawText.shown_ofText, String.append_empty] using hs

/-- Two spellings of one path. -/
def Spell (p q : RawText) : Prop := Relation.EqvGen Respells p q

/-- Two texts that spell one path, with nothing but texts between them. -/
def SpellText (p q : String) : Prop := Relation.EqvGen (fun x y : String => Respells x y) p q

namespace Spell

variable {p q r : RawText}

theorem refl (p : RawText) : Spell p p := Relation.EqvGen.refl p

theorem symm (h : Spell p q) : Spell q p := Relation.EqvGen.symm _ _ h

theorem trans (h : Spell p q) (h' : Spell q r) : Spell p r := Relation.EqvGen.trans _ _ _ h h'

theorem of_respells (h : Respells p q) : Spell p q := Relation.EqvGen.rel _ _ h

theorem components_eq (h : Spell p q) : components p = components q := by
  induction h with
  | rel p q h => exact h.components_eq
  | refl p => rfl
  | symm p q _ ih => exact ih.symm
  | trans p q r _ _ ih ih' => exact ih.trans ih'

/-- What is shown of two spellings are two spellings. -/
theorem shown (h : Spell p q) : SpellText p.shown q.shown := by
  induction h with
  | rel p q h => exact .rel _ _ h.shown
  | refl p => exact .refl _
  | symm p q _ ih => exact ih.symm
  | trans p q r _ _ ih ih' => exact ih.trans _ _ _ ih'

/-- A slash is needed only between two texts. -/
theorem ofNames_cons {u t : RawText} (h : u ++ t ≠ "") (rest : List RawText) :
    Spell (u ++ t ++ "/" ++ ofNames rest) (u ++ ofNames (t :: rest)) := by
  by_cases hr : rest = []
  · rw [hr, ofNames_singleton]
    have e : u ++ t ++ "/" ++ ofNames [] = u ++ t ++ "/" := append_empty _
    rw [e]
    exact of_respells (.lastSlash _ h)
  · rw [Path.ofNames_cons t hr, append_assoc, append_assoc, append_assoc]
    exact refl _

/-- Behind a slash only the parents and names are needed. -/
theorem behind_slash (a : RawText) (segs : List (List UInt8)) :
    Spell (a ++ "/" ++ ofNames (segs.map .mk))
      (a ++ "/" ++ ofNames ((segs.filterMap component?).map Component.raw)) := by
  induction segs generalizing a with
  | nil => exact refl _
  | cons s rest ih =>
      have hne : ∀ t, a ++ "/" ++ t ≠ "" := fun t e => by
        simpa [bytes_slash, bytes_empty] using congrArg RawText.bytes e
      have first := (ofNames_cons (hne ⟨s⟩) (rest.map .mk)).symm
      rw [List.map_cons]
      cases hs : component? s with
      | some c =>
          rw [List.filterMap_cons_some hs, List.map_cons, raw_of_component? hs]
          exact first.trans ((ih _).trans (ofNames_cons (hne _) _))
      | none =>
          rw [List.filterMap_cons_none hs]
          refine first.trans (trans (of_respells ?_) (ih a))
          obtain rfl | rfl := component?_eq_none_iff.mp hs
          · have h := Respells.slashes a (ofNames (rest.map .mk))
            rw [slashes_eq, ← append_assoc, ← append_assoc] at h
            exact h
          · have h := Respells.dot a (ofNames (rest.map .mk))
            rw [dotted_eq, ← append_assoc, ← append_assoc] at h
            exact h

/-- A path spells what is written of its components. -/
theorem rejoin (path : RawText) : Spell path (rejoin path) := by
  obtain ⟨s, rest, hs⟩ := List.exists_cons_of_ne_nil (segments_ne_nil path.bytes)
  have hpath := ofNames_segments path
  rw [Path.rejoin, Path.components_eq, inner]
  rw [hs] at hpath ⊢
  nth_rewrite 1 [← hpath]
  rw [List.map_cons]
  by_cases he : s = []
  · subst he
    cases rest with
    | nil => exact refl ""
    | cons t more =>
        -- The root is written as one slash, and another one comes before what is below it.
        have slash (b : RawText) : Spell ("" ++ "/" ++ b) ("" ++ "/" ++ "/" ++ b) := by
          have h := Respells.slashes "" b
          rw [slashes_eq, ← append_assoc, ← append_assoc, append_empty] at h
          exact symm (of_respells h)
        have root := ofNames_cons (u := "") (t := "/") (by decide)
          (((t :: more).filterMap component?).map Component.raw)
        rw [Path.ofNames_cons _ (by simp)]
        exact ((behind_slash "" (t :: more)).trans (slash _)).trans root
  · have hne : "" ++ RawText.mk s ≠ "" := fun e => he (congrArg RawText.bytes e)
    have hfirst : ∃ c : Component, c.raw = ⟨s⟩ ∧ (start? (s :: rest)).toList ++
        (s :: rest).filterMap component? = c :: rest.filterMap component? := by
      cases hc : component? s with
      | some c =>
          refine ⟨c, raw_of_component? hc, ?_⟩
          rw [start?_cons_of_component? hc, List.filterMap_cons_some hc]
          rfl
      | none =>
          obtain rfl := (component?_eq_none_iff.mp hc).resolve_left he
          exact ⟨.current, rfl, rfl⟩
    obtain ⟨c, hc, e⟩ := hfirst
    rw [e, List.map_cons, hc]
    have first := (ofNames_cons hne (rest.map .mk)).symm
    exact (first.trans (behind_slash _ rest)).trans (ofNames_cons hne _)

end Spell

/-- Paths have the same components if they are spellings of one path, and only then. -/
theorem components_eq_iff {p q : RawText} : components p = components q ↔ Spell p q := by
  constructor
  · intro h
    have hq := (Spell.rejoin q).symm
    rw [rejoin, ← h, ← rejoin] at hq
    exact (Spell.rejoin p).trans hq
  · exact Spell.components_eq

theorem components_ofText_eq_iff {p q : String} :
    components p = components q ↔ SpellText p q := by
  constructor
  · intro h
    simpa using (components_eq_iff.mp h).shown
  · intro h
    induction h with
    | rel p q h => exact h.components_eq
    | refl p => rfl
    | symm p q _ ih => exact ih.symm
    | trans p q r _ _ ih ih' => exact ih.trans ih'

/-! ### What all spellings share -/

/-- Whether a path starts with the dot of the directory itself. -/
def StartsWithDot (path : RawText) : Prop := path = "." ∨ ("./" : RawText).bytes <+: path.bytes

theorem head?_segments (bs : List UInt8) :
    (segments bs).head? = some (bs.takeWhile (· ≠ slash)) := by
  induction bs with
  | nil => rfl
  | cons b rest ih =>
      by_cases hb : b = slash
      · subst hb
        rw [segments_cons_slash]
        simp
      · obtain ⟨s, more, h, hcons⟩ := segments_cons_of_ne hb rest
        rw [h] at ih
        rw [hcons]
        simpa [hb] using ih

theorem start?_eq_root_iff (bs : List UInt8) :
    start? (segments bs) = some .root ↔ [slash] <+: bs := by
  cases bs with
  | nil => simp [segments, start?]
  | cons b rest =>
      by_cases hb : b = slash
      · rw [hb, segments_cons_slash, start?_cons]
        simp [segments_ne_nil]
      · obtain ⟨s, more, -, hs⟩ := segments_cons_of_ne hb rest
        rw [hs, start?_cons]
        simp [Ne.symm hb]

theorem start?_eq_current_iff (bs : List UInt8) :
    start? (segments bs) = some .current ↔ bs = [dot] ∨ [dot, slash] <+: bs := by
  have hstart : ∀ segs, start? segs = some .current ↔ segs.head? = some [dot] := by
    intro segs
    cases segs with
    | nil => simp [start?]
    | cons seg rest => cases seg <;> simp [start?_cons]
  rw [hstart, head?_segments, Option.some.injEq]
  cases bs with
  | nil => simp
  | cons b rest =>
      have hdot : dot ≠ slash := by decide
      cases rest with
      | nil => by_cases hb : b = slash <;> simp [hb, Ne.symm hdot]
      | cons d more =>
          by_cases hb : b = slash
          · simp [hb, hdot, Ne.symm hdot]
          · by_cases hd : d = slash
            · simp [hb, hd, eq_comm]
            · simp [hb, hd, Ne.symm hd]

theorem root_mem_components_iff (path : RawText) :
    .root ∈ components path ↔ isAbsolute path := by
  have hinner : .root ∉ inner path := fun h => by
    obtain e | ⟨n, -, e⟩ := isInner_of_mem h <;> cases e
  rw [components_eq, List.mem_append, or_iff_left hinner, Option.mem_toList, start?_eq_root_iff,
    isAbsolute, decide_eq_true_iff]
  cases path.bytes <;> simp [eq_comm]

theorem current_mem_components_iff (path : RawText) :
    .current ∈ components path ↔ StartsWithDot path := by
  have hinner : .current ∉ inner path := fun h => by
    obtain e | ⟨n, -, e⟩ := isInner_of_mem h <;> cases e
  have hdot : path.bytes = [dot] ↔ path = "." :=
    ⟨fun e => congrArg RawText.mk e, fun e => congrArg RawText.bytes e⟩
  rw [components_eq, List.mem_append, or_iff_left hinner, Option.mem_toList,
    start?_eq_current_iff, StartsWithDot, hdot]
  rfl

theorem count_parent_components (path : RawText) :
    (components path).count .parent = (segments path.bytes).count [dot, dot] := by
  have hstart : (start? (segments path.bytes)).toList.count .parent = 0 := by
    obtain e | e | e := isStart_start? (segments path.bytes) <;> rw [e] <;> rfl
  have hseg : ∀ seg, component? seg = some .parent ↔ seg = [dot, dot] := by
    intro seg
    constructor
    · intro h
      exact (congrArg RawText.bytes (raw_of_component? h)).symm
    · rintro rfl
      rfl
  rw [components_eq, List.count_append, hstart, Nat.zero_add, inner, List.count_filterMap,
    List.count]
  apply List.countP_congr
  intro seg _
  rw [beq_iff_eq, beq_iff_eq, hseg]

/-- What two paths share besides names: they start alike, and as often go to the parent. -/
structure SameFrame (p q : RawText) : Prop where
  root : isAbsolute p ↔ isAbsolute q
  current : StartsWithDot p ↔ StartsWithDot q
  parents : (segments p.bytes).count [dot, dot] = (segments q.bytes).count [dot, dot]

theorem Component.asShown_eq_iff {c k : Component} (hk : ∀ n, k ≠ .normal n) :
    c.asShown = k ↔ c = k := by
  cases c with
  | normal n => simp [asShown, (hk n).symm, (hk _).symm]
  | root => rfl
  | current => rfl
  | parent => rfl

/-- What is not a name is shown as it is. -/
theorem count_map_asShown {k : Component} (hk : ∀ n, k ≠ .normal n) (cs : List Component) :
    (cs.map Component.asShown).count k = cs.count k := by
  rw [List.count_eq_countP, List.countP_map, List.count_eq_countP]
  apply List.countP_congr
  intro c _
  rw [Function.comp_apply, beq_iff_eq, beq_iff_eq, Component.asShown_eq_iff hk]

/-- Paths have one frame if they are shown with the same components. -/
theorem SameFrame.of_components_shown {p q : RawText}
    (h : components p.shown = components q.shown) : SameFrame p q := by
  rw [components_shown, components_shown] at h
  have hcount : ∀ k : Component, (∀ n, k ≠ .normal n) →
      (components p).count k = (components q).count k := by
    intro k hk
    rw [← count_map_asShown hk, h, count_map_asShown hk]
  have hmem : ∀ k : Component, (∀ n, k ≠ .normal n) →
      (k ∈ components p ↔ k ∈ components q) := by
    intro k hk
    rw [← List.count_pos_iff, hcount k hk, List.count_pos_iff]
  refine ⟨?_, ?_, ?_⟩
  · rw [← root_mem_components_iff, hmem .root (by simp), root_mem_components_iff]
  · rw [← current_mem_components_iff, hmem .current (by simp), current_mem_components_iff]
  · rw [← count_parent_components, hcount .parent (by simp), count_parent_components]

/-- The normal form of a path starts as the path does and goes to the parent as often. -/
theorem sameFrame_normalize (path : RawText) : SameFrame path (normalize path) :=
  .of_components_shown (by rw [RawText.shown_ofText, components_normalize])

end Path

/-! ### In a survey -/

namespace Survey

open CodeSurvey.Path (components normalize)

variable {fs : FileSystem} {s : Survey}

theorem relativePath_eq_iff [SourceParser] {p q : RawText} {f g : FileRecord}
    (hf : record fs s p = .ok f) (hg : record fs s q = .ok g) :
    f.relativePath = g.relativePath ↔ components p.shown = components q.shown := by
  rw [FileRecord.relativePath_eq hf, FileRecord.relativePath_eq hg, Path.normalize_eq_iff]

theorem file_eq_iff [SourceParser] {p q : RawText} {f g : FileRecord} (hf : record fs s p = .ok f)
    (hg : record fs s q = .ok g) {e e' : ExportRecord} (he : e ∈ f.exports) (he' : e' ∈ g.exports) :
    e.file = e'.file ↔ components p.shown = components q.shown := by
  rw [FileRecord.file_of_mem_exports he, FileRecord.file_of_mem_exports he',
    relativePath_eq_iff hf hg]

/-- Before any is excluded, files are told apart by the components of their paths. -/
theorem eq_of_mem_sources (wf : fs.tree.WellFormed) {root p q : RawText}
    (hp : p ∈ Discovery.sources fs (canonicalRoot fs root))
    (hq : q ∈ Discovery.sources fs (canonicalRoot fs root)) (h : components p = components q) :
    p = q := by
  have names : ∀ {path}, path ∈ Discovery.sources fs (canonicalRoot fs root) →
      ∃ names, path = Path.ofNames names ∧ ∀ n ∈ names, Path.IsName n := by
    intro path hpath
    obtain ⟨-, -, -, ⟨names, hnames, hn, -⟩ | ⟨rfl, -⟩⟩ := mem_sources wf hpath
    · exact ⟨names, hnames, hn⟩
    · exact ⟨[], rfl, by simp⟩
  obtain ⟨ms, rfl, hm⟩ := names hp
  obtain ⟨ns, rfl, hn⟩ := names hq
  rw [Path.components_ofNames hm, Path.components_ofNames hn] at h
  rw [List.map_injective_iff.mpr (fun _ _ h => Path.Component.normal.inj h) h]

/-- It is the normal form of a path that is matched with the exclude patterns. -/
theorem found_eq_filter_normalize [Glob.Compiler] (fs : FileSystem) (s : Survey) :
    found fs s = (Discovery.sources fs (canonicalRoot fs s.root)).filter fun path =>
      !(Discovery.excludes s.excludes).value.fits (normalize path) := by
  rw [found, Discovery.value_discover]

/-- The normal form of a path says what is shown of the path.  If the path spells a text, this is
what the path says: the normal form has the same components, so that it is its own normal form, and
two paths have the same one if they have the same components, which is to say that they are
different only in slashes and dots that mean nothing.  Of any path it starts as the path does and
goes to the parent as often.  So it stands for the path in a survey: records, the exports in them,
and the texts that are matched with exclude patterns are the same only where the paths are shown
alike, and where the paths are the same if they spell texts. -/
theorem normalize_faithful [Glob.Compiler] [SourceParser] (fs : FileSystem) (s : Survey)
    (wf : fs.tree.WellFormed) :
    (∀ p : String, components (normalize p) = components p ∧
      normalize (normalize p) = normalize p) ∧
    (∀ p q : String, normalize p = normalize q ↔ components p = components q) ∧
    (∀ p q : String, components p = components q ↔ Path.SpellText p q) ∧
    (∀ p : RawText, components (normalize p) = components p.shown ∧
      normalize (normalize p) = normalize p ∧ Path.SameFrame p (normalize p)) ∧
    (∀ p q : RawText, normalize p = normalize q ↔ components p.shown = components q.shown) ∧
    (∀ p q : RawText, components p = components q ↔ Path.Spell p q) ∧
    (∀ p q : String, ∀ f g, record fs s p = .ok f → record fs s q = .ok g →
      (f.relativePath = g.relativePath ↔ components p = components q) ∧
      ∀ e ∈ f.exports, ∀ e' ∈ g.exports, e.file = e'.file ↔ components p = components q) ∧
    (∀ p q : RawText, ∀ f g, record fs s p = .ok f → record fs s q = .ok g →
      (f.relativePath = g.relativePath ↔ components p.shown = components q.shown) ∧
      ∀ e ∈ f.exports, ∀ e' ∈ g.exports,
        e.file = e'.file ↔ components p.shown = components q.shown) ∧
    (found fs s = (Discovery.sources fs (canonicalRoot fs s.root)).filter fun path =>
      !(Discovery.excludes s.excludes).value.fits (normalize path)) ∧
    ∀ p ∈ Discovery.sources fs (canonicalRoot fs s.root),
      ∀ q ∈ Discovery.sources fs (canonicalRoot fs s.root),
        components p = components q → p = q := by
  have hnormal : ∀ p : RawText, normalize (normalize p) = normalize p := by
    intro p
    rw [Path.normalize_eq_iff, RawText.shown_ofText, Path.components_normalize]
  have hrecord : ∀ p q : RawText, ∀ f g, record fs s p = .ok f → record fs s q = .ok g →
      (f.relativePath = g.relativePath ↔ components p.shown = components q.shown) ∧
      ∀ e ∈ f.exports, ∀ e' ∈ g.exports,
        e.file = e'.file ↔ components p.shown = components q.shown :=
    fun p q f g hf hg =>
      ⟨relativePath_eq_iff hf hg, fun e he e' he' => file_eq_iff hf hg he he'⟩
  refine ⟨?_, ?_, ?_, ?_, ?_, ?_, ?_, hrecord, found_eq_filter_normalize fs s, ?_⟩
  · intro p
    rw [Path.components_normalize, RawText.shown_ofText]
    exact ⟨rfl, hnormal p⟩
  · intro p q
    rw [Path.normalize_eq_iff, RawText.shown_ofText, RawText.shown_ofText]
  · exact fun p q => Path.components_ofText_eq_iff
  · exact fun p => ⟨Path.components_normalize p, hnormal p, Path.sameFrame_normalize p⟩
  · exact fun p q => Path.normalize_eq_iff
  · exact fun p q => Path.components_eq_iff
  · intro p q f g hf hg
    have h := hrecord p q f g hf hg
    rwa [RawText.shown_ofText, RawText.shown_ofText] at h
  · exact fun p hp q hq h => eq_of_mem_sources wf hp hq h

/-- A dot at the start counts, others do not, and the root is not lost.  Two names that are shown
alike give two records one path. -/
theorem normalize_faithful_sample :
    sampleProject.tree.WellFormed ∧
    Path.SpellText "./lib//x/./y.ts/" "./lib/x/y.ts" ∧ ¬ Path.SpellText "./a.ts" "a.ts" ∧
    normalize "/lib/../x" = "//lib/../x" ∧
    components (normalize "/lib/../x") =
      [.root, .normal ("lib" : String), .parent, .normal ("x" : String)] ∧
    ∃ f g h, @record sampleParser sampleProject sampleSurvey "a.ts" = .ok f ∧
      @record sampleParser sampleProject sampleSurvey (brokenName 0xFE) = .ok g ∧
      @record sampleParser sampleProject sampleSurvey (brokenName 0xFF) = .ok h ∧
      f.relativePath ≠ g.relativePath ∧ g.relativePath = h.relativePath := by
  obtain ⟨hnormal, -, hspell, -, -, -, -, hrecord, -⟩ :=
    @normalize_faithful _ sampleParser sampleProject sampleSurvey wellFormed_sampleProject
  obtain ⟨ha, -, hg, hh⟩ := record_sampleProject
  refine ⟨wellFormed_sampleProject, (hspell _ _).mp (by decide), ?_, by decide, ?_, _, _, _, ha, hg,
    hh, ?_, ?_⟩
  · rw [← hspell]
    decide
  · rw [(hnormal _).1]
    decide
  · rw [Ne, (hrecord _ _ _ _ ha hg).1]
    decide
  · rw [(hrecord _ _ _ _ hg hh).1]
    decide

end Survey

end CodeSurvey
