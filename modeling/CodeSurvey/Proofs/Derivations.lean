import CodeSurvey.Grammar.Production
import CodeSurvey.Proofs.Thinned
import CodeSurvey.Syntax.Shown
import Mathlib

/-! # Trees of a grammar

`Grammar.Derives` says which nodes a rule of a grammar derives, `Grammar.IsConstruct` which nodes
show a construct, and `Tree.Follows` which trees belong to the grammar.

* A construct shows as one node.  If it is hidden, the nodes that it consists of take its place,
  and the first of them plays its part.
* The marks on a rule tell how the nodes that it derives show.  Where a construct is inlined, the
  marks on it come before those in its own rule (`Rule.strip`).
* Extras may stand between the nodes that a construct consists of (`Grammar.parts`).

In a tree of a grammar the nodes of a kind to which nothing is renamed show constructs of that name,
at any depth (`Tree.Follows.isConstruct`). -/

namespace CodeSurvey

namespace Rule

/-- A rule without its renames, without its fields, or without either. -/
def strip (renames fields : Bool) : Rule → Rule
  | seq a b => seq (a.strip renames fields) (b.strip renames fields)
  | choice a b => choice (a.strip renames fields) (b.strip renames fields)
  | repeated r => repeated (r.strip renames fields)
  | field name r =>
    if fields then r.strip renames fields else field name (r.strip renames fields)
  | rename shown r =>
    if renames then r.strip renames fields else rename shown (r.strip renames fields)
  | ranked rank side r => ranked rank side (r.strip renames fields)
  | weighted n r => weighted n (r.strip renames fields)
  | r => r

/-- The kinds to which parts of a rule are renamed. -/
def renamedKinds : Rule → List String
  | seq a b | choice a b => a.renamedKinds ++ b.renamedKinds
  | rename shown r => shown.kind :: r.renamedKinds
  | repeated r | field _ r | ranked _ _ r | weighted _ r => r.renamedKinds
  | blank | word _ | lexeme _ | ref _ => []

theorem renamedKinds_strip_subset (renames fields : Bool) (r : Rule) :
    (r.strip renames fields).renamedKinds ⊆ r.renamedKinds := by
  induction r with
  | blank | word | lexeme | ref => exact List.Subset.refl _
  | seq a b iha ihb | choice a b iha ihb =>
      exact List.append_subset.mpr ⟨List.Subset.trans iha (List.subset_append_left ..),
        List.Subset.trans ihb (List.subset_append_right ..)⟩
  | repeated r ih | ranked _ _ r ih | weighted _ r ih => exact ih
  | field name r ih =>
      rw [strip]
      split
      · exact ih
      · exact ih
  | rename shown r ih =>
      rw [strip]
      split
      · exact List.subset_cons_of_subset _ ih
      · exact List.cons_subset_cons _ ih

end Rule

namespace Grammar

variable (g : Grammar)

/-- The nodes that a node consists of.  Extras are none of them. -/
def parts (n : Node) : List Node := n.children.filter fun c => !g.extras.contains c.kind

/-- Whether all extras among the children of a node are tokens that play no part. -/
def HasLooseExtras (n : Node) : Prop :=
  ∀ c ∈ n.children, c.kind ∈ g.extras → c.field = none ∧ c.children = []

/-- Whether a node shows what consists of the nodes `body`. -/
structure Shows (shown : Rename) (field : Option String) (body : List Node) (n : Node) : Prop where
  kind_eq : n.kind = shown.kind
  named_eq : n.named = shown.named
  field_eq : n.field = field
  parts_eq : g.parts n = body
  loose : g.HasLooseExtras n

/-- Whether some nodes stand for what consists of the nodes `body`.  If that is hidden, it passes
its part on. -/
inductive Presents : Option Rename → Option String → List Node → List Node → Prop
  | shown {shown : Rename} {field : Option String} {body : List Node} {n : Node}
      (h : g.Shows shown field body n) : Presents (some shown) field body [n]
  | hidden (body : List Node) : Presents none none body body
  | part (field : String) (body : List Node) :
      Presents none (some field) body (Subtree.givePart field body)

/-- How a construct or token of some name shows, unless it is renamed. -/
def shown? (name : String) : Option Rename :=
  if g.classes.contains name || visibilityOf name = .hidden then none else some ⟨name, true⟩

/-- The nodes that a rule derives, where the marks around the rule say how they show. -/
inductive Derives : Rule → Option Rename → Option String → List Node → Prop
  | blank {rename : Option Rename} {field : Option String} : Derives .blank rename field []
  | word {text : String} {rename : Option Rename} {field : Option String} {ns : List Node}
      (h : g.Presents (some (rename.getD ⟨text, false⟩)) field [] ns) :
      Derives (.word text) rename field ns
  | lexeme {l : Lexeme} {rename : Option Rename} {field : Option String} :
      Derives (.lexeme l) rename field []
  | layout {name : String} {rename : Option Rename} {field : Option String} {ns : List Node}
      (hl : name ∈ g.layout) (h : g.Presents (rename.or (g.shown? name)) field [] ns) :
      Derives (.ref name) rename field ns
  | construct {name : String} {r : Rule} {rename : Option Rename} {field : Option String}
      {body ns : List Node} (hi : name ∉ g.inlined) (hr : g.rules.lookup name = some r)
      (hbody : Derives r none none body)
      (h : g.Presents (rename.or (g.shown? name)) field body ns) :
      Derives (.ref name) rename field ns
  | inlined {name : String} {r : Rule} {rename : Option Rename} {field : Option String}
      {ns : List Node} (hi : name ∈ g.inlined) (hr : g.rules.lookup name = some r)
      (h : Derives (r.strip rename.isSome field.isSome) rename field ns) :
      Derives (.ref name) rename field ns
  | seq {a b : Rule} {rename : Option Rename} {field : Option String} {xs ys : List Node}
      (ha : Derives a rename field xs) (hb : Derives b rename field ys) :
      Derives (.seq a b) rename field (xs ++ ys)
  | left {a b : Rule} {rename : Option Rename} {field : Option String} {ns : List Node}
      (h : Derives a rename field ns) : Derives (.choice a b) rename field ns
  | right {a b : Rule} {rename : Option Rename} {field : Option String} {ns : List Node}
      (h : Derives b rename field ns) : Derives (.choice a b) rename field ns
  | once {r : Rule} {ns : List Node} (h : Derives r none none ns) :
      Derives (.repeated r) none none ns
  | more {r : Rule} {xs ys : List Node} (hx : Derives r none none xs)
      (hy : Derives (.repeated r) none none ys) : Derives (.repeated r) none none (xs ++ ys)
  /-- A repetition is a hidden construct. -/
  | repetition {r : Rule} {rename : Option Rename} {field : Option String} {body ns : List Node}
      (hbody : Derives (.repeated r) none none body) (h : g.Presents rename field body ns) :
      Derives (.repeated r) rename field ns
  | field {name : String} {r : Rule} {rename : Option Rename} {field : Option String}
      {ns : List Node} (h : Derives r rename (some name) ns) :
      Derives (.field name r) rename field ns
  | rename {shown : Rename} {r : Rule} {rename : Option Rename} {field : Option String}
      {ns : List Node} (h : Derives r (some shown) field ns) :
      Derives (.rename shown r) rename field ns
  | ranked {rank : Rank} {side : Option Side} {r : Rule} {rename : Option Rename}
      {field : Option String} {ns : List Node} (h : Derives r rename field ns) :
      Derives (.ranked rank side r) rename field ns
  | weighted {weight : Int} {r : Rule} {rename : Option Rename} {field : Option String}
      {ns : List Node} (h : Derives r rename field ns) :
      Derives (.weighted weight r) rename field ns

/-- Whether a node shows a construct that consists of what its rule derives. -/
structure IsConstruct (name : String) (n : Node) : Prop where
  kind_eq : n.kind = name
  named_eq : n.named = true
  loose : g.HasLooseExtras n
  derives : ∃ r, g.rules.lookup name = some r ∧ g.Derives r none none (g.parts n)

end Grammar

/-- Whether a tree is one of a grammar: its root shows the first construct. -/
def Tree.Follows (t : Tree) (g : Grammar) : Prop :=
  ∃ name r, g.rules.head? = some (name, r) ∧ g.IsConstruct name t.root

namespace Grammar

variable {g : Grammar} {kind name : String} {r a b : Rule} {rename : Option Rename}
  {field : Option String} {ns body : List Node} {n : Node}

/-! ### Constructs at any depth -/

/-- Whether nodes of a kind show constructs of that name only: no token has that name, and nothing
is renamed to it. -/
structure IsProper (g : Grammar) (kind : String) : Prop where
  not_extra : kind ∉ g.extras
  not_layout : kind ∉ g.layout
  not_renamed : ∀ entry ∈ g.rules, kind ∉ entry.2.renamedKinds

/-- Whether a node is no construct of a kind, or shows one by the rule of that name. -/
def Shown (g : Grammar) (kind : String) (n : Node) : Prop :=
  n.named = true → n.kind = kind → g.IsConstruct kind n

theorem mem_of_lookup (h : g.rules.lookup name = some r) : (name, r) ∈ g.rules := by
  obtain ⟨before, after, heq, -⟩ := List.lookup_eq_some_iff.mp h
  rw [heq]
  exact List.mem_append_right _ List.mem_cons_self

theorem eq_of_shown? {s : Rename} (h : g.shown? name = some s) : s = ⟨name, true⟩ := by
  unfold shown? at h
  split at h
  · cases h
  · exact (Option.some.inj h).symm

/-- What shows under the kind and is not renamed to it has that name. -/
theorem eq_of_or_shown? {s : Rename} (hrename : ∀ s ∈ rename, s.kind ≠ kind)
    (h : rename.or (g.shown? name) = some s) (hs : s.kind = kind) : name = kind := by
  cases rename with
  | none =>
      rw [Option.none_or] at h
      rwa [eq_of_shown? h] at hs
  | some s' => exact absurd (Option.some.inj h ▸ hs) (hrename s' rfl)

theorem everywhere_givePart {part : String} (h : ∀ n ∈ ns, n.Everywhere (g.Shown kind)) :
    ∀ n ∈ Subtree.givePart part ns, n.Everywhere (g.Shown kind) := by
  cases ns with
  | nil => exact h
  | cons n rest =>
      rw [List.forall_mem_cons] at h
      rw [Subtree.givePart, List.forall_mem_cons]
      refine ⟨⟨fun hnamed hkind => ?_, fun c hc => h.1.of_mem hc⟩, h.2⟩
      have hn := h.1.here hnamed hkind
      exact ⟨hn.kind_eq, hn.named_eq, hn.loose, hn.derives⟩

/-- What holds of the nodes that a node consists of holds of its children, for extras are no
constructs. -/
theorem everywhere_children (hk : kind ∉ g.extras) (hloose : g.HasLooseExtras n)
    (h : ∀ c ∈ g.parts n, c.Everywhere (g.Shown kind)) :
    ∀ c ∈ n.children, c.Everywhere (g.Shown kind) := by
  intro c hc
  by_cases hextra : c.kind ∈ g.extras
  · refine ⟨fun _ heq => absurd (heq ▸ hextra) hk, ?_⟩
    rw [(hloose c hc hextra).2]
    exact nofun
  · exact h c (List.mem_filter.mpr ⟨hc, by simpa using hextra⟩)

theorem everywhere_presents (hk : kind ∉ g.extras) {shown : Option Rename}
    (hbody : ∀ c ∈ body, c.Everywhere (g.Shown kind))
    (hshown : ∀ s n, shown = some s → g.Shows s field body n → g.Shown kind n)
    (h : g.Presents shown field body ns) : ∀ n ∈ ns, n.Everywhere (g.Shown kind) := by
  cases h with
  | shown h =>
      rw [List.forall_mem_singleton]
      exact ⟨hshown _ _ rfl h, everywhere_children hk h.loose (h.parts_eq ▸ hbody)⟩
  | hidden => exact hbody
  | part => exact everywhere_givePart hbody

/-- Whatever a rule derives, the nodes of a proper kind show constructs. -/
theorem everywhere_derives (hk : g.IsProper kind) (h : g.Derives r rename field ns)
    (hr : kind ∉ r.renamedKinds) (hrename : ∀ s ∈ rename, s.kind ≠ kind) :
    ∀ n ∈ ns, n.Everywhere (g.Shown kind) := by
  induction h with
  | blank | lexeme =>
      intro n hn
      cases hn
  | @word text rename field ns h =>
      refine everywhere_presents hk.not_extra (List.forall_mem_nil _)
        (fun s n hs hn hnamed heq => ?_) h
      rw [hn.kind_eq] at heq
      rw [hn.named_eq] at hnamed
      cases rename with
      | none =>
          cases hs
          cases hnamed
      | some s' =>
          cases hs
          exact absurd heq (hrename _ rfl)
  | layout hl h =>
      refine everywhere_presents hk.not_extra (List.forall_mem_nil _) (fun s n hs hn _ heq => ?_) h
      exact absurd (eq_of_or_shown? hrename hs (hn.kind_eq.symm.trans heq) ▸ hl) hk.not_layout
  | construct hi hlookup hbody h ih =>
      have hbelow := ih (hk.not_renamed _ (mem_of_lookup hlookup)) nofun
      refine everywhere_presents hk.not_extra hbelow (fun s n hs hn hnamed heq => ?_) h
      obtain rfl := eq_of_or_shown? hrename hs (hn.kind_eq.symm.trans heq)
      exact ⟨heq, hnamed, hn.loose, _, hlookup, hn.parts_eq ▸ hbody⟩
  | inlined hi hlookup _ ih =>
      refine ih (fun hmem => ?_) hrename
      exact hk.not_renamed _ (mem_of_lookup hlookup) (Rule.renamedKinds_strip_subset _ _ _ hmem)
  | seq _ _ iha ihb =>
      rw [Rule.renamedKinds, List.mem_append, not_or] at hr
      intro n hn
      rcases List.mem_append.mp hn with hn | hn
      · exact iha hr.1 hrename n hn
      · exact ihb hr.2 hrename n hn
  | left _ ih =>
      rw [Rule.renamedKinds, List.mem_append, not_or] at hr
      exact ih hr.1 hrename
  | right _ ih =>
      rw [Rule.renamedKinds, List.mem_append, not_or] at hr
      exact ih hr.2 hrename
  | once _ ih => exact ih hr hrename
  | more _ _ ihx ihy =>
      intro n hn
      rcases List.mem_append.mp hn with hn | hn
      · exact ihx hr hrename n hn
      · exact ihy hr hrename n hn
  | repetition _ h ih =>
      refine everywhere_presents hk.not_extra (ih hr nofun) (fun s n hs hn _ heq => ?_) h
      exact absurd (hn.kind_eq.symm.trans heq) (hrename s hs)
  | field _ ih => exact ih hr hrename
  | @rename shown _ _ _ _ _ ih =>
      rw [Rule.renamedKinds, List.mem_cons, not_or] at hr
      refine ih hr.2 fun s hs => ?_
      cases hs
      exact Ne.symm hr.1
  | ranked _ ih => exact ih hr hrename
  | weighted _ ih => exact ih hr hrename

end Grammar

/-- In a tree of a grammar the nodes of a proper kind show constructs of that name. -/
theorem Tree.Follows.everywhere {g : Grammar} {t : Tree} {kind : String} (h : t.Follows g)
    (hk : g.IsProper kind) : t.root.Everywhere (g.Shown kind) := by
  obtain ⟨name, -, -, hroot⟩ := h
  obtain ⟨r, hr, hderives⟩ := hroot.derives
  refine ⟨fun _ heq => ?_, Grammar.everywhere_children hk.not_extra hroot.loose ?_⟩
  · obtain rfl := hroot.kind_eq.symm.trans heq
    exact hroot
  · exact Grammar.everywhere_derives hk hderives (hk.not_renamed _ (Grammar.mem_of_lookup hr)) nofun

namespace Grammar

variable {g : Grammar} {kind name text : String} {r a b : Rule} {rename : Option Rename}
  {field : Option String} {ns body : List Node} {n : Node}

/-! ### What rules derive -/

theorem derives_blank : g.Derives .blank rename field ns ↔ ns = [] := by
  constructor
  · rintro ⟨⟩
    rfl
  · rintro rfl
    exact .blank

theorem derives_seq : g.Derives (.seq a b) rename field ns ↔
    ∃ xs ys, g.Derives a rename field xs ∧ g.Derives b rename field ys ∧ ns = xs ++ ys := by
  constructor
  · rintro ⟨⟩
    exact ⟨_, _, ‹_›, ‹_›, rfl⟩
  · rintro ⟨xs, ys, ha, hb, rfl⟩
    exact .seq ha hb

theorem derives_choice : g.Derives (.choice a b) rename field ns ↔
    g.Derives a rename field ns ∨ g.Derives b rename field ns := by
  constructor
  · rintro (_ | _)
    · exact .inl ‹_›
    · exact .inr ‹_›
  · rintro (h | h)
    · exact .left h
    · exact .right h

theorem derives_optional : g.Derives (.optional r) rename field ns ↔
    g.Derives r rename field ns ∨ ns = [] := by
  rw [Rule.optional, derives_choice, derives_blank]

theorem derives_field : g.Derives (.field name r) rename field ns ↔
    g.Derives r rename (some name) ns := by
  constructor
  · rintro ⟨⟩
    assumption
  · exact .field

theorem derives_rename {shown : Rename} : g.Derives (.rename shown r) rename field ns ↔
    g.Derives r (some shown) field ns := by
  constructor
  · rintro ⟨⟩
    assumption
  · exact .rename

/-- A word is one node, which is no construct unless it is renamed to one. -/
theorem derives_word (h : g.Derives (.word text) rename field ns) :
    ∃ n, ns = [n] ∧ n.kind = (rename.getD ⟨text, false⟩).kind ∧
      n.named = (rename.getD ⟨text, false⟩).named ∧ n.field = field := by
  cases h with
  | word h =>
      cases h with
      | shown h => exact ⟨_, rfl, h.kind_eq, h.named_eq, h.field_eq⟩

theorem IsConstruct.derives_rule (h : g.IsConstruct name n) (hr : g.rules.lookup name = some r) :
    g.Derives r none none (g.parts n) := by
  obtain ⟨r', hr', hd⟩ := h.derives
  cases hr.symm.trans hr'
  exact hd

/-- A construct that is not hidden is one node. -/
theorem derives_ref (hi : name ∉ g.inlined) (hl : name ∉ g.layout)
    (hs : g.shown? name = some ⟨name, true⟩) : g.Derives (.ref name) none field ns ↔
      ∃ n, ns = [n] ∧ n.field = field ∧ g.IsConstruct name n := by
  constructor
  · intro h
    cases h with
    | layout h => exact absurd h hl
    | inlined h => exact absurd h hi
    | construct _ hr hbody h =>
        rw [Option.none_or, hs] at h
        cases h with
        | shown h =>
            exact ⟨_, rfl, h.field_eq, h.kind_eq, h.named_eq, h.loose, _, hr, h.parts_eq ▸ hbody⟩
  · rintro ⟨n, rfl, rfl, hn⟩
    obtain ⟨r, hr, hd⟩ := hn.derives
    refine .construct hi hr hd ?_
    rw [Option.none_or, hs]
    exact .shown ⟨hn.kind_eq, hn.named_eq, rfl, rfl, hn.loose⟩

/-- A hidden construct gives place to the nodes that it consists of. -/
theorem derives_hidden (hi : name ∉ g.inlined) (hl : name ∉ g.layout)
    (hs : g.shown? name = none) (hr : g.rules.lookup name = some r) :
    g.Derives (.ref name) none field ns ↔
      ∃ body, g.Derives r none none body ∧ g.Presents none field body ns := by
  constructor
  · intro h
    cases h with
    | layout h => exact absurd h hl
    | inlined h => exact absurd h hi
    | construct _ hr' hbody h =>
        rw [Option.none_or, hs] at h
        cases hr.symm.trans hr'
        exact ⟨_, hbody, h⟩
  · rintro ⟨body, hbody, h⟩
    refine .construct hi hr hbody ?_
    rwa [Option.none_or, hs]

/-- One node that a hidden construct gives place to plays the part of that. -/
theorem presents_singleton (h : g.Presents none field [n] ns) (hn : n.field = none) :
    ns = [{ n with field := field }] := by
  cases h with
  | hidden =>
      obtain ⟨_, _, f, _, _, _, _, _⟩ := n
      obtain rfl : f = none := hn
      rfl
  | part => rfl

/-- Whether all named nodes that a rule derives have some property. -/
def Yields (g : Grammar) (P : Node → Prop) (r : Rule) : Prop :=
  ∀ ns, g.Derives r none none ns → ∀ n ∈ ns, n.named = true → P n

namespace Yields

variable {P : Node → Prop}

theorem word (text : String) : g.Yields P (.word text) := by
  intro ns hns
  obtain ⟨n, rfl, -, hnamed, -⟩ := derives_word hns
  rw [List.forall_mem_singleton, hnamed]
  exact nofun

theorem seq (ha : g.Yields P a) (hb : g.Yields P b) : g.Yields P (.seq a b) := by
  intro ns hns
  obtain ⟨xs, ys, hxs, hys, rfl⟩ := derives_seq.mp hns
  exact List.forall_mem_append.mpr ⟨ha xs hxs, hb ys hys⟩

theorem choice (ha : g.Yields P a) (hb : g.Yields P b) : g.Yields P (.choice a b) := fun ns hns =>
  (derives_choice.mp hns).elim (ha ns) (hb ns)

theorem optional (h : g.Yields P r) : g.Yields P (.optional r) := by
  intro ns hns
  rcases derives_optional.mp hns with hns | rfl
  · exact h ns hns
  · exact List.forall_mem_nil _

theorem repeated (h : g.Yields P r) : g.Yields P (.repeated r) := by
  intro ns hns
  generalize hrepeated : Rule.repeated r = s, hrename : (none : Option Rename) = rename,
    hfield : (none : Option String) = field at hns
  induction hns with
  | once hns =>
      cases hrepeated
      exact h _ hns
  | more hx _ _ ihy =>
      cases hrepeated
      exact List.forall_mem_append.mpr ⟨h _ hx, ihy rfl rfl rfl⟩
  | repetition _ hns ih =>
      cases hrename
      cases hfield
      cases hns
      exact ih hrepeated rfl rfl
  | _ => cases hrepeated

theorem many (h : g.Yields P r) : g.Yields P (.many r) := h.repeated.optional

theorem listed (h : g.Yields P r) : g.Yields P (.listed r) := h.seq ((word ",").seq h).many

end Yields

/-! ### Reading constructs -/

/-- The named nodes that a node consists of. -/
def constructs (g : Grammar) (n : Node) : List Node := (g.parts n).filter (·.named)

theorem constructs_eq (n : Node) :
    g.constructs n = n.namedChildren.filter fun c => !g.extras.contains c.kind := by
  rw [constructs, parts, Node.namedChildren, List.filter_filter, List.filter_filter]
  exact List.filter_congr fun c _ => Bool.and_comm _ _

theorem IsConstruct.forall_constructs {P : Node → Prop} (h : g.IsConstruct name n)
    (hr : g.rules.lookup name = some r) (hP : g.Yields P r) : ∀ m ∈ g.constructs n, P m :=
  fun m hm => hP _ (h.derives_rule hr) m (List.mem_of_mem_filter hm) (List.mem_filter.mp hm).2

/-- A child that plays a part is no extra. -/
theorem part?_eq (hloose : g.HasLooseExtras n) (part : String) :
    n.part? part = (g.parts n).find? (·.field == some part) := by
  rw [Node.part?, parts, List.find?_filter]
  refine List.find?_congr fun c hc => ?_
  by_cases hextra : c.kind ∈ g.extras
  · simp [(hloose c hc hextra).1]
  · simp [hextra, beq_eq_decide]

/-- What nothing is made of at extras is made of the constructs. -/
theorem flatMap_namedChildren {β : Type} {f : Node → List β}
    (hf : ∀ c ∈ n.children, c.kind ∈ g.extras → f c = []) :
    n.namedChildren.flatMap f = (g.constructs n).flatMap f := by
  have hsub : ∀ c ∈ n.namedChildren, c.kind ∈ g.extras → f c = [] := fun c hc =>
    hf c (List.mem_of_mem_filter hc)
  rw [constructs_eq]
  generalize n.namedChildren = cs at hsub
  induction cs with
  | nil => rfl
  | cons c cs ih =>
      rw [List.forall_mem_cons] at hsub
      rw [List.flatMap_cons, ih hsub.2]
      by_cases hextra : c.kind ∈ g.extras
      · simp [hextra, hsub.1 hextra]
      · simp [hextra]

/-- Of what is true of no extra the constructs hold all. -/
theorem filter_namedChildren {p : Node → Bool}
    (hp : ∀ c ∈ n.children, c.kind ∈ g.extras → p c = false) :
    n.namedChildren.filter p = (g.constructs n).filter p := by
  rw [constructs_eq, List.filter_filter]
  refine List.filter_congr fun c hc => ?_
  by_cases hextra : c.kind ∈ g.extras
  · simp [hp c (List.mem_of_mem_filter hc) hextra]
  · simp [hextra]

theorem any_namedChildren {p : Node → Bool}
    (hp : ∀ c ∈ n.children, c.kind ∈ g.extras → p c = false) :
    n.namedChildren.any p = (g.constructs n).any p := by
  have hmem : ∀ c, c ∈ n.namedChildren ∧ p c = true ↔ c ∈ g.constructs n ∧ p c = true := by
    intro c
    rw [← List.mem_filter, filter_namedChildren hp, List.mem_filter]
  rw [Bool.eq_iff_iff, List.any_eq_true, List.any_eq_true, exists_congr hmem]

end Grammar
end CodeSurvey
