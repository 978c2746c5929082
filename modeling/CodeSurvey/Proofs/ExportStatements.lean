import CodeSurvey.Proofs.Parameters

/-! # What export statements and classes hold

Some rules derive one node at most, as is seen from their text (`Grammar.single`,
`Grammar.length_derives`).  If there is nothing of a kind in what else a rule derives, then it
derives at most one node of that kind (`Grammar.solitary`, `Grammar.atMostOne_of_solitary`).

So in a tree of the grammar an export statement holds at most one function, class or method
(`Tree.Follows.countP_isDescribed_le_one`).  A class holds no export statement, unless it is within
a member (`Tree.Follows.kind_ne_export`). -/

namespace CodeSurvey

/-! ### How many nodes a rule derives -/

namespace Grammar

variable {g : Grammar} {l : Limits} {p : Node → Bool} {name : String} {r a b : Rule}
  {rename : Option Rename} {field : Option String} {ns body : List Node} {n : Node}

/-- Whether a rule derives at most one node, as is seen from its text. -/
def single (g : Grammar) : Rule → Option Rename → Bool
  | .blank, _ | .word _, _ | .lexeme _, _ => true
  | .ref name, rename => !g.inlined.contains name && (rename.or (g.shown? name)).isSome
  | .choice a b, rename => g.single a rename && g.single b rename
  | .seq _ _, _ => false
  | .repeated _, rename => rename.isSome
  | .field _ r, rename | .ranked _ _ r, rename | .weighted _ r, rename => g.single r rename
  | .rename shown r, _ => g.single r (some shown)

/-- What is not hidden is one node. -/
theorem length_presents {shown : Option Rename} (hs : shown.isSome)
    (h : g.Presents shown field body ns) : ns.length = 1 := by
  cases h with
  | shown => rfl
  | hidden | part => cases hs

/-- The rule of a construct is not looked at, for that is one node whatever it consists of. -/
theorem length_derives (h : g.Derives r rename field ns) (hr : g.single r rename) :
    ns.length ≤ 1 := by
  induction h with
  | blank | lexeme => exact Nat.zero_le 1
  | word h => exact (length_presents rfl h).le
  | layout _ h =>
      rw [single, Bool.and_eq_true] at hr
      exact (length_presents hr.2 h).le
  | construct _ _ _ h =>
      rw [single, Bool.and_eq_true] at hr
      exact (length_presents hr.2 h).le
  | inlined hi =>
      rw [single, Bool.and_eq_true, Bool.not_eq_true'] at hr
      simp [hi] at hr
  | seq => cases hr
  | left _ ih =>
      rw [single, Bool.and_eq_true] at hr
      exact ih hr.1
  | right _ ih =>
      rw [single, Bool.and_eq_true] at hr
      exact ih hr.2
  | once | more => cases hr
  | repetition _ h => exact (length_presents hr h).le
  | field _ ih | rename _ ih | ranked _ ih | weighted _ ih => exact ih hr

/-- Within limits that exclude some property no node has it. -/
theorem countP_within (hl : g.closed l) (hp : ∀ n, l.Holds n → p n = false)
    (h : g.Derives r rename field ns) (hr : g.within l r rename field) : ns.countP p = 0 := by
  refine List.countP_eq_zero.mpr fun n hn => ?_
  rw [hp n (derives_within hl h hr n hn)]
  exact Bool.false_ne_true

/-- Whether at most one of the nodes that a rule derives has some property. -/
def AtMostOne (g : Grammar) (p : Node → Bool) (r : Rule) : Prop :=
  ∀ ns, g.Derives r none none ns → ns.countP p ≤ 1

/-- A hidden construct that gives place to one node. -/
theorem atMostOne_field {part : String} (hi : name ∉ g.inlined) (hl : name ∉ g.layout)
    (hs : g.shown? name = none) (hr : g.rules.lookup name = some r) (h : g.single r none) :
    g.AtMostOne p (.field part (.ref name)) := by
  intro ns hns
  obtain ⟨body, hbody, hpresents⟩ := (derives_hidden hi hl hs hr).mp (derives_field.mp hns)
  have hlength : ns.length = body.length := by
    cases hpresents
    cases body <;> rfl
  exact List.countP_le_length.trans (hlength ▸ length_derives hbody h)

/-- Whether a rule derives at most one node that is outside of some limits, as is seen from its
text: what it derives is within them, but for one of some constructs that plays a part. -/
def solitary (g : Grammar) (l : Limits) (names : List String) : Rule → Bool
  | .seq a b => g.within l a none none && g.solitary l names b
  | .choice a b => g.solitary l names a && g.solitary l names b
  | .field part (.ref name) =>
    names.contains name || g.within l (.field part (.ref name)) none none
  | r => g.within l r none none

theorem atMostOne_of_solitary {names : List String} (hl : g.closed l)
    (hp : ∀ n, l.Holds n → p n = false)
    (hnames : ∀ name ∈ names, ∀ part, g.AtMostOne p (.field part (.ref name)))
    (hr : g.solitary l names r) : g.AtMostOne p r := by
  have hwithin : ∀ {r : Rule}, g.within l r none none → g.AtMostOne p r := by
    intro r hr ns hns
    rw [countP_within hl hp hns hr]
    exact Nat.zero_le 1
  induction r with
  | seq a b _ ihb =>
      rw [solitary, Bool.and_eq_true] at hr
      intro ns hns
      obtain ⟨xs, ys, hxs, hys, rfl⟩ := derives_seq.mp hns
      rw [List.countP_append, countP_within hl hp hxs hr.1, Nat.zero_add]
      exact ihb hr.2 ys hys
  | choice a b iha ihb =>
      rw [solitary, Bool.and_eq_true] at hr
      exact fun ns hns => (derives_choice.mp hns).elim (iha hr.1 ns) (ihb hr.2 ns)
  | field part r =>
      cases r with
      | ref name =>
          rw [solitary, Bool.or_eq_true] at hr
          rcases hr with hname | hr
          · exact hnames name (List.contains_iff_mem.mp hname) part
          · exact hwithin hr
      | _ => exact hwithin hr
  | _ => exact hwithin hr

end Grammar

/-! ### The declarations in an export statement -/

open TypeScript Rule

namespace TypeScript.Dialect

variable {d : Dialect} {n : Node}

/-- Functions. -/
def functionKinds : List String := ["function_declaration", "generator_function_declaration"]

/-- Classes. -/
def classKinds : List String := ["class_declaration", "abstract_class_declaration"]

/-- The kinds of declarations whose records have descriptions. -/
def describedKinds : List String := functionKinds ++ "method_definition" :: classKinds

/-- No such declaration. -/
def withoutDescribed : Grammar.Limits where
  kind shown := !describedKinds.contains shown.kind
  part _ := true
  hidden := ["_from_clause", "_semicolon", "_automatic_semicolon", "expression",
    "primary_expression", "_jsx_element", "_identifier", "_reserved_identifier"]

/-- No export statement. -/
def withoutExport : Grammar.Limits where
  kind shown := shown.kind != "export_statement"
  part _ := true
  hidden := ["_type_identifier", "_automatic_semicolon"]

/-- What is seen from the text of the rules for export statements, declarations and classes. -/
theorem exportRules (d : Dialect) :
    d.grammar.closed withoutDescribed ∧ d.grammar.closed withoutExport ∧
    (d.grammar.rules.lookup "export_statement").any
      (d.grammar.solitary withoutDescribed ["declaration"]) ∧
    ("declaration" ∉ d.grammar.inlined ∧ "declaration" ∉ d.grammar.layout ∧
      d.grammar.shown? "declaration" = none ∧
      (d.grammar.rules.lookup "declaration").any fun r => d.grammar.single r none) ∧
    (∀ kind ∈ classKinds,
      (d.grammar.rules.lookup kind).any fun r => d.grammar.within withoutExport r none none) ∧
    ∀ kind ∈ "export_statement" :: classKinds, kind ∉ d.grammar.extras ∧
      kind ∉ d.grammar.layout ∧ ∀ entry ∈ d.grammar.rules, kind ∉ entry.2.renamedKinds := by
  cases d <;> decide +kernel

theorem isProper_exportOrClass {kind : String} (hk : kind ∈ "export_statement" :: classKinds) :
    d.grammar.IsProper kind := by
  obtain ⟨-, -, -, -, -, hproper⟩ := exportRules d
  exact ⟨(hproper kind hk).1, (hproper kind hk).2.1, (hproper kind hk).2.2⟩

/-- Whether a node is such a declaration. -/
def isDescribed (n : Node) : Bool := describedKinds.contains n.kind

theorem atMostOne_exportStatement (d : Dialect) : ∃ r,
    d.grammar.rules.lookup "export_statement" = some r ∧ d.grammar.AtMostOne isDescribed r := by
  obtain ⟨hclosed, -, hexport, ⟨hi, hl, hs, hdeclaration⟩, -, -⟩ := exportRules d
  obtain ⟨r, hr, hsolitary⟩ := (Option.any_eq_true _ _).mp hexport
  refine ⟨r, hr, Grammar.atMostOne_of_solitary hclosed ?_ ?_ hsolitary⟩
  · exact fun n hn => by simpa [withoutDescribed, isDescribed] using hn.kind
  · intro name hname part
    obtain rfl := List.mem_singleton.mp hname
    obtain ⟨r, hr, hsingle⟩ := (Option.any_eq_true _ _).mp hdeclaration
    exact Grammar.atMostOne_field hi hl hs hr hsingle

end TypeScript.Dialect

namespace Tree.Follows

open TypeScript.Dialect (describedKinds classKinds isDescribed)

variable {d : TypeScript.Dialect} {t : Tree} {s : Site}

theorem isConstruct_exportOrClass (h : t.Follows d.grammar) (hs : t.root.HasSite s)
    (hk : s.node.kind ∈ "export_statement" :: classKinds) :
    d.grammar.IsConstruct s.node.kind s.node :=
  ((h.everywhere (TypeScript.Dialect.isProper_exportOrClass hk)).of_mem_sites s
    (Node.mem_sites.mpr hs)).here (h.named_of_hasSite hs) rfl

/-- An export statement holds no more than one declaration. -/
theorem countP_isDescribed_le_one (h : t.Follows d.grammar) (hs : t.root.HasSite s)
    (hk : s.node.kind = "export_statement") : s.node.children.countP isDescribed ≤ 1 := by
  have hextras : ∀ kind ∈ describedKinds, kind ∉ d.grammar.extras := by cases d <;> decide
  obtain ⟨r, hr, hone⟩ := TypeScript.Dialect.atMostOne_exportStatement d
  have hconstruct := h.isConstruct_exportOrClass hs (hk ▸ List.mem_cons_self)
  rw [hk] at hconstruct
  have hparts := hone _ (hconstruct.derives_rule hr)
  rw [Grammar.parts, List.countP_filter] at hparts
  refine le_of_eq_of_le (List.countP_congr fun c _ => ?_) hparts
  have hkind : isDescribed c = true → c.kind ∉ d.grammar.extras := fun hc =>
    hextras _ (List.contains_iff_mem.mp hc)
  simpa using hkind

/-- No child of a class is an export statement, so that the body of a class is none. -/
theorem kind_ne_export (h : t.Follows d.grammar) (hs : t.root.HasSite s)
    (hk : s.node.kind ∈ classKinds) : ∀ c ∈ s.node.children, c.kind ≠ "export_statement" := by
  have hextra : "export_statement" ∉ d.grammar.extras := by cases d <;> decide
  obtain ⟨-, hclosed, -, -, hclass, -⟩ := TypeScript.Dialect.exportRules d
  obtain ⟨r, hr, hwithin⟩ := (Option.any_eq_true _ _).mp (hclass _ hk)
  have hconstruct := h.isConstruct_exportOrClass hs (List.mem_cons_of_mem _ hk)
  intro c hc heq
  have hpart : c ∈ d.grammar.parts s.node :=
    List.mem_filter.mpr ⟨hc, by simpa [heq] using hextra⟩
  have hholds := Grammar.derives_within hclosed (hconstruct.derives_rule hr) hwithin c hpart
  simpa [TypeScript.Dialect.withoutExport, heq] using hholds.kind

end Tree.Follows

end CodeSurvey
