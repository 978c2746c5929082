import CodeSurvey.Extraction.Import
import CodeSurvey.Proofs.ImportForms
import CodeSurvey.Proofs.Sites
import Mathlib

/-! # Import statements and their records

In a tree of a dialect's grammar each import statement says something.  A statement of the form
`import a = require("m")` has no record, for there the string that tells the module is no child of
the statement itself; each other statement has one record, of what it says
(`ImportRecord.ofTree_spec`). -/

namespace CodeSurvey

open TypeScript

variable {d : Dialect} {t : Tree} {n : Node}

/-! ### Records of forms -/

/-- Whether the text of a node is a text in quotes. -/
def Tree.Quotes (t : Tree) (n : Node) (text : String) : Prop :=
  ∃ quote ∈ ["\"", "'"], t.text n = quote ++ text ++ quote

/-- Whether a record is that of an import statement. -/
structure ImportRecord.IsOf (t : Tree) (form : ImportForm) (x : ImportRecord) : Prop where
  source : ∀ text, t.Quotes form.source text → x.source = text
  names : x.names = form.names.map t.text
  isDefault : x.isDefault = true ↔ form.HasDefault

/-! ### Reading clauses -/

theorem TypeScript.Dialect.not_extra {kind : String} (hk : kind ∈ Dialect.importKinds) :
    ∀ c : Node, c.kind ∈ d.grammar.extras → (c.kind == kind) = false := by
  have hne : ∀ kind ∈ Dialect.importKinds, kind ∉ d.grammar.extras := by
    cases d <;> decide
  intro c hc
  exact beq_false_of_ne fun heq => hne kind hk (heq ▸ hc)

namespace ImportRecord

/-- Whether a part of an import clause is read as what it is. -/
structure Reads (g : Grammar) (t : Tree) (n : Node) (b : ImportBinding) : Prop where
  isBinding : g.IsBinding n b
  namesOf_eq : namesOf t n = b.names.map t.text
  isDefault_iff : n.kind = "identifier" ↔ ∃ name, b = .default name

theorem reads_default (t : Tree) (hk : n.kind = "identifier") :
    Reads d.grammar t n (.default n) where
  isBinding := .default hk
  namesOf_eq := by simp only [namesOf, hk]; rfl
  isDefault_iff := ⟨fun _ => ⟨n, rfl⟩, fun _ => hk⟩

theorem exists_reads_all (t : Tree) (h : d.grammar.IsConstruct "namespace_import" n) :
    ∃ b, Reads d.grammar t n b := by
  obtain ⟨name, hn, hk⟩ := Dialect.constructs_namespaceImport h
  have hfind : n.namedChildren.find? (·.kind == "identifier") = some name := by
    rw [← List.head?_filter,
      Grammar.filter_namedChildren fun c _ => Dialect.not_extra (d := d) (by decide) c, hn]
    simp [hk]
  refine ⟨.all name, .all h.kind_eq hn, ?_, by simp [h.kind_eq]⟩
  simp only [namesOf, h.kind_eq, hfind]
  rfl

theorem exists_forall₂ {α β : Type} {R : α → β → Prop} {as : List α} (h : ∀ a ∈ as, ∃ b, R a b) :
    ∃ bs, List.Forall₂ R as bs := by
  induction as with
  | nil => exact ⟨[], .nil⟩
  | cons a as ih =>
      rw [List.forall_mem_cons] at h
      obtain ⟨b, hb⟩ := h.1
      obtain ⟨bs, hbs⟩ := ih h.2
      exact ⟨b :: bs, .cons hb hbs⟩

theorem exists_reads_each (t : Tree) (h : d.grammar.IsConstruct "named_imports" n) :
    ∃ b, Reads d.grammar t n b := by
  have hall := Dialect.constructs_namedImports h
  obtain ⟨specifiers, hspecifiers⟩ :=
    exists_forall₂ fun m hm => Dialect.exists_specifier (hall m hm)
  refine ⟨.each specifiers, .each h.kind_eq (hspecifiers.imp fun _ _ hs => hs.1), ?_,
    by simp [h.kind_eq]⟩
  have hfilter : n.namedChildren.filter (·.kind == "import_specifier") = d.grammar.constructs n := by
    rw [Grammar.filter_namedChildren fun c _ => Dialect.not_extra (d := d) (by decide) c]
    exact List.filter_eq_self.mpr fun m hm => beq_iff_eq.mpr (hall m hm).kind_eq
  have hnames : List.Forall₂ (· = ·) (namesOf t n)
      (specifiers.filterMap fun s => some (t.text s.bound)) := by
    simp only [namesOf, h.kind_eq, hfilter]
    refine List.rel_filterMap (fun m s hs => ?_) hspecifiers
    rw [hs.2.2, Option.map_some, nameText, if_neg (by rw [hs.2.1]; decide)]
    exact .some rfl
  rw [List.forall₂_eq_eq_eq] at hnames
  rw [hnames, ImportBinding.names, List.map_map, List.filterMap_eq_map']
  rfl

/-- All parts of an import clause are read as what they are. -/
theorem exists_bindings (t : Tree) (h : d.grammar.IsConstruct "import_clause" n) :
    ∃ bs, List.Forall₂ (Reads d.grammar t) (d.grammar.constructs n) bs := by
  refine exists_forall₂ fun m hm => ?_
  rcases Dialect.constructs_importClause h m hm with hk | hm | hm
  · exact ⟨_, reads_default t hk⟩
  · exact exists_reads_all t hm
  · exact exists_reads_each t hm

end ImportRecord

/-! ### Reading statements -/

theorem Tree.Follows.named_of_hasSite {g : Grammar} (h : t.Follows g) {s : Site}
    (hs : t.root.HasSite s) : s.node.named = true := by
  cases hs with
  | root =>
      obtain ⟨_, _, -, hroot⟩ := h
      exact hroot.named_eq
  | child _ hc => exact (List.mem_filter.mp hc).2

theorem Literal.inside_quoted {q : Char} (hq : q.utf8Size = 1) (body : List Char) :
    Literal.inside (q :: (body ++ [q])) = body := by
  cases body with
  | nil => simp [inside, hq]
  | cons c cs =>
      simp only [List.cons_append, inside]
      rw [← List.cons_append, List.getLastD_concat, List.dropLast_concat, if_pos ⟨hq, hq⟩]

namespace ImportRecord

theorem nameText_of_quotes {source : Node} {text : String} (hk : source.kind = "string")
    (h : t.Quotes source text) : nameText t source = text := by
  obtain ⟨quote, hq, h⟩ := h
  have hquote : ∃ q : Char, quote = String.ofList [q] ∧ q.utf8Size = 1 := by
    rw [List.mem_cons, List.mem_singleton] at hq
    rcases hq with rfl | rfl
    · exact ⟨'"', rfl, rfl⟩
    · exact ⟨'\'', rfl, rfl⟩
  obtain ⟨q, rfl, hsize⟩ := hquote
  rw [nameText, if_pos hk, h, String.toList_append, String.toList_append, String.toList_ofList,
    List.append_assoc, List.singleton_append, Literal.inside_quoted hsize, String.ofList_toList]

/-- Whether a node is the string that tells the module of the statement that it is a child of. -/
def isSource (c : Node) : Bool := c.field == some "source" && c.kind == "string"

theorem ofStatement_eq (t : Tree) (h : d.grammar.IsConstruct "import_statement" n) :
    ofStatement t n = ((d.grammar.constructs n).filter isSource).map fun source =>
      { source := nameText t source
        names := (bindings n).flatMap (namesOf t)
        isDefault := (bindings n).any (·.kind == "identifier") } := by
  have hextra : ∀ c ∈ n.children, c.kind ∈ d.grammar.extras → isSource c = false := by
    intro c _ hc
    rw [isSource, Dialect.not_extra (d := d) (by decide) c hc, Bool.and_false]
  rw [ofStatement, if_pos h.kind_eq, ← Grammar.filter_namedChildren hextra]
  rfl

theorem bindings_eq (d : Dialect) (n : Node) :
    bindings n = (((d.grammar.constructs n).find? (·.kind == "import_clause")).map
      (·.namedChildren)).getD [] := by
  rw [bindings, ← List.head?_filter, ← List.head?_filter,
    Grammar.filter_namedChildren fun c _ => Dialect.not_extra (d := d) (by decide) c]
  cases ((d.grammar.constructs n).filter (·.kind == "import_clause")).head? <;> rfl

/-- Without a clause no names are bound. -/
theorem isOf_bare {source : Node} (hk : source.kind = "string") :
    IsOf t (.bare source) ⟨nameText t source, [], false⟩ where
  source _ := nameText_of_quotes hk
  names := rfl
  isDefault := ⟨nofun, nofun⟩

/-- With a clause those names are bound that its parts bind. -/
theorem isOf_bound {clause source : Node} {bs : List ImportBinding} (hk : source.kind = "string")
    (hb : List.Forall₂ (Reads d.grammar t) (d.grammar.constructs clause) bs) :
    IsOf t (.bound bs source) ⟨nameText t source, clause.namedChildren.flatMap (namesOf t),
      clause.namedChildren.any (·.kind == "identifier")⟩ where
  source _ := nameText_of_quotes hk
  names := by
    have hextra : ∀ c ∈ clause.children, c.kind ∈ d.grammar.extras → namesOf t c = [] := by
      intro c _ hc
      have hk : c.kind = "comment" ∨ c.kind = "html_comment" := by
        cases d <;> simpa [Dialect.grammar] using hc
      rcases hk with hk | hk <;> simp only [namesOf, hk] <;> rfl
    rw [ImportForm.names, List.map_flatMap]
    have hnames : List.Forall₂ (· = ·) ((d.grammar.constructs clause).flatMap (namesOf t))
        (bs.flatMap fun b => b.names.map t.text) :=
      List.rel_flatMap hb fun c b hcb => by
        rw [hcb.namesOf_eq, List.forall₂_eq_eq_eq]
    rw [List.forall₂_eq_eq_eq] at hnames
    exact (Grammar.flatMap_namedChildren hextra).trans hnames
  isDefault := by
    rw [Grammar.any_namedChildren fun c _ => Dialect.not_extra (d := d) (by decide) c,
      ImportForm.HasDefault]
    generalize d.grammar.constructs clause = cs at hb
    induction hb with
    | nil => simp
    | cons hcb _ ih =>
        rw [List.any_cons, Bool.or_eq_true, beq_iff_eq, hcb.isDefault_iff, ih, ← exists_or]
        simp [eq_comm]

/-- A statement has a form, and is recorded as that tells, unless the module is required. -/
theorem exists_form (t : Tree) (h : d.grammar.IsConstruct "import_statement" n) :
    ∃ form, d.grammar.IsImport n form ∧
      List.Forall₂ (IsOf t) ([form].filter (!·.isRequired)) (ofStatement t n) := by
  obtain ⟨rest, hrest, hn⟩ := Dialect.constructs_importStatement h
  have hfilter : rest.filter isSource = [] :=
    List.filter_eq_nil_iff.mpr fun a ha => by simp [isSource, hrest a ha]
  have hfind : rest.find? (·.kind == "import_clause") = none :=
    List.find?_eq_none.mpr fun a ha => by simp [hrest a ha]
  rw [ofStatement_eq t h, bindings_eq d]
  rcases hn with ⟨source, hn, hf, hs⟩ | ⟨clause, source, hn, hf, hc, hs⟩ | ⟨clause, hn, hc⟩
  · refine ⟨.bare source, .bare hn hs.kind_eq hrest, ?_⟩
    have hone : (source :: rest).filter isSource = [source] := by
      simp [isSource, hf, hs.kind_eq, hfilter]
    have hnone : (source :: rest).find? (·.kind == "import_clause") = none := by
      simp [hs.kind_eq, hfind]
    rw [hn, hone, hnone]
    exact .cons (isOf_bare hs.kind_eq) .nil
  · obtain ⟨bs, hbs⟩ := exists_bindings t hc
    refine ⟨.bound bs source, .bound hn hc.kind_eq (hbs.imp fun _ _ hb => hb.isBinding) hs.kind_eq
      hrest, ?_⟩
    have hone : (clause :: source :: rest).filter isSource = [source] := by
      simp [isSource, hf, hs.kind_eq, hc.kind_eq, hfilter]
    have hclause : (clause :: source :: rest).find? (·.kind == "import_clause") = some clause := by
      simp [hc.kind_eq]
    rw [hn, hone, hclause]
    exact .cons (isOf_bound hs.kind_eq hbs) .nil
  · obtain ⟨name, source, hnames, hs⟩ := Dialect.constructs_importRequireClause hc
    refine ⟨.required name source, .required hn hc.kind_eq hnames hs hrest, ?_⟩
    have hnone : (clause :: rest).filter isSource = [] := by
      simp [isSource, hc.kind_eq, hfilter]
    rw [hn, hnone]
    exact .nil

/-- Statements that have forms are recorded one after the other. -/
theorem exists_forms {sites : List Site}
    (h : ∀ s ∈ sites, d.grammar.IsConstruct "import_statement" s.node) :
    ∃ forms, List.Forall₂ (fun s form => d.grammar.IsImport s.node form) sites forms ∧
      List.Forall₂ (IsOf t) (forms.filter (!·.isRequired))
        (sites.flatMap fun s => ofStatement t s.node) := by
  induction sites with
  | nil => exact ⟨[], .nil, .nil⟩
  | cons s sites ih =>
      rw [List.forall_mem_cons] at h
      obtain ⟨form, hform, hrecords⟩ := exists_form t h.1
      obtain ⟨forms, hforms, hrest⟩ := ih h.2
      refine ⟨form :: forms, .cons hform hforms, ?_⟩
      rw [List.flatMap_cons, ← List.singleton_append, List.filter_append]
      exact List.rel_append hrecords hrest

/-- Only import statements are recorded. -/
theorem ofTree_eq (t : Tree) :
    ofTree t = (t.root.sites.filter (·.node.kind == "import_statement")).flatMap
      fun s => ofStatement t s.node := by
  rw [ofTree, Node.descendants, List.flatMap_map]
  generalize t.root.sites = sites
  induction sites with
  | nil => rfl
  | cons s sites ih =>
      rw [List.flatMap_cons, ih, List.filter_cons]
      split
      next => rw [List.flatMap_cons]
      next hk => rw [ofStatement, if_neg (by simpa using hk), List.nil_append]

/-- In a tree of the grammar every import statement has a form, and the records are those of the
statements, in pre-order, but for those that require a module. -/
theorem ofTree_spec (d : Dialect) (t : Tree) (h : t.Follows d.grammar) :
    ∃ sites forms,
      Site.Enumerates (fun s => t.root.HasSite s ∧ s.node.kind = "import_statement") sites ∧
      List.Forall₂ (fun s form => d.grammar.IsImport s.node form) sites forms ∧
      List.Forall₂ (IsOf t) (forms.filter (!·.isRequired)) (ofTree t) := by
  have henum := t.root.enumerates_filter_sites fun s => s.node.kind == "import_statement"
  have hconstruct : ∀ s ∈ t.root.sites.filter (·.node.kind == "import_statement"),
      d.grammar.IsConstruct "import_statement" s.node := by
    intro s hs
    obtain ⟨hsite, hk⟩ := (henum.mem_iff s).mp hs
    have hshown := (h.everywhere (Dialect.isProper_importStatement d)).of_mem_sites s
      (Node.mem_sites.mpr hsite)
    exact hshown.here (h.named_of_hasSite hsite) (beq_iff_eq.mp hk)
  obtain ⟨forms, hforms, hrecords⟩ := exists_forms hconstruct
  refine ⟨_, forms, ⟨fun s => ?_, henum.preorder⟩, hforms, ofTree_eq t ▸ hrecords⟩
  rw [henum.mem_iff, beq_iff_eq]

end ImportRecord

/-! ### A source with two statements -/

section Sample

variable {g : Grammar} {name text : String} {field : Option String} {start stop : Nat}
  {cs : List Node} {r : Rule}

/-- On one line a construct shows if its rule derives its children, and no extras are among them. -/
theorem isConstruct_onLine (hr : g.rules.lookup name = some r) (hcs : ∀ c ∈ cs, c.kind ∉ g.extras)
    (hd : g.Derives r none none cs) : g.IsConstruct name (.onLine name field start stop cs) where
  kind_eq := rfl
  named_eq := rfl
  loose c hc hextra := absurd hextra (hcs c hc)
  derives := by
    refine ⟨r, hr, ?_⟩
    rwa [Grammar.parts, List.filter_eq_self.mpr]
    exact fun c hc => by simpa using hcs c hc

theorem derives_wordOnLine : g.Derives (.word text) none none [.wordOnLine text start stop] :=
  .word (.shown ⟨rfl, rfl, rfl, rfl, fun _ hc => absurd hc List.not_mem_nil⟩)

theorem derives_cons {a b : Rule} {n : Node} {ns : List Node} (ha : g.Derives a none none [n])
    (hb : g.Derives b none none ns) : g.Derives (.seq a b) none none (n :: ns) := .seq ha hb

theorem derives_skip {a b : Rule} {ns : List Node} (ha : g.Derives a none none [])
    (hb : g.Derives b none none ns) : g.Derives (.seq a b) none none ns := .seq ha hb

theorem isConstruct_identifier : Dialect.plain.grammar.IsConstruct "identifier"
    (.onLine "identifier" field start stop []) :=
  isConstruct_onLine (r := .lexeme (.ofPattern Lexemes.identifier)) rfl (List.forall_mem_nil _) .lexeme

/-- The string of a module whose name is one letter. -/
def moduleString (start : Nat) : Node :=
  .onLine "string" (some "source") start (start + 3) [.wordOnLine "\"" start (start + 1),
    .onLine "string_fragment" none (start + 1) (start + 2) [],
    .wordOnLine "\"" (start + 2) (start + 3)]

theorem isConstruct_moduleString :
    Dialect.plain.grammar.IsConstruct "string" (moduleString start) := by
  have hletter : Dialect.plain.grammar.Derives (the "unescaped_double_string_fragment")
      (some ⟨"string_fragment", true⟩) none
      [.onLine "string_fragment" none (start + 1) (start + 2) []] :=
    .construct (r := .lexeme (.adjoining (Lexemes.stringPart '"') 1)) (by decide) rfl .lexeme
      (.shown ⟨rfl, rfl, rfl, rfl, fun _ hc => absurd hc List.not_mem_nil⟩)
  exact isConstruct_onLine rfl (by simp [Node.wordOnLine, Node.onLine, Dialect.grammar])
    (.left (derives_cons derives_wordOnLine
      (derives_cons (.left (.once (.left (.rename hletter)))) derives_wordOnLine)))

theorem derives_moduleString : Dialect.plain.grammar.Derives (.field "source" (the "string")) none
    none [moduleString start] :=
  .field ((Dialect.derives_the (by decide)).mpr ⟨_, rfl, rfl, isConstruct_moduleString⟩)

/-- A specifier `b as c` of names of one letter. -/
def aliasSpecifier (start : Nat) : Node :=
  .onLine "import_specifier" none start (start + 6)
    [.onLine "identifier" (some "name") start (start + 1) [],
      .wordOnLine "as" (start + 2) (start + 4),
      .onLine "identifier" (some "alias") (start + 5) (start + 6) []]

/-- A hidden construct that may be a name gives place to it. -/
theorem derives_nameOnLine (hk : name ∈ Dialect.hiddenKinds)
    (hr : Dialect.plain.grammar.rules.lookup name = some (.choice (the "identifier") r)) :
    Dialect.plain.grammar.Derives (the name) none field
      [.onLine "identifier" field start stop []] := by
  refine (Dialect.derives_hidden hk hr).mpr ⟨[.onLine "identifier" none start stop []],
    .left ((Dialect.derives_the (by decide)).mpr ⟨_, rfl, rfl, isConstruct_identifier⟩), ?_⟩
  cases field with
  | none => exact .hidden _
  | some f => exact .part f _

theorem isConstruct_aliasSpecifier :
    Dialect.plain.grammar.IsConstruct "import_specifier" (aliasSpecifier start) :=
  isConstruct_onLine (Dialect.lookup_importSpecifier .plain)
    (by simp [Node.wordOnLine, Node.onLine, Dialect.grammar])
    (derives_skip (.right .blank) (.right (derives_cons
      (.field (.left (derives_nameOnLine (by decide) (Dialect.lookup_moduleExportName .plain))))
      (derives_cons derives_wordOnLine
        (.field (derives_nameOnLine (by decide) (Dialect.lookup_importIdentifier .plain)))))))

/-- The statement `import a,{b as c}from"m";`. -/
def boundStatement (start : Nat) : Node :=
  .onLine "import_statement" none start (start + 25)
    [.wordOnLine "import" start (start + 6),
      .onLine "import_clause" none (start + 7) (start + 17)
        [.onLine "identifier" none (start + 7) (start + 8) [],
          .wordOnLine "," (start + 8) (start + 9),
          .onLine "named_imports" none (start + 9) (start + 17)
            [.wordOnLine "\x7b" (start + 9) (start + 10), aliasSpecifier (start + 10),
              .wordOnLine "\x7d" (start + 16) (start + 17)]],
      .wordOnLine "from" (start + 17) (start + 21), moduleString (start + 21),
      .wordOnLine ";" (start + 24) (start + 25)]

/-- The statement `import d=require("n");`. -/
def requireStatement (start : Nat) : Node :=
  .onLine "import_statement" none start (start + 22)
    [.wordOnLine "import" start (start + 6),
      .onLine "import_require_clause" none (start + 7) (start + 21)
        [.onLine "identifier" none (start + 7) (start + 8) [],
          .wordOnLine "=" (start + 8) (start + 9), .wordOnLine "require" (start + 9) (start + 16),
          .wordOnLine "(" (start + 16) (start + 17), moduleString (start + 17),
          .wordOnLine ")" (start + 20) (start + 21)],
      .wordOnLine ";" (start + 21) (start + 22)]

theorem derives_semicolonOnLine : Dialect.plain.grammar.Derives (the "_semicolon") none none
    [.wordOnLine ";" start stop] :=
  .inlined (by decide) (Dialect.lookup_semicolon .plain) (.right derives_wordOnLine)

/-- What is shown by a node of its own is derived as that node. -/
theorem derives_onLine (hk : name ∈ Dialect.importKinds)
    (h : Dialect.plain.grammar.IsConstruct name (.onLine name none start stop cs)) :
    Dialect.plain.grammar.Derives (the name) none none [.onLine name none start stop cs] :=
  (Dialect.derives_the hk).mpr ⟨_, rfl, rfl, h⟩

theorem isConstruct_requireStatement :
    Dialect.plain.grammar.IsConstruct "import_statement" (requireStatement start) := by
  refine isConstruct_onLine (Dialect.lookup_importStatement .plain)
    (by simp [Node.wordOnLine, Node.onLine, Dialect.grammar])
    (derives_cons derives_wordOnLine (derives_skip (.right .blank) (derives_cons
      (.right (.left (derives_onLine (by decide) ?_)))
      (derives_skip (.right .blank) derives_semicolonOnLine))))
  exact isConstruct_onLine (Dialect.lookup_importRequireClause .plain)
    (by simp [Node.wordOnLine, Node.onLine, Dialect.grammar, moduleString])
    (derives_cons (derives_onLine (by decide) isConstruct_identifier)
      (derives_cons derives_wordOnLine (derives_cons derives_wordOnLine
        (derives_cons derives_wordOnLine (derives_cons derives_moduleString derives_wordOnLine)))))

theorem isConstruct_boundStatement :
    Dialect.plain.grammar.IsConstruct "import_statement" (boundStatement start) := by
  have hfrom : Dialect.plain.grammar.Derives (the "_from_clause") none none
      [.wordOnLine "from" (start + 17) (start + 21), moduleString (start + 21)] :=
    (Dialect.derives_hidden (by decide) (Dialect.lookup_fromClause .plain)).mpr
      ⟨_, derives_cons derives_wordOnLine derives_moduleString, .hidden _⟩
  refine isConstruct_onLine (Dialect.lookup_importStatement .plain)
    (by simp [Node.wordOnLine, Node.onLine, Dialect.grammar, moduleString])
    (derives_cons derives_wordOnLine (derives_skip (.right .blank) (.seq
      (.left (derives_cons (derives_onLine (by decide) ?_) hfrom))
      (derives_skip (.right .blank) derives_semicolonOnLine))))
  refine isConstruct_onLine (Dialect.lookup_importClause .plain)
    (by simp [Node.wordOnLine, Node.onLine, Dialect.grammar])
    (.right (.right (derives_cons
      (derives_nameOnLine (by decide) (Dialect.lookup_importIdentifier .plain))
      (.left (derives_cons derives_wordOnLine (.right (derives_onLine (by decide) ?_)))))))
  exact isConstruct_onLine (Dialect.lookup_namedImports .plain)
    (by simp [Node.wordOnLine, Node.onLine, Dialect.grammar, aliasSpecifier])
    (derives_cons derives_wordOnLine (derives_cons
      (.left (derives_cons (derives_onLine (by decide) isConstruct_aliasSpecifier) (.right .blank)))
      (derives_skip (.right .blank) derives_wordOnLine)))

/-- Both statements on one line. -/
def importTree : Tree where
  source := .ofBytes "import a,{b as c}from\"m\";import d=require(\"n\");".toUTF8
  root := .onLine "program" none 0 47 [boundStatement 0, requireStatement 25]

theorem derives_statement
    (h : Dialect.plain.grammar.IsConstruct "import_statement"
      (.onLine "import_statement" none start stop cs)) :
    Dialect.plain.grammar.Derives (the "statement") none none
      [.onLine "import_statement" none start stop cs] :=
  (Dialect.derives_hidden (by decide) rfl).mpr
    ⟨_, .right (.left (derives_onLine (by decide) h)), .hidden _⟩

theorem follows_importTree : importTree.Follows Dialect.plain.grammar :=
  ⟨"program", _, rfl, isConstruct_onLine rfl
    (by simp [boundStatement, requireStatement, Node.onLine, Dialect.grammar])
    (derives_skip (.right .blank) (.left (.more (derives_statement isConstruct_boundStatement)
      (.once (derives_statement isConstruct_requireStatement)))))⟩

/-- The statement that requires a module has no record. -/
theorem ofTree_spec_importTree :
    ImportRecord.ofTree importTree = [⟨"m", ["a", "c"], true⟩] ∧
    ∃ sites forms,
      Site.Enumerates (fun s => importTree.root.HasSite s ∧ s.node.kind = "import_statement") sites ∧
      List.Forall₂ (fun s form => Dialect.plain.grammar.IsImport s.node form) sites forms ∧
      List.Forall₂ (ImportRecord.IsOf importTree) (forms.filter (!·.isRequired))
        (ImportRecord.ofTree importTree) :=
  ⟨by decide +kernel, ImportRecord.ofTree_spec .plain importTree follows_importTree⟩

end Sample

end CodeSurvey
