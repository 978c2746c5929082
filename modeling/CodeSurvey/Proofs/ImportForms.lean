import CodeSurvey.Proofs.Derivations
import CodeSurvey.TypeScript.Dialect
import Mathlib

/-! # What import statements say

`ImportForm` is what an import statement says, and `Grammar.IsImport` how it says it: which of the
nodes that a statement consists of tell the module and the names that are bound.  Type modifiers,
attributes and extras make no difference.

What the constructs of an import statement consist of is read off their rules, one construct after
the other, from the specifiers (`exists_specifier`) to whole statements
(`constructs_importStatement`). -/

namespace CodeSurvey

open TypeScript Rule

/-! ### Forms -/

/-- What is imported by its name in the module, maybe under another name. -/
structure ImportSpecifier where
  name : Node
  alias? : Option Node

/-- The name under which it is imported. -/
def ImportSpecifier.bound (s : ImportSpecifier) : Node := s.alias?.getD s.name

/-- A part of an import clause: `a`, `* as a`, or `{ a, b as c }`. -/
inductive ImportBinding where
  | default (name : Node)
  | all (name : Node)
  | each (specifiers : List ImportSpecifier)

/-- The names that it binds. -/
def ImportBinding.names : ImportBinding → List Node
  | default name | all name => [name]
  | each specifiers => specifiers.map (·.bound)

/-- What an import statement says: `import "m"`, `import a, { b } from "m"`, or
`import a = require("m")`. -/
inductive ImportForm where
  | bare (source : Node)
  | bound (bindings : List ImportBinding) (source : Node)
  | required (name source : Node)

namespace ImportForm

/-- The string that tells the module. -/
def source : ImportForm → Node
  | bare source | bound _ source | required _ source => source

/-- The names that the statement binds. -/
def names : ImportForm → List Node
  | bare _ => []
  | bound bindings _ => bindings.flatMap (·.names)
  | required name _ => [name]

/-- Whether one of the names is bound to the default export of the module. -/
def HasDefault : ImportForm → Prop
  | bound bindings _ => ∃ name, .default name ∈ bindings
  | bare _ | required .. => False

/-- Whether the module is required by a call. -/
def isRequired : ImportForm → Bool
  | required .. => true
  | bare _ | bound .. => false

end ImportForm

namespace Grammar

/-- Whether a node is a specifier of a name and maybe an alias. -/
structure IsSpecifier (g : Grammar) (n : Node) (s : ImportSpecifier) : Prop where
  kind_eq : n.kind = "import_specifier"
  constructs_eq : g.constructs n = s.name :: s.alias?.toList

/-- Whether a node is a part of an import clause. -/
inductive IsBinding (g : Grammar) : Node → ImportBinding → Prop
  | default {n : Node} (hk : n.kind = "identifier") : IsBinding g n (.default n)
  | all {n name : Node} (hk : n.kind = "namespace_import") (hn : g.constructs n = [name]) :
      IsBinding g n (.all name)
  | each {n : Node} {specifiers : List ImportSpecifier} (hk : n.kind = "named_imports")
      (hn : List.Forall₂ g.IsSpecifier (g.constructs n) specifiers) :
      IsBinding g n (.each specifiers)

/-- Whether an import statement says something.  There may be attributes at its end. -/
inductive IsImport (g : Grammar) : Node → ImportForm → Prop
  | bare {n source : Node} {rest : List Node} (hn : g.constructs n = source :: rest)
      (hs : source.kind = "string") (hrest : ∀ a ∈ rest, a.kind = "import_attribute") :
      IsImport g n (.bare source)
  | bound {n clause source : Node} {rest : List Node} {bindings : List ImportBinding}
      (hn : g.constructs n = clause :: source :: rest) (hc : clause.kind = "import_clause")
      (hb : List.Forall₂ g.IsBinding (g.constructs clause) bindings)
      (hs : source.kind = "string") (hrest : ∀ a ∈ rest, a.kind = "import_attribute") :
      IsImport g n (.bound bindings source)
  | required {n clause name source : Node} {rest : List Node}
      (hn : g.constructs n = clause :: rest) (hc : clause.kind = "import_require_clause")
      (hb : g.constructs clause = [name, source]) (hs : source.kind = "string")
      (hrest : ∀ a ∈ rest, a.kind = "import_attribute") : IsImport g n (.required name source)

end Grammar

/-! ### The rules for imports -/

variable {d : Dialect} {n : Node} {ns : List Node} {field : Option String}

namespace TypeScript.Dialect

theorem lookup_importStatement (d : Dialect) : d.grammar.rules.lookup "import_statement" =
    some (chain ["import", optional (oneOf ["type", "typeof"]),
      oneOf [chain [the "import_clause", the "_from_clause"], the "import_require_clause",
        Rule.field "source" (the "string")], optional (the "import_attribute"), the "_semicolon"]) := by
  cases d <;> rfl

theorem lookup_importClause (d : Dialect) : d.grammar.rules.lookup "import_clause" =
    some (oneOf [the "namespace_import", the "named_imports",
      chain [the "_import_identifier",
        optional (chain [",", oneOf [the "namespace_import", the "named_imports"]])]]) := by
  cases d <;> rfl

theorem lookup_fromClause (d : Dialect) : d.grammar.rules.lookup "_from_clause" =
    some (chain ["from", Rule.field "source" (the "string")]) := by
  cases d <;> rfl

theorem lookup_importRequireClause (d : Dialect) :
    d.grammar.rules.lookup "import_require_clause" =
      some (chain [the "identifier", "=", "require", "(", Rule.field "source" (the "string"), ")"]) := by
  cases d <;> rfl

theorem lookup_namespaceImport (d : Dialect) : d.grammar.rules.lookup "namespace_import" =
    some (chain ["*", "as", the "identifier"]) := by
  cases d <;> rfl

theorem lookup_namedImports (d : Dialect) : d.grammar.rules.lookup "named_imports" =
    some (chain [lbrace, optional (listed (the "import_specifier")), optional ",", rbrace]) := by
  cases d <;> rfl

theorem lookup_importSpecifier (d : Dialect) : d.grammar.rules.lookup "import_specifier" =
    some (chain [optional (oneOf ["type", "typeof"]),
      oneOf [Rule.field "name" (the "_import_identifier"),
        chain [Rule.field "name" (oneOf [the "_module_export_name", Rule.as "identifier" "type"]),
          "as", Rule.field "alias" (the "_import_identifier")]]]) := by
  cases d <;> rfl

theorem lookup_importIdentifier (d : Dialect) : d.grammar.rules.lookup "_import_identifier" =
    some (oneOf [the "identifier", Rule.as "identifier" "type"]) := by
  cases d <;> rfl

theorem lookup_moduleExportName (d : Dialect) : d.grammar.rules.lookup "_module_export_name" =
    some (oneOf [the "identifier", the "string"]) := by
  cases d <;> rfl

theorem lookup_semicolon (d : Dialect) : d.grammar.rules.lookup "_semicolon" =
    some (oneOf [the "_automatic_semicolon", ";"]) := by
  cases d <;> rfl

theorem isProper_importStatement (d : Dialect) : d.grammar.IsProper "import_statement" where
  not_extra := by cases d <;> decide
  not_layout := by cases d <;> decide
  not_renamed := by cases d <;> decide +kernel

/-- Import statements, and the constructs and tokens in them, that show in the tree. -/
def importKinds : List String :=
  ["import_statement", "identifier", "string", "import_clause", "import_require_clause",
    "import_attribute", "namespace_import", "named_imports", "import_specifier"]

theorem derives_the {name : String} (hk : name ∈ importKinds) :
    d.grammar.Derives (the name) none field ns ↔
      ∃ n, ns = [n] ∧ n.field = field ∧ d.grammar.IsConstruct name n := by
  have hshown : ∀ name ∈ importKinds, name ∉ d.grammar.inlined ∧ name ∉ d.grammar.layout ∧
      d.grammar.shown? name = some ⟨name, true⟩ := by
    cases d <;> decide +kernel
  obtain ⟨hi, hl, hs⟩ := hshown name hk
  exact Grammar.derives_ref hi hl hs

/-- The hidden constructs that import statements consist of, or are. -/
def hiddenKinds : List String :=
  ["_import_identifier", "_module_export_name", "_from_clause", "statement"]

theorem derives_hidden {name : String} {r : Rule} (hk : name ∈ hiddenKinds)
    (hr : d.grammar.rules.lookup name = some r) :
    d.grammar.Derives (the name) none field ns ↔
      ∃ body, d.grammar.Derives r none none body ∧ d.grammar.Presents none field body ns := by
  have hhidden : ∀ name ∈ hiddenKinds,
      name ∉ d.grammar.inlined ∧ name ∉ d.grammar.layout ∧ d.grammar.shown? name = none := by
    cases d <;> decide +kernel
  obtain ⟨hi, hl, hs⟩ := hhidden name hk
  exact Grammar.derives_hidden hi hl hs hr

/-- A name that is bound is an identifier. -/
theorem derives_importIdentifier (h : d.grammar.Derives (the "_import_identifier") none field ns) :
    ∃ n, ns = [n] ∧ n.kind = "identifier" ∧ n.named = true ∧ n.field = field := by
  obtain ⟨body, hbody, hns⟩ := (derives_hidden (by decide) (lookup_importIdentifier d)).mp h
  have hone : ∃ n, body = [n] ∧ n.kind = "identifier" ∧ n.named = true ∧ n.field = none := by
    rcases Grammar.derives_choice.mp hbody with h | h
    · obtain ⟨n, rfl, hf, hn⟩ := (derives_the (by decide)).mp h
      exact ⟨n, rfl, hn.kind_eq, hn.named_eq, hf⟩
    · exact Grammar.derives_word (Grammar.derives_rename.mp h)
  obtain ⟨n, rfl, hk, hnamed, hf⟩ := hone
  exact ⟨_, Grammar.presents_singleton hns hf, hk, hnamed, rfl⟩

/-- A name in a module is an identifier or a string. -/
theorem derives_exportName (h : d.grammar.Derives
      (oneOf [the "_module_export_name", Rule.as "identifier" "type"]) none field ns) :
    ∃ n, ns = [n] ∧ n.named = true ∧ n.field = field := by
  rcases Grammar.derives_choice.mp h with h | h
  · obtain ⟨body, hbody, hns⟩ := (derives_hidden (by decide) (lookup_moduleExportName d)).mp h
    have hone : ∃ n, body = [n] ∧ n.named = true ∧ n.field = none := by
      rcases Grammar.derives_choice.mp hbody with h | h <;>
      · obtain ⟨n, rfl, hf, hn⟩ := (derives_the (by decide)).mp h
        exact ⟨n, rfl, hn.named_eq, hf⟩
    obtain ⟨n, rfl, hnamed, hf⟩ := hone
    exact ⟨_, Grammar.presents_singleton hns hf, hnamed, rfl⟩
  · obtain ⟨n, rfl, -, hnamed, hf⟩ := Grammar.derives_word (Grammar.derives_rename.mp h)
    exact ⟨n, rfl, hnamed, hf⟩

/-- Words that are no constructs and play no part. -/
def ArePlain (ns : List Node) : Prop := ∀ n ∈ ns, n.named = false ∧ n.field = none

theorem ArePlain.filter_named (h : ArePlain ns) : ns.filter (·.named) = [] :=
  List.filter_eq_nil_iff.mpr fun n hn => by simp [(h n hn).1]

theorem ArePlain.find?_field (h : ArePlain ns) (part : String) :
    ns.find? (·.field == some part) = none :=
  List.find?_eq_none.mpr fun n hn => by simp [(h n hn).2]

theorem arePlain_word {text : String} (h : d.grammar.Derives (.word text) none none ns) :
    ArePlain ns := by
  obtain ⟨n, rfl, -, hnamed, hf⟩ := Grammar.derives_word h
  exact List.forall_mem_singleton.mpr ⟨hnamed, hf⟩

theorem arePlain_modifier
    (h : d.grammar.Derives (optional (oneOf ["type", "typeof"])) none none ns) : ArePlain ns := by
  rcases Grammar.derives_optional.mp h with h | rfl
  · rcases Grammar.derives_choice.mp h with h | h
    · exact arePlain_word h
    · exact arePlain_word h
  · exact List.forall_mem_nil _

/-- A specifier has a name and maybe an alias, and those are the children that play these parts. -/
theorem exists_specifier (h : d.grammar.IsConstruct "import_specifier" n) :
    ∃ s : ImportSpecifier, d.grammar.IsSpecifier n s ∧ s.bound.kind = "identifier" ∧
      (n.part? "alias").or (n.part? "name") = some s.bound := by
  obtain ⟨modifiers, xs, hmodifiers, hxs, hparts⟩ :=
    Grammar.derives_seq.mp (h.derives_rule (lookup_importSpecifier d))
  have hplain := arePlain_modifier hmodifiers
  rw [Grammar.part?_eq h.loose, Grammar.part?_eq h.loose, hparts, List.find?_append,
    List.find?_append, hplain.find?_field, hplain.find?_field]
  rcases Grammar.derives_choice.mp hxs with hxs | hxs
  · obtain ⟨m, rfl, hk, hnamed, hf⟩ := derives_importIdentifier (Grammar.derives_field.mp hxs)
    refine ⟨⟨m, none⟩, ⟨h.kind_eq, ?_⟩, hk, ?_⟩
    · rw [Grammar.constructs, hparts, List.filter_append, hplain.filter_named]
      simp [hnamed]
    · simp [hf, ImportSpecifier.bound]
  · obtain ⟨names, _, hnames, hrest, rfl⟩ := Grammar.derives_seq.mp hxs
    obtain ⟨words, aliases, hwords, haliases, rfl⟩ := Grammar.derives_seq.mp hrest
    have hword := arePlain_word hwords
    obtain ⟨m, rfl, hmnamed, hmf⟩ := derives_exportName (Grammar.derives_field.mp hnames)
    obtain ⟨a, rfl, hk, hanamed, haf⟩ := derives_importIdentifier (Grammar.derives_field.mp haliases)
    refine ⟨⟨m, some a⟩, ⟨h.kind_eq, ?_⟩, hk, ?_⟩
    · rw [Grammar.constructs, hparts, List.filter_append, List.filter_append, List.filter_append,
        hplain.filter_named, hword.filter_named]
      simp [hmnamed, hanamed]
    · simp [hmf, haf, List.find?_append, hword.find?_field, ImportSpecifier.bound]

theorem constructs_namespaceImport (h : d.grammar.IsConstruct "namespace_import" n) :
    ∃ name, d.grammar.constructs n = [name] ∧ name.kind = "identifier" := by
  obtain ⟨stars, _, hstars, hafterStar, hparts⟩ :=
    Grammar.derives_seq.mp (h.derives_rule (lookup_namespaceImport d))
  obtain ⟨words, _, hwords, hname, rfl⟩ := Grammar.derives_seq.mp hafterStar
  obtain ⟨name, rfl, -, hname⟩ := (derives_the (by decide)).mp hname
  refine ⟨name, ?_, hname.kind_eq⟩
  simp [Grammar.constructs, hparts, (arePlain_word hstars).filter_named,
    (arePlain_word hwords).filter_named, hname.named_eq]

theorem yields_the {name : String} (hk : name ∈ importKinds) :
    d.grammar.Yields (d.grammar.IsConstruct name) (the name) := by
  intro ns hns
  obtain ⟨m, rfl, -, hm⟩ := (derives_the hk).mp hns
  exact List.forall_mem_singleton.mpr fun _ => hm

theorem constructs_namedImports (h : d.grammar.IsConstruct "named_imports" n) :
    ∀ m ∈ d.grammar.constructs n, d.grammar.IsConstruct "import_specifier" m :=
  h.forall_constructs (lookup_namedImports d) <| (Grammar.Yields.word _).seq <|
    (yields_the (by decide)).listed.optional.seq <| (Grammar.Yields.word _).optional.seq <| .word _

/-- The parts of an import clause. -/
theorem constructs_importClause (h : d.grammar.IsConstruct "import_clause" n) :
    ∀ m ∈ d.grammar.constructs n, m.kind = "identifier" ∨
      d.grammar.IsConstruct "namespace_import" m ∨ d.grammar.IsConstruct "named_imports" m := by
  let P (m : Node) : Prop := m.kind = "identifier" ∨
    d.grammar.IsConstruct "namespace_import" m ∨ d.grammar.IsConstruct "named_imports" m
  have hname : d.grammar.Yields P (the "_import_identifier") := by
    intro ns hns
    obtain ⟨m, rfl, hk, -, -⟩ := derives_importIdentifier hns
    exact List.forall_mem_singleton.mpr fun _ => .inl hk
  have hall : d.grammar.Yields P (the "namespace_import") := fun ns hns m hm hnamed =>
    .inr (.inl (yields_the (by decide) ns hns m hm hnamed))
  have heach : d.grammar.Yields P (the "named_imports") := fun ns hns m hm hnamed =>
    .inr (.inr (yields_the (by decide) ns hns m hm hnamed))
  exact h.forall_constructs (lookup_importClause d) <| hall.choice <| heach.choice <|
    hname.seq ((Grammar.Yields.word _).seq (hall.choice heach)).optional

theorem arePlain_semicolon (h : d.grammar.Derives (the "_semicolon") none none ns) :
    ArePlain ns := by
  have hi : "_semicolon" ∈ d.grammar.inlined ∧ "_semicolon" ∉ d.grammar.layout := by
    cases d <;> decide
  have hauto : d.grammar.rules.lookup "_automatic_semicolon" = none ∧
      d.grammar.shown? "_automatic_semicolon" = none := by
    cases d <;> decide +kernel
  cases h with
  | layout h => exact absurd h hi.2
  | construct h => exact absurd hi.1 h
  | inlined _ hr h =>
      cases hr.symm.trans (lookup_semicolon d)
      rcases Grammar.derives_choice.mp h with h | h
      · cases h with
        | construct _ hr => cases hauto.1.symm.trans hr
        | inlined _ hr => cases hauto.1.symm.trans hr
        | layout _ h =>
            rw [Option.none_or, hauto.2] at h
            cases h
            exact List.forall_mem_nil _
      · exact arePlain_word h

/-- What an import statement consists of. -/
theorem constructs_importStatement (h : d.grammar.IsConstruct "import_statement" n) :
    ∃ rest, (∀ a ∈ rest, a.kind = "import_attribute") ∧
      ((∃ source, d.grammar.constructs n = source :: rest ∧ source.field = some "source" ∧
          d.grammar.IsConstruct "string" source) ∨
        (∃ clause source, d.grammar.constructs n = clause :: source :: rest ∧
          source.field = some "source" ∧ d.grammar.IsConstruct "import_clause" clause ∧
          d.grammar.IsConstruct "string" source) ∨
        ∃ clause, d.grammar.constructs n = clause :: rest ∧
          d.grammar.IsConstruct "import_require_clause" clause) := by
  obtain ⟨words, _, hwords, hafterWord, hparts⟩ :=
    Grammar.derives_seq.mp (h.derives_rule (lookup_importStatement d))
  obtain ⟨modifiers, _, hmodifiers, hafterModifier, rfl⟩ := Grammar.derives_seq.mp hafterWord
  obtain ⟨xs, _, hxs, hafterSource, rfl⟩ := Grammar.derives_seq.mp hafterModifier
  obtain ⟨attributes, semicolons, hattributes, hsemicolons, rfl⟩ :=
    Grammar.derives_seq.mp hafterSource
  have hconstructs : d.grammar.constructs n =
      xs.filter (·.named) ++ attributes.filter (·.named) := by
    simp only [Grammar.constructs, hparts, List.filter_append, (arePlain_word hwords).filter_named,
      (arePlain_modifier hmodifiers).filter_named, (arePlain_semicolon hsemicolons).filter_named,
      List.nil_append, List.append_nil]
  refine ⟨attributes.filter (·.named), ?_, ?_⟩
  · intro a ha
    rcases Grammar.derives_optional.mp hattributes with h | rfl
    · obtain ⟨m, rfl, -, hm⟩ := (derives_the (by decide)).mp h
      rw [List.mem_singleton.mp (List.mem_of_mem_filter ha), hm.kind_eq]
    · cases ha
  · rw [hconstructs]
    rcases Grammar.derives_choice.mp hxs with h | h
    · obtain ⟨clauses, froms, hclauses, hfroms, rfl⟩ := Grammar.derives_seq.mp h
      obtain ⟨clause, rfl, -, hclause⟩ := (derives_the (by decide)).mp hclauses
      obtain ⟨body, hbody, hpresents⟩ := (derives_hidden (by decide) (lookup_fromClause d)).mp hfroms
      cases hpresents
      obtain ⟨words, sources, hwords, hsources, rfl⟩ := Grammar.derives_seq.mp hbody
      obtain ⟨source, rfl, hfield, hsource⟩ :=
        (derives_the (by decide)).mp (Grammar.derives_field.mp hsources)
      refine .inr (.inl ⟨clause, source, ?_, hfield, hclause, hsource⟩)
      simp [(arePlain_word hwords).filter_named, hclause.named_eq, hsource.named_eq]
    rcases Grammar.derives_choice.mp h with h | h
    · obtain ⟨clause, rfl, -, hclause⟩ := (derives_the (by decide)).mp h
      refine .inr (.inr ⟨clause, ?_, hclause⟩)
      simp [hclause.named_eq]
    · obtain ⟨source, rfl, hfield, hsource⟩ :=
        (derives_the (by decide)).mp (Grammar.derives_field.mp h)
      refine .inl ⟨source, ?_, hfield, hsource⟩
      simp [hsource.named_eq]

/-- What a clause that requires a module consists of. -/
theorem constructs_importRequireClause (h : d.grammar.IsConstruct "import_require_clause" n) :
    ∃ name source, d.grammar.constructs n = [name, source] ∧ source.kind = "string" := by
  obtain ⟨names, _, hnames, hafterName, hparts⟩ :=
    Grammar.derives_seq.mp (h.derives_rule (lookup_importRequireClause d))
  obtain ⟨equals, _, hequals, hafterEqual, rfl⟩ := Grammar.derives_seq.mp hafterName
  obtain ⟨words, _, hwords, hafterWord, rfl⟩ := Grammar.derives_seq.mp hafterEqual
  obtain ⟨opens, _, hopens, hafterOpen, rfl⟩ := Grammar.derives_seq.mp hafterWord
  obtain ⟨sources, closes, hsources, hcloses, rfl⟩ := Grammar.derives_seq.mp hafterOpen
  obtain ⟨name, rfl, -, hname⟩ := (derives_the (by decide)).mp hnames
  obtain ⟨source, rfl, -, hsource⟩ :=
        (derives_the (by decide)).mp (Grammar.derives_field.mp hsources)
  refine ⟨name, source, ?_, hsource.kind_eq⟩
  simp [Grammar.constructs, hparts, (arePlain_word hequals).filter_named,
    (arePlain_word hwords).filter_named, (arePlain_word hopens).filter_named,
    (arePlain_word hcloses).filter_named, hname.named_eq, hsource.named_eq]

end TypeScript.Dialect
end CodeSurvey
