import CodeSurvey.Proofs.Exports
import CodeSurvey.Proofs.Sites

/-! # Which declarations count as exported

The flag of a declaration depends on its name alone (`FileRecord.byName_ofTree`).  Which names are
exported is said here about the tree itself: `Tree.Exports` asks for a statement anywhere in the
tree that exports a declaration of its own (`Node.ExportsOwn`) which binds the name
(`Tree.Binds`), and for nothing else.  So `Exported.names` holds these names (`mem_names`), and
`FileRecord.isExported_iff` says the same of the flags of all records.

Other export statements are silent (`Node.IsSilentExport`): default exports, lists of names,
`export *`, interfaces and type aliases, and variables that are bound by patterns only.  Since
`Tree.Exports` asks neither where statements stand nor in which order they come, silent ones may
be added, moved or taken away, and others moved, without a change. -/

namespace CodeSurvey

/-- Whether a statement exports a declaration of its own, other than as the default. -/
structure Node.ExportsOwn (statement declaration : Node) : Prop where
  kind_eq : statement.kind = "export_statement"
  notDefault : ∀ c ∈ statement.children, c.named = false → c.kind ≠ "default"
  mem : declaration ∈ statement.namedChildren
  field_eq : declaration.field = some "declaration"

/-- Whether a declaration is one of a function or a class. -/
def Node.IsNamedDeclaration (d : Node) : Prop :=
  d.kind = "function_declaration" ∨ d.kind = "generator_function_declaration" ∨
    d.kind = "class_declaration" ∨ d.kind = "abstract_class_declaration"

/-- Whether a declaration is one of variables. -/
def Node.IsVariableDeclaration (d : Node) : Prop :=
  d.kind = "lexical_declaration" ∨ d.kind = "variable_declaration"

/-- Whether a node declares one of the variables of a declaration, with `pattern` as its name. -/
structure Node.DeclaresVariable (declaration declarator pattern : Node) : Prop where
  mem : declarator ∈ declaration.namedChildren
  kind_eq : declarator.kind = "variable_declarator"
  name : declarator.part? "name" = some pattern

/-- Whether a declaration binds a name: it is that of a function or class of this name, or of
variables one of which has the name for a plain identifier. -/
inductive Tree.Binds (t : Tree) (d : Node) (name : String) : Prop
  | ofNamed {n : Node} (hd : d.IsNamedDeclaration) (hn : d.part? "name" = some n)
      (ht : t.text n = name) : Binds t d name
  | ofVariable {v n : Node} (hd : d.IsVariableDeclaration) (hv : d.DeclaresVariable v n)
      (hn : n.kind = "identifier") (ht : t.text n = name) : Binds t d name

/-- Whether a statement that stands somewhere in a tree exports a name. -/
def Tree.Exports (t : Tree) (name : String) : Prop :=
  ∃ s, t.root.Contains s ∧ ∃ d, s.ExportsOwn d ∧ t.Binds d name

/-- The forms of export statements that export no name. -/
inductive Node.IsSilentExport (s : Node) : Prop
  | ofDefault {c : Node} (hc : c ∈ s.children) (hn : c.named = false) (hk : c.kind = "default") :
      IsSilentExport s
  /-- A list of names, or everything of another module. -/
  | ofNone (h : ∀ d ∈ s.namedChildren, d.field ≠ some "declaration") : IsSilentExport s
  /-- An interface, a type alias, and all that is neither a function or class nor a variable. -/
  | ofOther (h : ∀ d ∈ s.namedChildren, d.field = some "declaration" →
      ¬ d.IsNamedDeclaration ∧ ¬ d.IsVariableDeclaration) : IsSilentExport s
  | ofPatterns (h : ∀ d ∈ s.namedChildren, d.field = some "declaration" →
      d.IsVariableDeclaration ∧ ∀ v n, d.DeclaresVariable v n → n.kind ≠ "identifier") :
      IsSilentExport s

variable {t u : Tree} {s d : Node} {name : String}

/-! ### Exported names -/

namespace Exported

theorem mem_namedKinds : d.kind ∈ namedKinds ↔ d.IsNamedDeclaration := by
  simp only [namedKinds, Node.IsNamedDeclaration, List.mem_cons, List.not_mem_nil, or_false]

theorem mem_variableKinds : d.kind ∈ variableKinds ↔ d.IsVariableDeclaration := by
  simp only [variableKinds, Node.IsVariableDeclaration, List.mem_cons, List.not_mem_nil, or_false]

theorem not_isNamedDeclaration (h : d.IsVariableDeclaration) : ¬ d.IsNamedDeclaration := by
  rcases h with h | h <;> simp [Node.IsNamedDeclaration, h]

theorem mem_declarationsOf : d ∈ declarationsOf s ↔ s.ExportsOwn d := by
  have hdefault : (!s.hasWord "default") = true ↔
      ∀ c ∈ s.children, c.named = false → c.kind ≠ "default" := by
    simp [Node.hasWord]
  unfold declarationsOf
  split
  next h =>
      rw [hdefault] at h
      rw [List.mem_filter, beq_iff_eq]
      exact ⟨fun hd => ⟨h.1, h.2, hd.1, hd.2⟩, fun hd => ⟨hd.mem, hd.field_eq⟩⟩
  next h =>
      rw [hdefault] at h
      simp only [List.not_mem_nil, false_iff]
      exact fun hd => h ⟨hd.kind_eq, hd.notDefault⟩

theorem mem_namesOf : name ∈ namesOf t d ↔ t.Binds d name := by
  unfold namesOf
  split
  next hd =>
      rw [mem_namedKinds] at hd
      simp only [Option.mem_toList, Option.map_eq_some_iff]
      constructor
      · rintro ⟨n, hn, ht⟩
        exact .ofNamed hd hn ht
      · intro h
        cases h with
        | ofNamed _ hn ht => exact ⟨_, hn, ht⟩
        | ofVariable hv => exact absurd hd (not_isNamedDeclaration hv)
  next hd =>
      rw [mem_namedKinds] at hd
      split
      next hv =>
          rw [mem_variableKinds] at hv
          simp only [List.mem_filterMap, List.mem_filter, beq_iff_eq, Option.map_eq_some_iff,
            Option.filter_eq_some_iff]
          constructor
          · rintro ⟨v, ⟨hmem, hk⟩, n, ⟨hn, hi⟩, ht⟩
            exact .ofVariable hv ⟨hmem, hk, hn⟩ hi ht
          · intro h
            cases h with
            | ofNamed hn => exact absurd hn hd
            | ofVariable _ hv hi ht => exact ⟨_, ⟨hv.mem, hv.kind_eq⟩, _, ⟨hv.name, hi⟩, ht⟩
      next hv =>
          rw [mem_variableKinds] at hv
          simp only [List.not_mem_nil, false_iff]
          intro h
          cases h with
          | ofNamed hn => exact hd hn
          | ofVariable hn => exact hv hn

theorem mem_names : name ∈ names t ↔ t.Exports name := by
  simp only [names, List.mem_flatMap, mem_namesOf, mem_declarationsOf, Node.mem_descendants]
  constructor
  · rintro ⟨d, ⟨s, hs, hd⟩, hb⟩
    exact ⟨s, hs, d, hd, hb⟩
  · rintro ⟨s, hs, d, hd, hb⟩
    exact ⟨d, ⟨s, hs, hd⟩, hb⟩

end Exported

/-! ### Silent exports -/

theorem Tree.Binds.of_source_eq (h : u.source = t.source) (hb : t.Binds d name) :
    u.Binds d name := by
  have htext : ∀ n, u.text n = t.text n := by
    intro n
    rw [Tree.text, Tree.text, h]
  cases hb with
  | ofNamed hd hn ht => exact .ofNamed hd hn ((htext _).trans ht)
  | ofVariable hd hv hn ht => exact .ofVariable hd hv hn ((htext _).trans ht)

/-- A silent export exports no name. -/
theorem Node.IsSilentExport.not_binds (hs : s.IsSilentExport) (hd : s.ExportsOwn d) :
    ¬ t.Binds d name := by
  intro hb
  cases hs with
  | ofDefault hc hn hk => exact hd.notDefault _ hc hn hk
  | ofNone h => exact h d hd.mem hd.field_eq
  | ofOther h =>
      have hno := h d hd.mem hd.field_eq
      cases hb with
      | ofNamed hk => exact hno.1 hk
      | ofVariable hk => exact hno.2 hk
  | ofPatterns h =>
      have hno := h d hd.mem hd.field_eq
      cases hb with
      | ofNamed hk => exact Exported.not_isNamedDeclaration hno.1 hk
      | ofVariable _ hv hn => exact hno.2 _ _ hv hn

/-- If every export of a tree that is not silent stands in another tree of the same source, too,
that exports all names that the tree does. -/
theorem Tree.Exports.of_contains (hsource : u.source = t.source)
    (h : ∀ s : Node, s.kind = "export_statement" → ¬ s.IsSilentExport → t.root.Contains s →
      u.root.Contains s) (hn : t.Exports name) : u.Exports name := by
  obtain ⟨s, hs, d, hd, hb⟩ := hn
  have hloud : ¬ s.IsSilentExport := fun hsilent => hsilent.not_binds hd hb
  exact ⟨s, h s hd.kind_eq hloud hs, d, hd, hb.of_source_eq hsource⟩

/-! ### Flags -/

namespace FileRecord

theorem alias_ofDeclaration? {names : List String} {n : Node} {x : AliasRecord}
    (h : AliasRecord.ofDeclaration? t names n = some x) : x.isExported = names.contains x.name := by
  unfold AliasRecord.ofDeclaration? at h
  split at h
  · obtain ⟨k, -, rfl⟩ := Option.map_eq_some_iff.mp h
    rfl
  · cases h

theorem isExported_of_mem_aliases {path relativePath : String} {x : AliasRecord}
    (h : x ∈ (ofTree path relativePath t).aliases) :
    x.isExported = (Exported.names t).contains x.name := by
  unfold ofTree at h
  obtain ⟨s, -, hs⟩ := List.mem_filterMap.mp h
  exact alias_ofDeclaration? hs

/-- A declaration counts as exported exactly if a statement anywhere in the tree exports its name,
by declaring a function or class of this name or a variable that has it for a plain identifier.
Exports of other forms make no difference, and neither do the places and the order of statements:
two trees in which the same other exports stand somewhere export the same names. -/
theorem isExported_iff (path relativePath : String) (t : Tree) :
    let f := ofTree path relativePath t
    (∀ x ∈ f.functions, x.isExported = true ↔ t.Exports x.name) ∧
    (∀ x ∈ f.classes, x.isExported = true ↔ t.Exports x.name) ∧
    (∀ x ∈ f.interfaces, x.isExported = true ↔ t.Exports x.name) ∧
    (∀ x ∈ f.aliases, x.isExported = true ↔ t.Exports x.name) ∧
    ∀ u : Tree, u.source = t.source →
      (∀ s : Node, s.kind = "export_statement" → ¬ s.IsSilentExport →
        (t.root.Contains s ↔ u.root.Contains s)) →
      ∀ name, t.Exports name ↔ u.Exports name := by
  have hnames : ∀ name, (Exported.names t).contains name = true ↔ t.Exports name := by
    intro name
    rw [List.contains_iff_mem, Exported.mem_names]
  have hf := byName_ofTree path relativePath t
  refine ⟨fun x hx => ?_, fun x hx => ?_, fun x hx => ?_, fun x hx => ?_, fun u hu h name => ?_⟩
  · rw [hf.functions x hx, hnames]
  · rw [hf.classes x hx, hnames]
  · rw [hf.interfaces x hx, hnames]
  · rw [isExported_of_mem_aliases hx, hnames]
  · constructor
    · exact Tree.Exports.of_contains hu fun s hk hs => (h s hk hs).mp
    · exact Tree.Exports.of_contains hu.symm fun s hk hs => (h s hk hs).mpr

/-- `class f {}`, the first statement of a source. -/
def plainClass : Node :=
  Node.onLine "class_declaration" none 0 10 [Node.onLine "type_identifier" (some "name") 6 7 []]

/-- `export default class g {}`, the second statement. -/
def defaultClass : Node :=
  Node.onLine "export_statement" none 11 36 [Node.wordOnLine "export" 11 17,
    Node.wordOnLine "default" 18 25,
    Node.onLine "class_declaration" (some "declaration") 26 36
      [Node.onLine "type_identifier" (some "name") 32 33 []]]

/-- `export var f;`, the third statement. -/
def exportedVariable : Node :=
  Node.onLine "export_statement" none 37 50 [Node.wordOnLine "export" 37 43,
    Node.onLine "variable_declaration" (some "declaration") 44 50
      [Node.onLine "variable_declarator" none 48 49
        [Node.onLine "identifier" (some "name") 48 49 []]]]

/-- A tree of some of these statements. -/
def statementTree (statements : List Node) : Tree where
  source := .ofBytes "class f {} export default class g {} export var f;".toUTF8
  root := Node.onLine "program" none 0 50 statements

/-- The class is exported by the variable after it that shares its name, the default is not, and
neither leaving that out nor putting the variable first makes a difference. -/
theorem isExported_iff_statementTree :
    (ofTree "" "" (statementTree [plainClass, defaultClass, exportedVariable])).classes.map
      (fun c => (c.name, c.isExported)) = [("f", true), ("g", false)] ∧
    (statementTree [plainClass, defaultClass, exportedVariable]).Exports "f" ∧
    ¬ (statementTree [plainClass, defaultClass, exportedVariable]).Exports "g" ∧
    (statementTree [exportedVariable, plainClass]).Exports "f" := by
  have hc : (ofTree "" "" (statementTree [plainClass, defaultClass, exportedVariable])).classes.map
      (fun c => (c.name, c.isExported)) = [("f", true), ("g", false)] := by decide +kernel
  obtain ⟨-, hflag, -, -, hsame⟩ :=
    isExported_iff "" "" (statementTree [plainClass, defaultClass, exportedVariable])
  have hmem : ∀ name flag, (name, flag) ∈ [("f", true), ("g", false)] →
      (flag = true ↔
        (statementTree [plainClass, defaultClass, exportedVariable]).Exports name) := by
    intro name flag h
    rw [← hc] at h
    obtain ⟨c, hmem, he⟩ := List.mem_map.mp h
    obtain ⟨rfl, rfl⟩ := Prod.mk.inj he
    exact hflag c hmem
  have hf := (hmem "f" true (by simp)).mp rfl
  refine ⟨hc, hf, fun hg => ?_, ?_⟩
  · exact absurd ((hmem "g" false (by simp)).mpr hg) Bool.false_ne_true
  · refine (hsame (statementTree [exportedVariable, plainClass]) rfl ?_ "f").mp hf
    intro s hk hs
    have hdefault : s ≠ defaultClass := by
      rintro rfl
      have hword : Node.wordOnLine "default" 18 25 ∈ defaultClass.children := by
        simp [defaultClass, Node.onLine]
      exact hs (.ofDefault hword rfl rfl)
    have hkind : ∀ n : Node, n.kind ≠ "export_statement" → s ≠ n := by
      rintro n hn rfl
      exact hn hk
    simp only [← Node.mem_descendants, Node.descendants, Node.sites, Node.sitesAt, Node.sitesAmong,
      statementTree, plainClass, exportedVariable, Node.onLine, Node.wordOnLine,
      defaultClass] at hdefault ⊢
    simp [Site.node, hdefault, hkind]

end FileRecord

end CodeSurvey
