import CodeSurvey.Proofs.ImportForms

/-! # What parameter lists consist of

Which nodes a rule can show is seen from its text, if hidden constructs are followed.
`Grammar.within` checks it against some limits, and what the rule derives keeps to these
(`derives_within`).

So the node that plays a part is found by following the rule to where it is named, past what shows
no node with this part (`Finds`).  Every function and method has a list of parameters
(`exists_parameters`), whose constructs are required and optional parameters
(`constructs_formalParameters`); and the latter are those that are marked (`hasWord_mark`). -/

namespace CodeSurvey
namespace Grammar

/-! ### What a rule can show -/

/-- Limits to what a rule shows: the kinds of nodes, the parts that they play, and the hidden
constructs that it may consist of. -/
structure Limits where
  kind : Rename → Bool
  part : Option String → Bool
  hidden : List String

variable {g : Grammar} {l : Limits} {name part : String} {r a b : Rule} {rename : Option Rename}
  {field : Option String} {ns body : List Node} {n : Node}

/-- Whether a node is within the limits. -/
structure Limits.Holds (l : Limits) (n : Node) : Prop where
  kind : l.kind ⟨n.kind, n.named⟩ = true
  part : l.part n.field = true

/-- Whether a rule keeps to the limits, where the marks around the rule say how its nodes show. -/
def within (g : Grammar) (l : Limits) : Rule → Option Rename → Option String → Bool
  | .blank, _, _ | .lexeme _, _, _ => true
  | .word text, rename, field => l.part field && l.kind (rename.getD ⟨text, false⟩)
  | .ref name, rename, field =>
    l.part field && (rename.or (g.shown? name)).all l.kind &&
      (l.hidden.contains name || !g.inlined.contains name && (rename.or (g.shown? name)).isSome)
  | .seq a b, rename, field | .choice a b, rename, field =>
    g.within l a rename field && g.within l b rename field
  | .repeated r, rename, field =>
    l.part field && rename.all l.kind && (rename.isSome || g.within l r none none)
  | .field name r, rename, _ => g.within l r rename (some name)
  | .rename shown r, _, field => g.within l r (some shown) field
  | .ranked _ _ r, rename, field | .weighted _ r, rename, field => g.within l r rename field

/-- Whether the hidden constructs keep to the limits too. -/
def closed (g : Grammar) (l : Limits) : Bool :=
  l.part none && l.hidden.all fun name => (g.rules.lookup name).all fun r => g.within l r none none

theorem within_of_closed (hl : g.closed l) (hn : name ∈ l.hidden)
    (hr : g.rules.lookup name = some r) : g.within l r none none := by
  rw [closed, Bool.and_eq_true, List.all_eq_true] at hl
  have h := hl.2 name hn
  rwa [hr] at h

theorem part_none_of_closed (hl : g.closed l) : l.part none := by
  rw [closed, Bool.and_eq_true] at hl
  exact hl.1

theorem within_repeated :
    g.within l (.repeated r) none none ↔ l.part none ∧ g.within l r none none := by
  simp [within]

section strip

variable {renames fields : Bool} {rename' : Option Rename} {field' : Option String}

theorem part_of_strip (hfield : (fields = true ∧ l.part field') ∨ fields = false ∧ field' = field)
    (h : l.part field) : l.part field' := by
  rcases hfield with ⟨-, hpart⟩ | ⟨-, rfl⟩
  · exact hpart
  · exact h

/-- Marks that come before those in a rule may be any within the limits. -/
theorem within_strip (hrename : (renames = true ∧ ∃ s, rename' = some s ∧ l.kind s) ∨
      renames = false ∧ rename' = rename)
    (hfield : (fields = true ∧ l.part field') ∨ fields = false ∧ field' = field)
    (hl : l.part none) (h : g.within l r rename field) :
    g.within l (r.strip renames fields) rename' field' := by
  induction r generalizing rename field rename' field' with
  | blank | lexeme => rfl
  | word text =>
      rw [within, Bool.and_eq_true] at h
      change g.within l (.word text) rename' field' = true
      rw [within, Bool.and_eq_true]
      refine ⟨part_of_strip hfield h.1, ?_⟩
      rcases hrename with ⟨-, s, rfl, hs⟩ | ⟨-, rfl⟩
      · exact hs
      · exact h.2
  | ref name =>
      rw [within, Bool.and_eq_true, Bool.and_eq_true] at h
      change g.within l (.ref name) rename' field' = true
      rw [within, Bool.and_eq_true, Bool.and_eq_true]
      refine ⟨⟨part_of_strip hfield h.1.1, ?_⟩, ?_⟩
      · rcases hrename with ⟨-, s, rfl, hs⟩ | ⟨-, rfl⟩
        · exact hs
        · exact h.1.2
      · rcases hrename with ⟨-, s, rfl, hs⟩ | ⟨-, rfl⟩
        · have hname : name ∈ l.hidden ∨ name ∉ g.inlined ∧ (rename.or (g.shown? name)).isSome := by
            simpa using h.2
          simpa using hname.imp_right And.left
        · exact h.2
  | seq a b iha ihb | choice a b iha ihb =>
      rw [within, Bool.and_eq_true] at h
      rw [Rule.strip, within, Bool.and_eq_true]
      exact ⟨iha hrename hfield h.1, ihb hrename hfield h.2⟩
  | repeated r ih =>
      rw [within, Bool.and_eq_true, Bool.and_eq_true, Bool.or_eq_true] at h
      rw [Rule.strip, within, Bool.and_eq_true, Bool.and_eq_true, Bool.or_eq_true]
      rcases hrename with ⟨-, s, rfl, hs⟩ | ⟨rfl, rfl⟩
      · exact ⟨⟨part_of_strip hfield h.1.1, hs⟩, .inl rfl⟩
      · refine ⟨⟨part_of_strip hfield h.1.1, h.1.2⟩, h.2.imp_right fun h => ?_⟩
        exact ih (.inr ⟨rfl, rfl⟩) (hfield.imp (fun e => ⟨e.1, hl⟩) fun e => ⟨e.1, rfl⟩) h
  | field name r ih =>
      rw [Rule.strip]
      rcases hfield with ⟨rfl, hf⟩ | ⟨rfl, rfl⟩
      · exact ih hrename (.inl ⟨rfl, hf⟩) h
      · exact ih hrename (.inr ⟨rfl, rfl⟩) h
  | rename shown r ih =>
      rw [Rule.strip]
      rcases hrename with ⟨rfl, hs⟩ | ⟨rfl, rfl⟩
      · exact ih (.inl ⟨rfl, hs⟩) hfield h
      · exact ih (.inr ⟨rfl, rfl⟩) hfield h
  | ranked _ _ r ih | weighted _ r ih => exact ih hrename hfield h

end strip

theorem holds_presents {shown : Option Rename} (hbody : shown = none → ∀ c ∈ body, l.Holds c)
    (hshown : shown.all l.kind) (hfield : l.part field) (h : g.Presents shown field body ns) :
    ∀ n ∈ ns, l.Holds n := by
  cases h with
  | shown h =>
      rw [List.forall_mem_singleton]
      refine ⟨?_, by rw [h.field_eq]; exact hfield⟩
      rw [h.kind_eq, h.named_eq]
      simpa using hshown
  | hidden => exact hbody rfl
  | part f =>
      have hbody := hbody rfl
      cases body with
      | nil => exact hbody
      | cons c cs =>
          rw [List.forall_mem_cons] at hbody
          rw [Subtree.givePart, List.forall_mem_cons]
          exact ⟨⟨hbody.1.kind, hfield⟩, hbody.2⟩

/-- What a rule derives keeps to limits to which the rule keeps. -/
theorem derives_within (hl : g.closed l) (h : g.Derives r rename field ns)
    (hr : g.within l r rename field) : ∀ n ∈ ns, l.Holds n := by
  induction h with
  | blank | lexeme =>
      intro n hn
      cases hn
  | @word text rename field ns h =>
      rw [within, Bool.and_eq_true] at hr
      refine holds_presents (fun _ => List.forall_mem_nil _) ?_ hr.1 h
      exact hr.2
  | layout hlayout h =>
      rw [within, Bool.and_eq_true, Bool.and_eq_true] at hr
      exact holds_presents (fun _ => List.forall_mem_nil _) hr.1.2 hr.1.1 h
  | @construct name r rename field body ns hi hlookup hbody h ih =>
      rw [within, Bool.and_eq_true, Bool.and_eq_true, Bool.or_eq_true] at hr
      refine holds_presents (fun hnone => ih (within_of_closed hl ?_ hlookup)) hr.1.2 hr.1.1 h
      rcases hr.2 with hhidden | hshown
      · exact List.contains_iff_mem.mp hhidden
      · simp [hnone] at hshown
  | @inlined name r rename field ns hi hlookup h ih =>
      rw [within, Bool.and_eq_true, Bool.and_eq_true, Bool.or_eq_true] at hr
      have hhidden : name ∈ l.hidden := by
        rcases hr.2 with hhidden | hshown
        · exact List.contains_iff_mem.mp hhidden
        · simp [hi] at hshown
      refine ih (within_strip ?_ ?_ (part_none_of_closed hl) (within_of_closed hl hhidden hlookup))
      · cases rename with
        | none => exact .inr ⟨rfl, rfl⟩
        | some s => exact .inl ⟨rfl, s, rfl, by simpa using hr.1.2⟩
      · cases field with
        | none => exact .inr ⟨rfl, rfl⟩
        | some f => exact .inl ⟨rfl, hr.1.1⟩
  | seq _ _ iha ihb =>
      rw [within, Bool.and_eq_true] at hr
      exact List.forall_mem_append.mpr ⟨iha hr.1, ihb hr.2⟩
  | left _ ih =>
      rw [within, Bool.and_eq_true] at hr
      exact ih hr.1
  | right _ ih =>
      rw [within, Bool.and_eq_true] at hr
      exact ih hr.2
  | once _ ih => exact ih (within_repeated.mp hr).2
  | more _ _ ihx ihy =>
      exact List.forall_mem_append.mpr ⟨ihx (within_repeated.mp hr).2, ihy hr⟩
  | @repetition r rename field body ns _ h ih =>
      rw [within, Bool.and_eq_true, Bool.and_eq_true, Bool.or_eq_true] at hr
      refine holds_presents (fun hnone => ih ?_) hr.1.2 hr.1.1 h
      exact within_repeated.mpr ⟨part_none_of_closed hl, hr.2.resolve_left (by simp [hnone])⟩
  | field _ ih => exact ih hr
  | rename _ ih => exact ih hr
  | ranked _ ih => exact ih hr
  | weighted _ ih => exact ih hr

/-! ### The node that plays a part -/

theorem derives_ranked {rank : Rank} {side : Option Side} :
    g.Derives (.ranked rank side r) rename field ns ↔ g.Derives r rename field ns := by
  constructor
  · rintro ⟨⟩
    assumption
  · exact .ranked

/-- Whether a node plays a part in whatever a rule derives, and the first of them has some
property. -/
def Finds (g : Grammar) (part : String) (P : Node → Prop) (r : Rule) : Prop :=
  ∀ ns, g.Derives r none none ns → ∃ m, ns.find? (·.field == some part) = some m ∧ P m

namespace Finds

variable {P : Node → Prop}

theorem seq (h : g.Finds part P a) (b : Rule) : g.Finds part P (.seq a b) := by
  intro ns hns
  obtain ⟨xs, ys, hxs, -, rfl⟩ := derives_seq.mp hns
  obtain ⟨m, hm, hP⟩ := h xs hxs
  exact ⟨m, by rw [List.find?_append, hm, Option.some_or], hP⟩

/-- What plays other parts only is passed over. -/
theorem after (hl : g.closed l) (hpart : l.part (some part) = false) (ha : g.within l a none none)
    (h : g.Finds part P b) : g.Finds part P (.seq a b) := by
  intro ns hns
  obtain ⟨xs, ys, hxs, hys, rfl⟩ := derives_seq.mp hns
  obtain ⟨m, hm, hP⟩ := h ys hys
  have hnone : xs.find? (·.field == some part) = none := by
    refine List.find?_eq_none.mpr fun n hn heq => ?_
    have hholds := (derives_within hl hxs ha n hn).part
    rw [beq_iff_eq.mp heq, hpart] at hholds
    cases hholds
  exact ⟨m, by rw [List.find?_append, hnone, Option.none_or, hm], hP⟩

/-- In a chain the part is found where it is named, if nothing before can play it. -/
theorem chain (hl : g.closed l) (hpart : l.part (some part) = false) {before : List Rule}
    (hbefore : ∀ b ∈ before, g.within l b none none) (h : g.Finds part P r) (after : List Rule) :
    g.Finds part P (.chain (before ++ r :: after)) := by
  induction before with
  | nil =>
      cases after with
      | nil => exact h
      | cons b after => exact h.seq _
  | cons b before ih =>
      rw [List.forall_mem_cons] at hbefore
      have hchain : Rule.chain (b :: before ++ r :: after) =
          .seq b (.chain (before ++ r :: after)) := by
        cases before <;> rfl
      rw [hchain]
      exact (ih hbefore.2).after hl hpart hbefore.1

theorem ranked {rank : Rank} {side : Option Side} (h : g.Finds part P r) :
    g.Finds part P (.ranked rank side r) := fun ns hns => h ns (derives_ranked.mp hns)

/-- A hidden construct gives place to what it consists of. -/
theorem hidden (hi : name ∉ g.inlined) (hl : name ∉ g.layout) (hs : g.shown? name = none)
    (hr : g.rules.lookup name = some r) (h : g.Finds part P r) : g.Finds part P (.ref name) := by
  intro ns hns
  obtain ⟨body, hbody, hpresents⟩ := (derives_hidden hi hl hs hr).mp hns
  cases hpresents
  exact h _ hbody

theorem here (hi : name ∉ g.inlined) (hl : name ∉ g.layout)
    (hs : g.shown? name = some ⟨name, true⟩) :
    g.Finds part (g.IsConstruct name) (.field part (.ref name)) := by
  intro ns hns
  obtain ⟨m, rfl, hfield, hm⟩ := (derives_ref hi hl hs).mp (derives_field.mp hns)
  exact ⟨m, by rw [List.find?_singleton, if_pos (by simp [hfield])], hm⟩

end Finds

theorem IsConstruct.exists_part? {P : Node → Prop} (h : g.IsConstruct name n)
    (hr : g.rules.lookup name = some r) (hf : g.Finds part P r) :
    ∃ m, n.part? part = some m ∧ P m := by
  obtain ⟨m, hm, hP⟩ := hf _ (h.derives_rule hr)
  exact ⟨m, by rw [part?_eq h.loose, hm], hP⟩

/-- What a hidden construct shows are the named nodes that it consists of. -/
theorem Yields.hidden {P : Node → Prop} (hi : name ∉ g.inlined) (hl : name ∉ g.layout)
    (hs : g.shown? name = none) (hr : g.rules.lookup name = some r) (h : g.Yields P r) :
    g.Yields P (.ref name) := by
  intro ns hns
  obtain ⟨body, hbody, hpresents⟩ := (derives_hidden hi hl hs hr).mp hns
  cases hpresents
  exact h _ hbody

/-- A word is found among what a node consists of, for extras are no words. -/
theorem hasWord_iff {word : String} (h : word ∉ g.extras) :
    n.hasWord word = true ↔ ∃ c ∈ g.parts n, c.named = false ∧ c.kind = word := by
  rw [Node.hasWord, List.any_eq_true]
  refine exists_congr fun c => ?_
  rw [parts, List.mem_filter, Bool.and_eq_true, beq_iff_eq, Bool.not_eq_true', and_assoc]
  refine and_congr_right fun _ => ⟨fun hc => ⟨?_, hc⟩, fun hc => hc.2⟩
  simpa [hc.2] using h

end Grammar

/-! ### The rules for parameters -/

open TypeScript Rule

namespace TypeScript.Dialect

variable {d : Dialect} {n : Node} {ns : List Node}

/-- Functions and methods. -/
def callableKinds : List String :=
  ["function_declaration", "generator_function_declaration", "method_definition"]

theorem isProper_callable {kind : String} (hk : kind ∈ callableKinds) :
    d.grammar.IsProper kind := by
  have hproper : ∀ kind ∈ callableKinds, kind ∉ d.grammar.extras ∧ kind ∉ d.grammar.layout ∧
      ∀ entry ∈ d.grammar.rules, kind ∉ entry.2.renamedKinds := by
    cases d <;> decide +kernel
  exact ⟨(hproper kind hk).1, (hproper kind hk).2.1, (hproper kind hk).2.2⟩

theorem lookup_callSignature (d : Dialect) : d.grammar.rules.lookup "_call_signature" =
    some (chain ([field "type_parameters" (optional (the "type_parameters"))] ++
      field "parameters" (the "formal_parameters") ::
        [field "return_type" (optional (oneOf [the "type_annotation", the "asserts_annotation",
          the "type_predicate_annotation"]))])) := by
  cases d <;> rfl

theorem lookup_formalParameters (d : Dialect) : d.grammar.rules.lookup "formal_parameters" =
    some (chain ["(", optional (chain [listed (the "_formal_parameter"), optional ","]), ")"]) := by
  cases d <;> rfl

theorem lookup_formalParameter (d : Dialect) : d.grammar.rules.lookup "_formal_parameter" =
    some (oneOf [the "required_parameter", the "optional_parameter"]) := by
  cases d <;> rfl

theorem lookup_requiredParameter (d : Dialect) : d.grammar.rules.lookup "required_parameter" =
    some (chain [the "_parameter_name", field "type" (optional (the "type_annotation")),
      optional (the "_initializer")]) := by
  cases d <;> rfl

theorem lookup_optionalParameter (d : Dialect) : d.grammar.rules.lookup "optional_parameter" =
    some (chain [the "_parameter_name", "?", field "type" (optional (the "type_annotation")),
      optional (the "_initializer")]) := by
  cases d <;> rfl

/-- Nothing that plays the part of the parameters. -/
def besideParameters : Grammar.Limits where
  kind _ := true
  part field := field != some "parameters"
  hidden := ["_property_name", "_reserved_identifier"]

theorem closed_besideParameters (d : Dialect) : d.grammar.closed besideParameters := by
  cases d <;> decide +kernel

/-- The rules of functions and methods have the signature behind what does not play the part of the
parameters. -/
theorem lookup_callable {kind : String} (hk : kind ∈ callableKinds) :
    ∃ rank side before after, d.grammar.rules.lookup kind =
        some (.ranked rank side (chain (before ++ the "_call_signature" :: after))) ∧
      ∀ r ∈ before, d.grammar.within besideParameters r none none := by
  have hmember : d.grammar.rules.lookup "method_definition" = some (toLeft (chain (
      [optional (the "accessibility_modifier"), optional "static",
        optional (the "override_modifier"), optional "readonly", optional "async",
        optional (oneOf ["get", "set", "*"]), field "name" (the "_property_name"), optional "?"] ++
      the "_call_signature" :: [field "body" (the "statement_block")]))) := by
    cases d <;> rfl
  have hgenerator : d.grammar.rules.lookup "generator_function_declaration" =
      some (bindRight "declare" (chain (
        [optional "async", "function", "*", field "name" (the "identifier")] ++
        the "_call_signature" :: [field "body" (the "statement_block"),
          optional (the "_automatic_semicolon")]))) := by
    cases d <;> rfl
  have hfunction : d.grammar.rules.lookup "function_declaration" =
      some (bindRight "declare" (chain (
        [optional "async", "function", field "name" (the "identifier")] ++
        the "_call_signature" :: [field "body" (the "statement_block"),
          optional (the "_automatic_semicolon")]))) := by
    cases d <;> rfl
  simp only [callableKinds, List.mem_cons, List.not_mem_nil, or_false] at hk
  rcases hk with rfl | rfl | rfl
  · exact ⟨_, _, _, _, hfunction, by cases d <;> decide +kernel⟩
  · exact ⟨_, _, _, _, hgenerator, by cases d <;> decide +kernel⟩
  · exact ⟨_, _, _, _, hmember, by cases d <;> decide +kernel⟩

/-- Every function and method has a list of parameters. -/
theorem exists_parameters {kind : String} (hk : kind ∈ callableKinds)
    (h : d.grammar.IsConstruct kind n) :
    ∃ ps, n.part? "parameters" = some ps ∧ d.grammar.IsConstruct "formal_parameters" ps := by
  have hparameters : d.grammar.Finds "parameters" (d.grammar.IsConstruct "formal_parameters")
      (field "parameters" (the "formal_parameters")) :=
    .here (by cases d <;> decide) (by cases d <;> decide) (by cases d <;> decide +kernel)
  have hsignature : d.grammar.Finds "parameters" (d.grammar.IsConstruct "formal_parameters")
      (the "_call_signature") :=
    .hidden (by cases d <;> decide) (by cases d <;> decide) (by cases d <;> decide +kernel)
      (lookup_callSignature d)
      (.chain (closed_besideParameters d) rfl (by cases d <;> decide +kernel) hparameters _)
  obtain ⟨rank, side, before, after, hlookup, hbefore⟩ := lookup_callable (d := d) hk
  exact h.exists_part? hlookup
    (.ranked (.chain (closed_besideParameters d) rfl hbefore hsignature after))

/-- Whether a node shows a required or an optional parameter. -/
def IsParameter (d : Dialect) (n : Node) : Prop :=
  d.grammar.IsConstruct "required_parameter" n ∨ d.grammar.IsConstruct "optional_parameter" n

/-- The constructs that a list of parameters consists of. -/
theorem constructs_formalParameters (h : d.grammar.IsConstruct "formal_parameters" n) :
    ∀ p ∈ d.grammar.constructs n, d.IsParameter p := by
  have hshown : ∀ name ∈ ["required_parameter", "optional_parameter"], name ∉ d.grammar.inlined ∧
      name ∉ d.grammar.layout ∧ d.grammar.shown? name = some ⟨name, true⟩ := by
    cases d <;> decide +kernel
  have hparameter : ∀ name ∈ ["required_parameter", "optional_parameter"],
      d.grammar.Yields (d.grammar.IsConstruct name) (the name) := by
    intro name hname ns hns
    obtain ⟨hi, hl, hs⟩ := hshown name hname
    obtain ⟨m, rfl, -, hm⟩ := (Grammar.derives_ref hi hl hs).mp hns
    exact List.forall_mem_singleton.mpr fun _ => hm
  have hone : d.grammar.Yields d.IsParameter (the "_formal_parameter") := by
    refine .hidden (by cases d <;> decide) (by cases d <;> decide) (by cases d <;> decide +kernel)
      (lookup_formalParameter d) (.choice ?_ ?_)
    · exact fun ns hns m hm hnamed => .inl (hparameter _ (by decide) ns hns m hm hnamed)
    · exact fun ns hns m hm hnamed => .inr (hparameter _ (by decide) ns hns m hm hnamed)
  exact h.forall_constructs (lookup_formalParameters d) <| (Grammar.Yields.word _).seq <|
    (hone.listed.seq (Grammar.Yields.word _).optional).optional.seq (.word _)

/-- Nothing that is the mark of an optional parameter. -/
def withoutMark : Grammar.Limits where
  kind shown := shown != ⟨"?", false⟩
  part _ := true
  hidden := ["_parameter_name", "_initializer", "pattern", "_lhs_expression", "_identifier",
    "_reserved_identifier", "_destructuring_pattern", "expression", "primary_expression",
    "_jsx_element"]

theorem closed_withoutMark (d : Dialect) : d.grammar.closed withoutMark := by
  cases d <;> decide +kernel

/-- The optional parameters are those with a question mark. -/
theorem hasWord_mark (h : d.IsParameter n) :
    n.hasWord "?" = true ↔ n.kind = "optional_parameter" := by
  have hextra : "?" ∉ d.grammar.extras := by cases d <;> decide
  rw [Grammar.hasWord_iff hextra]
  rcases h with h | h
  · have hrule : d.grammar.within withoutMark (chain [the "_parameter_name",
        field "type" (optional (the "type_annotation")), optional (the "_initializer")])
        none none := by
      cases d <;> decide +kernel
    have hnone := Grammar.derives_within (closed_withoutMark d)
      (h.derives_rule (lookup_requiredParameter d)) hrule
    constructor
    · rintro ⟨c, hc, hnamed, hk⟩
      have hmark := (hnone c hc).kind
      rw [hnamed, hk] at hmark
      cases hmark
    · intro hk
      rw [h.kind_eq] at hk
      exact absurd hk (by decide)
  · obtain ⟨names, _, -, hafterName, hparts⟩ :=
      Grammar.derives_seq.mp (h.derives_rule (lookup_optionalParameter d))
    obtain ⟨marks, rest, hmark, -, rfl⟩ := Grammar.derives_seq.mp hafterName
    obtain ⟨c, rfl, hk, hnamed, -⟩ := Grammar.derives_word hmark
    refine iff_of_true ⟨c, ?_, hnamed, hk⟩ h.kind_eq
    rw [hparts]
    simp

end TypeScript.Dialect
end CodeSurvey
