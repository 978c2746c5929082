import CodeSurvey.Proofs.Comments
import CodeSurvey.Proofs.Declarations
import CodeSurvey.Proofs.Imports
import CodeSurvey.Proofs.ParameterForms

/-! # Which parameters are recorded

`ParameterRecord.IsOf` says what the record of a declared parameter tells of it, and
`isOf_ofNode` that every declared parameter has such a record.

The records of a function or method are made of the constituents of its list of parameters.  These
are the declared parameters and, in between, comments that are written in the way of markup: such a
comment is no `comment`, so it is recorded as if it were a parameter that binds no plain name.
Hence the records are those of the declared parameters, in their order, exactly if there is no such
comment (`FileRecord.parameters_spec`). -/

namespace CodeSurvey

open TypeScript

variable {t : Tree} {d : Dialect} {n p : Node} {x : FunctionRecord} {names : List String}

/-! ### Names -/

/-- Whether a text begins as the token for names does. -/
def BeginsAsName (text : String) : Prop :=
  ∃ c rest, text.toList = c :: rest ∧ Lexemes.nameStart.step (.char c) ≠ .fail

/-- Whether the text of every name in a tree begins as one. -/
def Tree.SpellsNames (t : Tree) : Prop :=
  t.root.Everywhere fun n => n.kind ∈ ["identifier", "this"] → BeginsAsName (t.text n)

theorem BeginsAsName.not_dots {text : String} (h : BeginsAsName text) :
    ¬ ['.', '.', '.'] <+: text.toList := by
  obtain ⟨c, rest, htext, hstep⟩ := h
  rw [htext, List.cons_prefix_cons]
  rintro ⟨rfl, -⟩
  exact hstep (by decide)

/-! ### Records of parameters -/

namespace ParameterRecord

/-- Whether a record is that of a parameter that binds a plain name. -/
structure IsNamed (t : Tree) (p name : Node) (x : ParameterRecord) : Prop where
  name : x.name = t.text name
  isOptional : x.isOptional = true ↔ p.hasWord "?" = true ∨ (p.part? "value").isSome
  isTyped : x.typeText.isSome ↔ (p.part? "type").isSome
  unknown : ∀ typing type, p.part? "type" = some typing →
    typing.constituents.head? = some type → TypeText.shape t type = .unknown →
    x.typeText = some TypeText.unknown

/-- Whether a record is that of a declared parameter. -/
structure IsOf (t : Tree) (p : Node) (x : ParameterRecord) : Prop where
  default : x.defaultText.isSome → x.isOptional = true
  rest : ['.', '.', '.'] <+: x.name.toList →
    (∃ pattern, p.part? "pattern" = some pattern ∧ pattern.kind = "rest_pattern") ∧
      x.isOptional = false ∧ x.defaultText = none
  named : ∀ name, p.part? "pattern" = some name → name.kind ∈ ["identifier", "this"] →
    IsNamed t p name x
  destructured : ∀ pattern, p.part? "pattern" = some pattern →
    pattern.kind ∈ ["object_pattern", "array_pattern"] → x = placeholder

theorem annotated_of_unknown {typing type : Node}
    (ha : typing.constituents.head? = some type) (h : TypeText.shape t type = .unknown) :
    TypeText.annotated t typing = TypeText.unknown := by
  have htype : TypeText.ofType t type = TypeText.unknown := by
    rw [TypeText.ofType, TypeText.memberTexts_eq, h]
    rfl
  rw [TypeText.annotated, ha, Option.map_some, htype]
  simp

/-- The record of a parameter that binds a plain name. -/
theorem ofNode_named {name : Node} (hp : p.kind ∈ kinds) (hname : p.part? "pattern" = some name)
    (hk : name.kind ∈ ["identifier", "this"]) : ofNode t p =
      { name := t.text name
        typeText := TypeText.ofPart? t p "type"
        isOptional := (p.part? "value").isSome || p.kind == "optional_parameter"
        defaultText := (p.part? "value").bind (defaultText? t) } := by
  simp only [ofNode, hname, Option.filter_some, hp, decide_true, if_true, if_pos hk]

/-- Any other parameter is recorded by its name if it is a rest parameter, else as a placeholder. -/
theorem ofNode_unnamed (h : ∀ name, p.part? "pattern" = some name →
      name.kind ∉ ["identifier", "this"]) :
    ofNode t p = placeholder ∨
    ∃ pattern name, p.part? "pattern" = some pattern ∧ pattern.kind = "rest_pattern" ∧
      ofNode t p = ⟨"..." ++ t.text name, TypeText.ofPart? t p "type", false, none⟩ := by
  unfold ofNode
  cases hpattern : (p.part? "pattern").filter fun _ => p.kind ∈ kinds with
  | none => exact .inl rfl
  | some pattern =>
      have hpart := (Option.filter_eq_some_iff.mp hpattern).1
      simp only [if_neg (h pattern hpart)]
      split
      next hrest =>
          cases pattern.namedChildren.head?.filter (·.kind == "identifier") with
          | none => exact .inl rfl
          | some name => exact .inr ⟨pattern, name, hpart, hrest.1, rfl⟩
      next => exact .inl rfl

theorem isOf_named {name : Node} (hp : d.IsParameter p) (hname : p.part? "pattern" = some name)
    (hk : name.kind ∈ ["identifier", "this"]) (hbegins : BeginsAsName (t.text name)) :
    IsOf t p (ofNode t p) := by
  have hkinds : p.kind ∈ kinds := hp.elim (fun h => by rw [h.kind_eq]; decide)
    fun h => by rw [h.kind_eq]; decide
  rw [ofNode_named hkinds hname hk]
  refine ⟨fun h => ?_, fun h => absurd h hbegins.not_dots, fun name' hname' _ => ?_,
    fun pattern hpattern hk' => ?_⟩
  · cases hvalue : p.part? "value" with
    | none => simp [hvalue] at h
    | some _ => rfl
  · cases hname.symm.trans hname'
    refine ⟨rfl, ?_, ?_, fun typing type ha htype hunknown => ?_⟩
    · rw [Dialect.hasWord_mark hp, Bool.or_eq_true, beq_iff_eq, or_comm]
    · rw [TypeText.ofPart?, Option.isSome_map]
    · rw [TypeText.ofPart?, ha, Option.map_some, annotated_of_unknown htype hunknown]
  · cases hname.symm.trans hpattern
    have hdisjoint : ∀ kind ∈ ["identifier", "this"],
        kind ∉ ["object_pattern", "array_pattern"] := by
      decide
    exact absurd hk' (hdisjoint _ hk)

theorem isOf_unnamed (h : ∀ name, p.part? "pattern" = some name →
    name.kind ∉ ["identifier", "this"]) : IsOf t p (ofNode t p) := by
  rcases ofNode_unnamed (t := t) h with hrecord | ⟨pattern, name, hpattern, hk, hrecord⟩
  · rw [hrecord]
    exact ⟨nofun, fun hdots => absurd hdots (by decide),
      fun name hname hk => absurd hk (h name hname), fun _ _ _ => rfl⟩
  · rw [hrecord]
    refine ⟨nofun, fun _ => ⟨⟨pattern, hpattern, hk⟩, rfl, rfl⟩,
      fun name hname hk => absurd hk (h name hname), fun pattern' hpattern' hk' => ?_⟩
    cases hpattern.symm.trans hpattern'
    rw [hk] at hk'
    exact absurd hk' (by decide)

/-- Every declared parameter is recorded as what it is. -/
theorem isOf_ofNode (hp : d.IsParameter p)
    (hnames : ∀ name, p.part? "pattern" = some name → name.kind ∈ ["identifier", "this"] →
      BeginsAsName (t.text name)) : IsOf t p (ofNode t p) := by
  by_cases h : ∃ name, p.part? "pattern" = some name ∧ name.kind ∈ ["identifier", "this"]
  · obtain ⟨name, hname, hk⟩ := h
    exact isOf_named hp hname hk (hnames name hname hk)
  · exact isOf_unnamed fun name hname hk => h ⟨name, hname, hk⟩

/-- A comment in the way of markup gets a record too. -/
theorem ofNode_comment (h : p.kind = "html_comment") : ofNode t p = placeholder := by
  have hkinds : p.kind ∉ kinds := by
    rw [h]
    decide
  simp [ofNode, hkinds]

end ParameterRecord

/-! ### Lists of parameters -/

/-- The constituents of a list of parameters are the declared ones and comments in the way of
markup. -/
theorem TypeScript.Dialect.constructs_eq_filter (d : Dialect) (n : Node) :
    n.constituents.filter (·.kind != "html_comment") = d.grammar.constructs n := by
  have hextras : d.grammar.extras = ["comment", "html_comment"] := rfl
  rw [Grammar.constructs_eq, hextras, Node.constituents, List.filter_filter]
  refine List.filter_congr fun c _ => ?_
  simp [Bool.and_comm, bne, beq_eq_decide]

/-- Whether a record is made of a function declaration or of a method, and what node that is. -/
inductive Tree.MakesCallable (t : Tree) (names : List String) : Node → FunctionRecord → Prop
  | function {s : Site} {x : FunctionRecord} (hs : t.root.HasSite s)
      (hx : FunctionRecord.ofDeclaration? t names s = some x) : MakesCallable t names s.node x
  | method {s m : Site} {x : FunctionRecord} (hs : t.root.HasSite s) (hm : m.IsMemberOf s)
      (hx : FunctionRecord.ofMember? t m = some x) : MakesCallable t names m.node x

namespace Tree.MakesCallable

theorem parameters_eq (h : t.MakesCallable names n x) :
    n.kind ∈ Dialect.callableKinds ∧ x.parameters = ParameterRecord.ofDeclaration t n := by
  cases h with
  | function _ hx =>
      unfold FunctionRecord.ofDeclaration? at hx
      split at hx
      next hk =>
          obtain ⟨name, -, rfl⟩ := Option.map_eq_some_iff.mp hx
          exact ⟨List.mem_append_left ["method_definition"] hk, rfl⟩
      next => cases hx
  | method _ _ hx =>
      unfold FunctionRecord.ofMember? at hx
      split at hx
      next hk =>
          obtain ⟨name, -, rfl⟩ := Option.map_eq_some_iff.mp hx
          exact ⟨by rw [hk]; decide, rfl⟩
      next => cases hx

theorem everywhere {P : Node → Prop} (h : t.MakesCallable names n x) (hP : t.root.Everywhere P) :
    n.Everywhere P := by
  cases h with
  | function hs _ => exact hP.of_mem_sites _ (Node.mem_sites.mpr hs)
  | method hs hm _ =>
      exact ClassRecord.everywhere_of_mem_members (hP.of_mem_sites _ (Node.mem_sites.mpr hs)) _
        (Site.mem_members.mpr hm)

theorem isConstruct (h : t.MakesCallable names n x) (hf : t.Follows d.grammar) :
    d.grammar.IsConstruct n.kind n := by
  have hshown := (h.everywhere (hf.everywhere (Dialect.isProper_callable h.parameters_eq.1))).here
  refine hshown ?_ rfl
  cases h with
  | function hs _ => exact hf.named_of_hasSite hs
  | method _ hm _ =>
      obtain ⟨body, -, hm⟩ := hm
      exact (List.mem_filter.mp hm).2

end Tree.MakesCallable

/-- Whatever is recorded of a file as a function or method is made of one. -/
theorem FileRecord.exists_makesCallable {path relativePath : String}
    (h : x ∈ (ofTree path relativePath t).functions ∨
      ∃ c ∈ (ofTree path relativePath t).classes, x ∈ c.methods) :
    ∃ n, t.MakesCallable (Exported.names t) n x := by
  rcases h with hx | ⟨c, hc, hx⟩
  · obtain ⟨s, hs, hx⟩ := List.mem_filterMap.mp hx
    exact ⟨_, .function (Node.mem_sites.mp hs) hx⟩
  · obtain ⟨s, hs, hc⟩ := List.mem_filterMap.mp hc
    unfold ClassRecord.ofDeclaration? at hc
    split at hc
    next =>
        obtain ⟨_, -, rfl⟩ := Option.map_eq_some_iff.mp hc
        obtain ⟨m, hm, hx⟩ := List.mem_filterMap.mp hx
        exact ⟨_, .method (Node.mem_sites.mp hs) (Site.mem_members.mp hm) hx⟩
    next => cases hc

/-- In a tree of the grammar every function and method that is recorded has a list of parameters.
Each constituent of it has a record, in their order: that of a declared parameter tells what it is,
that of a comment in the way of markup is a placeholder.  So there is one record for each declared
parameter exactly if there are no such comments. -/
theorem FileRecord.parameters_spec (d : Dialect) (path relativePath : String) (t : Tree)
    (hf : t.Follows d.grammar) (hnames : t.SpellsNames) (x : FunctionRecord)
    (hx : x ∈ (ofTree path relativePath t).functions ∨
      ∃ c ∈ (ofTree path relativePath t).classes, x ∈ c.methods) :
    ∃ n ps, t.MakesCallable (Exported.names t) n x ∧ n.part? "parameters" = some ps ∧
      d.grammar.IsConstruct "formal_parameters" ps ∧
      ps.constituents.filter (·.kind != "html_comment") = d.grammar.constructs ps ∧
      (∀ p ∈ d.grammar.constructs ps, d.IsParameter p) ∧
      List.Forall₂ (fun c y => if c.kind = "html_comment" then y = .placeholder
          else ParameterRecord.IsOf t c y)
        ps.constituents x.parameters ∧
      ((∀ c ∈ ps.constituents, c.kind ≠ "html_comment") →
        List.Forall₂ (ParameterRecord.IsOf t) (d.grammar.constructs ps) x.parameters) ∧
      (x.parameters.length = (d.grammar.constructs ps).length ↔
        ∀ c ∈ ps.constituents, c.kind ≠ "html_comment") := by
  obtain ⟨n, hn⟩ := exists_makesCallable hx
  obtain ⟨hk, hrecords⟩ := hn.parameters_eq
  obtain ⟨ps, hps, hconstruct⟩ := Dialect.exists_parameters hk (hn.isConstruct hf)
  have hdeclared := Dialect.constructs_formalParameters hconstruct
  have hfilter := d.constructs_eq_filter ps
  rw [ParameterRecord.ofDeclaration, hps] at hrecords
  have hone : ∀ c ∈ ps.constituents, c.kind ≠ "html_comment" →
      ParameterRecord.IsOf t c (.ofNode t c) := by
    intro c hc hkind
    have hmem : c ∈ d.grammar.constructs ps := by
      rw [← hfilter]
      exact List.mem_filter.mpr ⟨hc, bne_iff_ne.mpr hkind⟩
    have hspelled := ((hn.everywhere hnames).of_part? hps).of_mem_constituents hc
    exact ParameterRecord.isOf_ofNode (hdeclared c hmem) fun name hname =>
      (hspelled.of_part? hname).here
  refine ⟨n, ps, hn, hps, hconstruct, hfilter, hdeclared, ?_, fun hno => ?_, ?_⟩
  · rw [hrecords, List.forall₂_map_right_iff, List.forall₂_same]
    intro c hc
    split
    next hkind => exact ParameterRecord.ofNode_comment hkind
    next hkind => exact hone c hc hkind
  · rw [← hfilter, List.filter_eq_self.mpr fun c hc => bne_iff_ne.mpr (hno c hc), hrecords,
      List.forall₂_map_right_iff, List.forall₂_same]
    exact fun c hc => hone c hc (hno c hc)
  · rw [hrecords, List.length_map, ← hfilter, eq_comm, List.length_filter_eq_length_iff]
    simp

/-! ### A list of parameters with a comment -/

section Sample

variable {g : Grammar} {name : String} {r : Rule} {field : Option String} {start stop : Nat}
  {cs : List Node}

/-- A place in a source whose first line has twenty bytes, with the line feed. -/
def placeOfTwenty (byte : Nat) : Place :=
  if byte < 20 then ⟨byte, 0, byte⟩ else ⟨byte, 1, byte - 20⟩

/-- A construct of such a source. -/
def twoLineNode (kind : String) (field : Option String) (start stop : Nat) (children : List Node) :
    Node :=
  ⟨kind, true, field, placeOfTwenty start, placeOfTwenty stop, false, false, children⟩

/-- A plain word of such a source. -/
def twoLineWord (word : String) (start stop : Nat) : Node :=
  ⟨word, false, none, placeOfTwenty start, placeOfTwenty stop, false, false, []⟩

/-- The parameter of one letter. -/
def letterParameter (start : Nat) : Node :=
  twoLineNode "required_parameter" none start (start + 1)
    [twoLineNode "identifier" (some "pattern") start (start + 1) []]

/-- The two parameters, with a comment after the comma. -/
def commentedParameters : Node :=
  twoLineNode "formal_parameters" (some "parameters") 10 22
    [twoLineWord "(" 10 11, letterParameter 11, twoLineWord "," 12 13,
      twoLineNode "html_comment" none 13 19 [], letterParameter 20, twoLineWord ")" 21 22]

/-- A function with these parameters. -/
def commentedFunction : Node :=
  twoLineNode "function_declaration" none 0 24
    [twoLineWord "function" 0 8, twoLineNode "identifier" (some "name") 9 10 [],
      commentedParameters,
      twoLineNode "statement_block" (some "body") 22 24
        [twoLineWord "\x7b" 22 23, twoLineWord "\x7d" 23 24]]

/-- A source that is this function. -/
def commentedTree : Tree where
  source := .ofBytes "function f(a,<!-- c\nb)\x7b\x7d".toUTF8
  root := twoLineNode "program" none 0 24 [commentedFunction]

theorem isConstruct_twoLineNode (hr : g.rules.lookup name = some r)
    (hloose : ∀ c ∈ cs, c.kind ∈ g.extras → c.field = none ∧ c.children = [])
    (hd : g.Derives r none none (cs.filter fun c => !g.extras.contains c.kind)) :
    g.IsConstruct name (twoLineNode name field start stop cs) :=
  ⟨rfl, rfl, hloose, r, hr, hd⟩

theorem derives_twoLineWord {text : String} :
    g.Derives (.word text) none none [twoLineWord text start stop] :=
  .word (.shown ⟨rfl, rfl, rfl, rfl, fun _ hc => absurd hc List.not_mem_nil⟩)

/-- A construct that is neither hidden nor inlined is derived as its node. -/
theorem derives_twoLineNode (h : name ∉ g.inlined ∧ name ∉ g.layout ∧
      g.shown? name = some ⟨name, true⟩)
    (hn : g.IsConstruct name (twoLineNode name field start stop cs)) :
    g.Derives (.ref name) none field [twoLineNode name field start stop cs] :=
  (Grammar.derives_ref h.1 h.2.1 h.2.2).mpr ⟨_, rfl, rfl, hn⟩

theorem isConstruct_letter : Dialect.plain.grammar.IsConstruct "identifier"
    (twoLineNode "identifier" field start stop []) :=
  isConstruct_twoLineNode (r := .lexeme (.ofPattern Lexemes.identifier)) rfl
    (List.forall_mem_nil _) .lexeme

theorem derives_letter : Dialect.plain.grammar.Derives (the "identifier") none field
    [twoLineNode "identifier" field start stop []] :=
  derives_twoLineNode (by decide +kernel) isConstruct_letter

/-- A pattern that is a name. -/
theorem derives_letterPattern : Dialect.plain.grammar.Derives (the "pattern") none (some "pattern")
    [twoLineNode "identifier" (some "pattern") start stop []] := by
  have hidentifier : Dialect.plain.grammar.Derives (the "_identifier") none none
      [twoLineNode "identifier" none start stop []] :=
    .inlined (by decide) rfl (.right derives_letter)
  have hleft : Dialect.plain.grammar.Derives (the "_lhs_expression") none none
      [twoLineNode "identifier" none start stop []] :=
    .inlined (by decide) rfl (.left (.right (.right (.left hidentifier))))
  exact (Grammar.derives_hidden (by decide) (by decide) (by decide +kernel) rfl).mpr
    ⟨_, .weighted (.left hleft), .part "pattern" _⟩

theorem derives_letterParameter : Dialect.plain.grammar.Derives (the "_formal_parameter") none none
    [letterParameter start] := by
  have hname : Dialect.plain.grammar.Derives (the "_parameter_name") none none
      [twoLineNode "identifier" (some "pattern") start (start + 1) []] :=
    (Grammar.derives_hidden (by decide) (by decide) (by decide +kernel) rfl).mpr
      ⟨_, derives_skip (.right .blank) (derives_skip (.right .blank) (derives_skip (.right .blank)
        (derives_skip (.right .blank) (.field (.left derives_letterPattern))))), .hidden _⟩
  have hparameter : Dialect.plain.grammar.IsConstruct "required_parameter"
      (letterParameter start) :=
    isConstruct_twoLineNode (Dialect.lookup_requiredParameter .plain)
      (by simp [twoLineNode, Dialect.grammar])
      (derives_cons hname (derives_skip (.field (.right .blank)) (.right .blank)))
  exact (Grammar.derives_hidden (by decide) (by decide) (by decide +kernel)
    (Dialect.lookup_formalParameter .plain)).mpr
      ⟨_, .left (derives_twoLineNode (by decide +kernel) hparameter), .hidden _⟩

theorem isConstruct_commentedParameters :
    Dialect.plain.grammar.IsConstruct "formal_parameters" commentedParameters := by
  have hlist : Dialect.plain.grammar.Derives
      (.chain [.listed (the "_formal_parameter"), .optional ","]) none none
      ([letterParameter 11, twoLineWord "," 12 13, letterParameter 20] ++ []) :=
    .seq (derives_cons derives_letterParameter
      (.left (.once (derives_cons derives_twoLineWord derives_letterParameter)))) (.right .blank)
  exact isConstruct_twoLineNode (Dialect.lookup_formalParameters .plain)
    (by simp [twoLineNode, twoLineWord, letterParameter, Dialect.grammar])
    (derives_cons derives_twoLineWord (.seq (.left hlist) derives_twoLineWord))

/-- A signature that is a list of parameters. -/
theorem derives_signature (hn : Dialect.plain.grammar.IsConstruct "formal_parameters"
      (twoLineNode "formal_parameters" (some "parameters") start stop cs)) :
    Dialect.plain.grammar.Derives (the "_call_signature") none none
      [twoLineNode "formal_parameters" (some "parameters") start stop cs] :=
  (Grammar.derives_hidden (by decide) (by decide) (by decide +kernel)
    (Dialect.lookup_callSignature .plain)).mpr ⟨_, derives_skip (.field (.right .blank))
      (derives_cons (.field (derives_twoLineNode (by decide +kernel) hn))
        (.field (.right .blank))), .hidden _⟩

/-- A body in which there is nothing. -/
theorem derives_emptyBlock {middle : Nat} :
    Dialect.plain.grammar.Derives (the "statement_block") none field
      [twoLineNode "statement_block" field start stop
        [twoLineWord "\x7b" start middle, twoLineWord "\x7d" middle stop]] :=
  derives_twoLineNode (by decide +kernel) (isConstruct_twoLineNode rfl
    (by simp [twoLineWord, Dialect.grammar])
    (.ranked (derives_cons derives_twoLineWord (derives_skip (.right .blank)
      (derives_cons derives_twoLineWord (.right .blank))))))

theorem follows_commentedTree : commentedTree.Follows Dialect.plain.grammar := by
  have hfunction : Dialect.plain.grammar.IsConstruct "function_declaration" commentedFunction :=
    isConstruct_twoLineNode rfl
      (by simp [twoLineNode, twoLineWord, commentedParameters, Dialect.grammar])
      (.ranked (derives_skip (.right .blank) (derives_cons derives_twoLineWord
        (derives_cons (.field derives_letter)
          (derives_cons (derives_signature isConstruct_commentedParameters)
            (derives_cons (.field derives_emptyBlock) (.right .blank)))))))
  have hdeclaration : Dialect.plain.grammar.Derives (the "declaration") none none
      [commentedFunction] :=
    (Grammar.derives_hidden (by decide) (by decide) (by decide +kernel) rfl).mpr
      ⟨_, .left (.left (derives_twoLineNode (by decide +kernel) hfunction)), .hidden _⟩
  have hstatement : Dialect.plain.grammar.Derives (the "statement") none none
      [commentedFunction] :=
    (Grammar.derives_hidden (by decide) (by decide) (by decide +kernel) rfl).mpr
      ⟨_, .right (.right (.right (.right (.left hdeclaration)))), .hidden _⟩
  exact ⟨"program", _, rfl, isConstruct_twoLineNode rfl
    (by simp [commentedFunction, twoLineNode, Dialect.grammar])
    (derives_skip (.right .blank) (.left (.once hstatement)))⟩

theorem spellsNames_commentedTree : commentedTree.SpellsNames := by
  have hname : ∀ text ∈ ["a", "b", "f"], BeginsAsName text := by
    intro text ht
    simp only [List.mem_cons, List.not_mem_nil, or_false] at ht
    rcases ht with rfl | rfl | rfl
    · exact ⟨'a', [], rfl, by decide⟩
    · exact ⟨'b', [], rfl, by decide⟩
    · exact ⟨'f', [], rfl, by decide⟩
  have htext : ∀ n ∈ [twoLineNode "identifier" (some "name") 9 10 [],
      twoLineNode "identifier" (some "pattern") 11 12 [],
      twoLineNode "identifier" (some "pattern") 20 21 []],
      BeginsAsName (commentedTree.text n) := by
    have hwritten : ∀ n ∈ [twoLineNode "identifier" (some "name") 9 10 [],
        twoLineNode "identifier" (some "pattern") 11 12 [],
        twoLineNode "identifier" (some "pattern") 20 21 []],
        commentedTree.text n ∈ ["a", "b", "f"] := by
      decide +kernel
    exact fun n hn => hname _ (hwritten n hn)
  have hroot : commentedTree.root = twoLineNode "program" none 0 24 [commentedFunction] := rfl
  simpa [Tree.SpellsNames, hroot, commentedFunction, commentedParameters, letterParameter,
    twoLineNode, twoLineWord, Node.everywhere_mk] using htext

/-- The record of this function. -/
def commentedRecord : FunctionRecord where
  name := "f"
  parameters := [⟨"a", none, false, none⟩, .placeholder, ⟨"b", none, false, none⟩]
  returnType := none
  description := none
  isExported := false
  isAsync := false
  isPrivate := false

/-- There are two parameters and three records. -/
theorem FileRecord.parameters_spec_commentedTree :
    commentedTree.Follows Dialect.plain.grammar ∧ commentedTree.SpellsNames ∧
    (ofTree "" "" commentedTree).functions = [commentedRecord] ∧
    (Dialect.plain.grammar.constructs commentedParameters).length = 2 ∧
    ∃ n ps, commentedTree.MakesCallable (Exported.names commentedTree) n commentedRecord ∧
      n.part? "parameters" = some ps ∧ ps.constituents.length = 3 ∧
      ps.constituents.filter (·.kind != "html_comment") = Dialect.plain.grammar.constructs ps := by
  have hfunctions : (ofTree "" "" commentedTree).functions = [commentedRecord] := by decide +kernel
  obtain ⟨n, ps, hn, hps, -, hfilter, -, hrecords, -⟩ :=
    parameters_spec .plain "" "" commentedTree follows_commentedTree spellsNames_commentedTree
      commentedRecord (.inl (by rw [hfunctions]; exact List.mem_singleton_self _))
  exact ⟨follows_commentedTree, spellsNames_commentedTree, hfunctions, by decide +kernel, n, ps, hn,
    hps, hrecords.length_eq, hfilter⟩

end Sample

end CodeSurvey
