import CodeSurvey.Extraction.Declaration
import CodeSurvey.Proofs.TypeTexts
import CodeSurvey.Syntax.Fault
import Mathlib

/-! # Comments carry no structure

What is recorded of a tree is compared with what is recorded of the same tree without some of
its comments.  Each reading of a node passes over comments, from types (`memberTexts_thinned`)
over members and declarations to whole files, but for two:

* descriptions are read off comments, so records are compared without them
  (`FunctionRecord.Agree`);
* of a rest pattern only the first named child is looked at.  If that is a comment, the parameter
  is recorded as a placeholder (`ParameterRecord.ofNode_thinned`).

So the records agree, but for placeholders where a rest pattern begins with a comment, and they
agree entirely if none does (`FileRecord.agree_of_thinned`). -/

namespace CodeSurvey

variable {t u : Tree} {n n' : Node}

/-! ### Types -/

namespace TypeText

theorem memberTexts_thinned (h : t.Thinned u) (hn : n.Thinned n') :
    memberTexts u n' = memberTexts t n :=
  (eq_of_thinned memberTexts_eq h.source_eq hn).symm

theorem annotated_thinned (h : t.Thinned u) (hn : n.Thinned n') : annotated u n' = annotated t n := by
  have htype : n'.constituents.head?.map (ofType u) = n.constituents.head?.map (ofType t) :=
    hn.head?_constituents.map_eq fun c c' hc => by rw [ofType, ofType, memberTexts_thinned h hc]
  rw [annotated, annotated, hn.kind_eq, htype]

theorem ofPart?_thinned (h : t.Thinned u) (hn : n.Thinned n') (field : String) :
    ofPart? u n' field = ofPart? t n field :=
  (hn.part? field).map_eq fun _ _ hc => annotated_thinned h hc

end TypeText

/-! ### Parameters -/

/-- Whether the first named child of a node is a comment. -/
def Node.BeginsWithComment (n : Node) : Prop :=
  ∃ c, n.namedChildren.head? = some c ∧ c.kind = "comment"

namespace ParameterRecord

theorem defaultText?_thinned (h : t.Thinned u) (hn : n.Thinned n') :
    defaultText? u n' = defaultText? t n := by
  unfold defaultText?
  rw [hn.kind_eq, h.text_eq hn]

/-- The name after the dots is kept, unless a comment comes before it. -/
theorem restName?_thinned (hn : n.Thinned n') (hb : ¬ n.BeginsWithComment) :
    Kept (n.namedChildren.head?.filter (·.kind == "identifier"))
      (n'.namedChildren.head?.filter (·.kind == "identifier")) :=
  (hn.namedChildren.head? fun c hc hcomment => hb ⟨c, hc, hcomment.kind_eq⟩).filter
    fun _ _ hc => by rw [hc.kind_eq]

/-- The record of a parameter does not change if comments are taken away, unless it was a
placeholder for a rest parameter whose pattern begins with one. -/
theorem ofNode_thinned (h : t.Thinned u) (hn : n.Thinned n') :
    ofNode t n = ofNode u n' ∨
    ofNode t n = placeholder ∧
      ∃ p, n.part? "pattern" = some p ∧ p.kind = "rest_pattern" ∧ p.BeginsWithComment := by
  have htype := TypeText.ofPart?_thinned h hn "type"
  have hsome := (hn.part? "value").isSome_eq
  have hvalue : (n'.part? "value").bind (defaultText? u) = (n.part? "value").bind (defaultText? t) :=
    (hn.part? "value").bind_eq fun _ _ hc => defaultText?_thinned h hc
  have hnone : (n'.part? "value").isNone = (n.part? "value").isNone := by
    rw [← Option.not_isSome, ← Option.not_isSome, hsome]
  cases hp : n.part? "pattern" with
  | none =>
      left
      simp only [ofNode, hp, (hn.part? _).none hp, Option.filter_none]
  | some p =>
      obtain ⟨p', hp', hpp⟩ := (hn.part? _).some hp
      simp only [ofNode, hn.kind_eq, htype, hp, hp', Option.filter_some, hsome, hvalue, hnone]
      by_cases hk : n.kind ∈ kinds
      · simp only [hk, decide_true, if_true, hpp.kind_eq, h.text_eq hpp]
        by_cases hr : p.kind = "rest_pattern"
        · by_cases hb : p.BeginsWithComment
          · right
            obtain ⟨c, hc, hkind⟩ := hb
            refine ⟨?_, p, rfl, hr, c, hc, hkind⟩
            have hf : p.namedChildren.head?.filter (·.kind == "identifier") = none := by
              rw [hc, Option.filter_some, hkind]
              rfl
            have hi : p.kind ∉ ["identifier", "this"] := by
              rw [hr]
              decide
            simp only [hf, if_neg hi, ite_self]
          · left
            have hrest := restName?_thinned hpp hb
            cases ha : p.namedChildren.head?.filter (·.kind == "identifier") with
            | none => simp only [hrest.none ha]
            | some a =>
                obtain ⟨a', ha', haa⟩ := hrest.some ha
                simp only [ha', h.text_eq haa]
        · left
          simp only [hr, false_and, if_false]
      · left
        simp only [hk, decide_false, if_neg Bool.false_ne_true]

end ParameterRecord

/-! ### Members -/

theorem isPrivateMember_thinned (h : t.Thinned u) (hn : n.Thinned n') :
    isPrivateMember u n' = isPrivateMember t n := by
  refine hn.namedChildren.any_eq (fun c hc => ?_) fun c c' hc => ?_
  · rw [hc.kind_eq]
    rfl
  · rw [hc.kind_eq, h.text_eq hc]

theorem memberName?_thinned (h : t.Thinned u) (hn : n.Thinned n') :
    memberName? u n' = memberName? t n :=
  ((hn.part? "name").filter fun _ _ hc => by rw [hc.kind_eq]).map_eq fun _ _ hc => h.text_eq hc

/-! ### Records that agree -/

/-- Whether two functions are recorded in the same way apart from their descriptions, and their
parameters are so related one by one. -/
structure FunctionRecord.Agree (r : ParameterRecord → ParameterRecord → Prop)
    (f g : FunctionRecord) : Prop where
  parameters : List.Forall₂ r f.parameters g.parameters
  others : { f with parameters := [], description := none } =
    { g with parameters := [], description := none }

/-- Whether two classes are recorded in the same way apart from their descriptions, with methods
that agree. -/
structure ClassRecord.Agree (r : ParameterRecord → ParameterRecord → Prop) (c d : ClassRecord) :
    Prop where
  methods : List.Forall₂ (FunctionRecord.Agree r) c.methods d.methods
  others : { c with methods := [], description := none } =
    { d with methods := [], description := none }

/-- Whether two files are recorded in the same way apart from descriptions, with functions and
classes that agree. -/
structure FileRecord.Agree (r : ParameterRecord → ParameterRecord → Prop) (f g : FileRecord) :
    Prop where
  functions : List.Forall₂ (FunctionRecord.Agree r) f.functions g.functions
  classes : List.Forall₂ (ClassRecord.Agree r) f.classes g.classes
  others : { f with functions := [], classes := [] } = { g with functions := [], classes := [] }

/-- Whether parameters in which something holds everywhere are related to the same parameters in
another tree. -/
def RelatesParameters (t u : Tree) (P : Node → Prop)
    (r : ParameterRecord → ParameterRecord → Prop) : Prop :=
  ∀ p p' : Node, p.Everywhere P → p.Thinned p' → r (.ofNode t p) (.ofNode u p')

section Declarations

variable {P : Node → Prop} {r : ParameterRecord → ParameterRecord → Prop} {s s' : Site}

/-! ### Functions -/

theorem ParameterRecord.ofDeclaration_thinned (hr : RelatesParameters t u P r)
    (hP : n.Everywhere P) (hn : n.Thinned n') :
    List.Forall₂ r (ofDeclaration t n) (ofDeclaration u n') := by
  unfold ofDeclaration
  cases hc : n.part? "parameters" with
  | none =>
      rw [(hn.part? _).none hc]
      exact .nil
  | some c =>
      obtain ⟨c', hc', hcc⟩ := (hn.part? _).some hc
      simp only [hc', List.forall₂_map_left_iff, List.forall₂_map_right_iff]
      exact hcc.constituents.imp fun p p' hp =>
        hr p p' ((hP.of_part? hc).of_mem_constituents hp.1) hp.2

theorem FunctionRecord.ofSite_thinned (h : t.Thinned u) (hr : RelatesParameters t u P r)
    (hP : s.node.Everywhere P) (hs : s.node.Thinned s'.node) (name : String)
    (isExported isPrivate : Bool) :
    (ofSite t s name isExported isPrivate).Agree r (ofSite u s' name isExported isPrivate) := by
  refine ⟨ParameterRecord.ofDeclaration_thinned hr hP hs, ?_⟩
  simp only [ofSite, TypeText.ofPart?_thinned h hs, hs.hasWord_eq (by decide : "async" ≠ "comment")]

theorem FunctionRecord.ofDeclaration?_thinned (h : t.Thinned u) (hr : RelatesParameters t u P r)
    (hP : s.node.Everywhere P) (hs : s.node.Thinned s'.node) (exported : List String) :
    Option.Rel (Agree r) (ofDeclaration? t exported s) (ofDeclaration? u exported s') := by
  unfold ofDeclaration?
  rw [hs.kind_eq]
  split
  · refine (hs.part? "name").rel_map fun c c' _ hc => ?_
    simp only [h.text_eq hc]
    exact ofSite_thinned h hr hP hs _ _ _
  · exact .none

theorem FunctionRecord.ofMember?_thinned (h : t.Thinned u) (hr : RelatesParameters t u P r)
    (hP : s.node.Everywhere P) (hs : s.node.Thinned s'.node) :
    Option.Rel (Agree r) (ofMember? t s) (ofMember? u s') := by
  unfold ofMember?
  rw [hs.kind_eq, memberName?_thinned h hs, isPrivateMember_thinned h hs]
  split
  · cases (memberName? t s.node).filter (· != "constructor") with
    | none => exact .none
    | some name => exact .some (ofSite_thinned h hr hP hs _ _ _)
  · exact .none

/-! ### Properties -/

theorem PropertyRecord.ofMember?_thinned (h : t.Thinned u) (hs : s.node.Thinned s'.node) :
    ofMember? u s' = ofMember? t s := by
  simp only [ofMember?, hs.kind_eq, memberName?_thinned h hs, isPrivateMember_thinned h hs,
    TypeText.ofPart?_thinned h hs, hs.hasWord_eq (by decide : "static" ≠ "comment")]

theorem PropertyRecord.ofSignature?_thinned (h : t.Thinned u) (hn : n.Thinned n') :
    ofSignature? u n' = ofSignature? t n := by
  unfold ofSignature?
  rw [hn.kind_eq]
  split
  · refine ((hn.part? "name").filter fun _ _ hc => by rw [hc.kind_eq]).map_eq fun c c' hc => ?_
    rw [h.text_eq hc, TypeText.ofPart?_thinned h hn]
  · rfl

/-! ### Classes -/

namespace ClassRecord

theorem heritage_thinned (hn : n.Thinned n') : Thinned (heritage n) (heritage n') := by
  have hk := hn.find?_kind (by decide : "class_heritage" ≠ "comment")
  unfold heritage
  cases hc : n.namedChildren.find? (·.kind == "class_heritage") with
  | none =>
      rw [hk.none hc]
      exact .nil
  | some c =>
      obtain ⟨c', hc', hcc⟩ := hk.some hc
      rw [hc']
      exact hcc.namedChildren

/-- The clauses of one kind are kept. -/
theorem filter_heritage_thinned (hn : n.Thinned n') (kind : String) :
    Thinned ((heritage n).filter (·.kind == kind)) ((heritage n').filter (·.kind == kind)) :=
  (heritage_thinned hn).filter fun _ _ hc => by rw [hc.kind_eq]

theorem base?_thinned (h : t.Thinned u) (hn : n.Thinned n') : base? u n' = base? t n := by
  have hclause : ∀ c ∈ (heritage n).filter (·.kind == "extends_clause"), ¬ c.IsComment := by
    intro c hmem hc
    have hk := (List.mem_filter.mp hmem).2
    rw [hc.kind_eq] at hk
    exact absurd hk (by decide)
  refine ((filter_heritage_thinned hn "extends_clause").getLast? hclause).bind_eq fun c c' hc => ?_
  exact ((hc.part? "value").filter fun _ _ hv => by rw [hv.kind_eq]).map_eq fun _ _ hv => h.text_eq hv

theorem interfaceName?_thinned (h : t.Thinned u) (hn : n.Thinned n') :
    interfaceName? u n' = interfaceName? t n := by
  have hname : ((n'.part? "name").filter (·.kind == "type_identifier")).map u.text =
      ((n.part? "name").filter (·.kind == "type_identifier")).map t.text :=
    ((hn.part? "name").filter fun _ _ hv => by rw [hv.kind_eq]).map_eq fun _ _ hv => h.text_eq hv
  unfold interfaceName?
  rw [hn.kind_eq, h.text_eq hn, hname]

theorem interfaceNames_thinned (h : t.Thinned u) (hn : n.Thinned n') :
    interfaceNames u n' = interfaceNames t n := by
  refine (filter_heritage_thinned hn "implements_clause").flatMap_eq (fun c hc => ?_) fun c c' hc => ?_
  · rw [Node.namedChildren, hc.children_eq]
    rfl
  · refine hc.namedChildren.filterMap_eq (fun d hd => ?_) fun d d' hd => interfaceName?_thinned h hd
    simp [interfaceName?, hd.kind_eq]

/-! ### Members of classes -/

theorem map_node_among (p : Site) (before cs : List Node) :
    (Site.among p before cs).map (·.node) = cs := by
  induction cs generalizing before with
  | nil => rfl
  | cons c cs ih => rw [Site.among, List.map_cons, ih]; rfl

/-- The members of a class are the named children of its body. -/
theorem map_node_members (s : Site) :
    (members s).map (·.node) = ((s.node.part? "body").map (·.namedChildren)).getD [] := by
  have hchildren : ∀ s : Site, s.children.map (·.node) = s.node.children := fun s =>
    map_node_among s [] s.node.children
  have hbody : (s.part? "body").map (·.node) = s.node.part? "body" := by
    rw [Site.part?, Node.part?, ← hchildren, List.find?_map]
    rfl
  rw [members, ← hbody]
  cases s.part? "body" with
  | none => rfl
  | some body =>
      rw [Option.map_some, Option.map_some, Option.getD_some, Node.namedChildren, ← hchildren,
        List.filter_map]
      rfl

theorem members_thinned (hs : s.node.Thinned s'.node) :
    Thinned ((members s).map (·.node)) ((members s').map (·.node)) := by
  rw [map_node_members, map_node_members]
  exact hs.namedChildren_part? "body"

theorem everywhere_of_mem_members (hP : s.node.Everywhere P) : ∀ m ∈ members s, m.node.Everywhere P := by
  intro m hm
  have hmem : m.node ∈ (members s).map (·.node) := List.mem_map_of_mem hm
  rw [map_node_members] at hmem
  cases hc : s.node.part? "body" with
  | none => simp [hc] at hmem
  | some c =>
      rw [hc] at hmem
      exact (hP.of_part? hc).of_mem (List.mem_of_mem_filter hmem)

theorem ofDeclaration?_thinned (h : t.Thinned u) (hr : RelatesParameters t u P r)
    (hP : s.node.Everywhere P) (hs : s.node.Thinned s'.node) (exported : List String) :
    Option.Rel (Agree r) (ofDeclaration? t exported s) (ofDeclaration? u exported s') := by
  have hmethods : List.Forall₂ (FunctionRecord.Agree r)
      ((members s).filterMap (FunctionRecord.ofMember? t))
      ((members s').filterMap (FunctionRecord.ofMember? u)) := by
    refine (members_thinned hs).forall₂_filterMap (fun m hm => ?_) fun m hmem m' hm => ?_
    · simp [FunctionRecord.ofMember?, hm.kind_eq]
    · exact FunctionRecord.ofMember?_thinned h hr (everywhere_of_mem_members hP m hmem) hm
  have hproperties : (members s').filterMap (PropertyRecord.ofMember? u) =
      (members s).filterMap (PropertyRecord.ofMember? t) := by
    refine (members_thinned hs).filterMap_sites_eq (fun m hm => ?_) fun m m' hm =>
      PropertyRecord.ofMember?_thinned h hm
    simp [PropertyRecord.ofMember?, hm.kind_eq]
  unfold ofDeclaration?
  rw [hs.kind_eq]
  split
  · refine (hs.part? "name").rel_map fun c c' _ hc => ⟨hmethods, ?_⟩
    simp only [h.text_eq hc, hproperties, base?_thinned h hs, interfaceNames_thinned h hs]
  · exact .none

end ClassRecord

/-! ### Interfaces and type aliases -/

theorem InterfaceRecord.ofDeclaration?_thinned (h : t.Thinned u) (hn : n.Thinned n')
    (exported : List String) : ofDeclaration? u exported n' = ofDeclaration? t exported n := by
  have hmembers :
      (((n'.part? "body").map (·.namedChildren)).getD []).filterMap (PropertyRecord.ofSignature? u) =
        (((n.part? "body").map (·.namedChildren)).getD []).filterMap
          (PropertyRecord.ofSignature? t) := by
    refine (hn.namedChildren_part? "body").filterMap_eq (fun c hc => ?_) fun _ _ =>
      PropertyRecord.ofSignature?_thinned h
    simp [PropertyRecord.ofSignature?, hc.kind_eq]
  unfold ofDeclaration?
  rw [hn.kind_eq]
  split
  · exact (hn.part? "name").map_eq fun c c' hc => by simp only [h.text_eq hc, hmembers]
  · rfl

theorem AliasRecord.ofDeclaration?_thinned (h : t.Thinned u) (hn : n.Thinned n')
    (exported : List String) : ofDeclaration? u exported n' = ofDeclaration? t exported n := by
  unfold ofDeclaration?
  rw [hn.kind_eq]
  split
  · exact (hn.part? "name").map_eq fun c c' hc => by simp only [h.text_eq hc]
  · rfl

end Declarations

/-! ### Exported names -/

namespace Exported

theorem namesOf_thinned (h : t.Thinned u) (hn : n.Thinned n') : namesOf u n' = namesOf t n := by
  have hname : (n'.part? "name").map u.text = (n.part? "name").map t.text :=
    (hn.part? "name").map_eq fun _ _ hc => h.text_eq hc
  have hvariables :
      (n'.namedChildren.filter (·.kind == "variable_declarator")).filterMap
          (fun d => ((d.part? "name").filter (·.kind == "identifier")).map u.text) =
        (n.namedChildren.filter (·.kind == "variable_declarator")).filterMap
          (fun d => ((d.part? "name").filter (·.kind == "identifier")).map t.text) := by
    refine (hn.filter_kind "variable_declarator").filterMap_eq (fun c hc => ?_) fun c c' hc => ?_
    · simp [Node.part?, hc.children_eq]
    · exact ((hc.part? "name").filter fun _ _ hv => by rw [hv.kind_eq]).map_eq fun _ _ hv =>
        h.text_eq hv
  rw [namesOf, namesOf, hn.kind_eq, hname, hvariables]

theorem declarationsOf_thinned (hn : n.Thinned n') :
    Thinned (declarationsOf n) (declarationsOf n') := by
  unfold declarationsOf
  rw [hn.kind_eq, hn.hasWord_eq (by decide)]
  split
  · exact hn.namedChildren.filter fun _ _ hc => by rw [hc.field_eq]
  · exact .nil

theorem names_thinned (h : t.Thinned u) : names u = names t := by
  refine ((thinned_sites h.root).flatMap (fun c hc => ?_) fun _ _ => declarationsOf_thinned).flatMap_eq
    (fun c hc => ?_) fun _ _ => namesOf_thinned h
  · simp [declarationsOf, hc.kind_eq]
  · simp [namesOf, hc.kind_eq, namedKinds, variableKinds]

end Exported

/-! ### Imports -/

namespace ImportRecord

theorem nameText_thinned (h : t.Thinned u) (hn : n.Thinned n') : nameText u n' = nameText t n := by
  rw [nameText, nameText, hn.kind_eq, h.text_eq hn]

theorem namesOf_thinned (h : t.Thinned u) (hn : n.Thinned n') : namesOf u n' = namesOf t n := by
  have hspace : (n'.namedChildren.find? (·.kind == "identifier")).map u.text =
      (n.namedChildren.find? (·.kind == "identifier")).map t.text :=
    (hn.find?_kind (by decide)).map_eq fun _ _ hc => h.text_eq hc
  have hnames :
      (n'.namedChildren.filter (·.kind == "import_specifier")).filterMap
          (fun s => ((s.part? "alias").or (s.part? "name")).map (nameText u)) =
        (n.namedChildren.filter (·.kind == "import_specifier")).filterMap
          (fun s => ((s.part? "alias").or (s.part? "name")).map (nameText t)) := by
    refine (hn.filter_kind "import_specifier").filterMap_eq (fun c hc => ?_) fun c c' hc => ?_
    · simp [Node.part?, hc.children_eq]
    · exact ((hc.part? "alias").or (hc.part? "name")).map_eq fun _ _ hv => nameText_thinned h hv
  unfold namesOf
  rw [hn.kind_eq, h.text_eq hn, hspace, hnames]

theorem bindings_thinned (hn : n.Thinned n') : Thinned (bindings n) (bindings n') := by
  have hk := hn.find?_kind (by decide : "import_clause" ≠ "comment")
  unfold bindings
  cases hc : n.namedChildren.find? (·.kind == "import_clause") with
  | none =>
      rw [hk.none hc]
      exact .nil
  | some c =>
      obtain ⟨c', hc', hcc⟩ := hk.some hc
      rw [hc']
      exact hcc.namedChildren

theorem ofStatement_thinned (h : t.Thinned u) (hn : n.Thinned n') :
    ofStatement u n' = ofStatement t n := by
  have hnames : (bindings n').flatMap (namesOf u) = (bindings n).flatMap (namesOf t) := by
    refine (bindings_thinned hn).flatMap_eq (fun c hc => ?_) fun _ _ => namesOf_thinned h
    simp [namesOf, hc.kind_eq]
  have hdefault : (bindings n').any (·.kind == "identifier") =
      (bindings n).any (·.kind == "identifier") := by
    refine (bindings_thinned hn).any_eq (fun c hc => ?_) fun c c' hc => ?_
    · rw [hc.kind_eq]
      rfl
    · rw [hc.kind_eq]
  have hsource : ∀ c ∈ n.namedChildren.filter fun c => c.field == some "source" && c.kind == "string",
      ¬ c.IsComment := by
    intro c hmem hc
    have hk := (List.mem_filter.mp hmem).2
    rw [hc.kind_eq] at hk
    simp at hk
  unfold ofStatement
  rw [hn.kind_eq, hnames, hdefault]
  split
  · refine (hn.namedChildren.filter fun _ _ hc => by rw [hc.kind_eq, hc.field_eq]).map_eq hsource
      fun c c' hc => ?_
    rw [nameText_thinned h hc]
  · rfl

theorem ofTree_thinned (h : t.Thinned u) : ofTree u = ofTree t := by
  refine (thinned_sites h.root).flatMap_eq (fun c hc => ?_) fun _ _ => ofStatement_thinned h
  simp [ofStatement, hc.kind_eq]

end ImportRecord

/-! ### Files -/

namespace FileRecord

/-- Whatever relates the parameters of the functions in a tree to those in the thinned tree
relates the records of both. -/
theorem agree_ofTree {P : Node → Prop} {r : ParameterRecord → ParameterRecord → Prop}
    (h : t.Thinned u) (hP : t.root.Everywhere P) (hr : RelatesParameters t u P r)
    (path relativePath : String) :
    (ofTree path relativePath t).Agree r (ofTree path relativePath u) := by
  have hsites := thinned_sites h.root
  have hexported := Exported.names_thinned h
  refine ⟨?_, ?_, ?_⟩
  · unfold ofTree
    rw [hexported]
    refine hsites.forall₂_filterMap (fun s hs => ?_) fun s hmem s' hs =>
      FunctionRecord.ofDeclaration?_thinned h hr (hP.of_mem_sites s hmem) hs _
    simp [FunctionRecord.ofDeclaration?, hs.kind_eq]
  · unfold ofTree
    rw [hexported]
    refine hsites.forall₂_filterMap (fun s hs => ?_) fun s hmem s' hs =>
      ClassRecord.ofDeclaration?_thinned h hr (hP.of_mem_sites s hmem) hs _
    simp [ClassRecord.ofDeclaration?, hs.kind_eq]
  · have hinterfaces :
        u.root.sites.filterMap (fun s => InterfaceRecord.ofDeclaration? u (Exported.names t) s.node) =
          t.root.sites.filterMap fun s =>
            InterfaceRecord.ofDeclaration? t (Exported.names t) s.node := by
      refine hsites.filterMap_sites_eq (fun s hs => ?_) fun s s' hs =>
        InterfaceRecord.ofDeclaration?_thinned h hs _
      simp [InterfaceRecord.ofDeclaration?, hs.kind_eq]
    have haliases :
        u.root.sites.filterMap (fun s => AliasRecord.ofDeclaration? u (Exported.names t) s.node) =
          t.root.sites.filterMap fun s => AliasRecord.ofDeclaration? t (Exported.names t) s.node := by
      refine hsites.filterMap_sites_eq (fun s hs => ?_) fun s s' hs =>
        AliasRecord.ofDeclaration?_thinned h hs _
      simp [AliasRecord.ofDeclaration?, hs.kind_eq]
    simp only [ofTree, hexported, ImportRecord.ofTree_thinned h, hinterfaces, haliases]

/-- If comments are taken away from a tree without errors, there are none after that either.  The
record of the tree stays the same apart from descriptions, and apart from parameters that were
placeholders; and if no rest pattern begins with a comment it stays the same apart from
descriptions. -/
theorem agree_of_thinned (h : t.Thinned u) (path relativePath : String) :
    (u.root.firstFault? = none ↔ t.root.firstFault? = none) ∧
    (ofTree path relativePath t).Agree (fun p q => p = q ∨ p = .placeholder)
      (ofTree path relativePath u) ∧
    ((t.root.Everywhere fun n => n.kind = "rest_pattern" → ¬ n.BeginsWithComment) →
      (ofTree path relativePath t).Agree Eq (ofTree path relativePath u)) := by
  refine ⟨?_, ?_, fun hP => ?_⟩
  · have hfaulty : u.root.faulty = t.root.faulty := h.root.faulty_eq
    unfold Node.firstFault?
    rw [hfaulty]
    split <;> simp
  · have hall := Node.Everywhere.of_forall (fun _ => trivial) t.root
    refine agree_ofTree h hall (fun p p' _ hp => ?_) path relativePath
    rcases ParameterRecord.ofNode_thinned h hp with heq | ⟨hplaceholder, -⟩
    · exact .inl heq
    · exact .inr hplaceholder
  · refine agree_ofTree h hP (fun p p' hPp hp => ?_) path relativePath
    rcases ParameterRecord.ofNode_thinned h hp with heq | ⟨-, q, hq, hrest, hb⟩
    · exact heq
    · exact absurd hb ((hPp.of_part? hq).here hrest)

/-- A function with a rest parameter, and with comments before and after the name of that. -/
def restTree (before after : List Node) : Tree :=
  let node (kind : String) (field : Option String) (start stop : Nat) (children : List Node) : Node :=
    ⟨kind, true, field, ⟨start, 0, start⟩, ⟨stop, 0, stop⟩, false, false, children⟩
  let pattern := node "rest_pattern" (some "pattern") 11 24
    (before ++ node "identifier" none 18 20 [] :: after)
  { source := .ofBytes "function f(.../**/xs/**/) {}".toUTF8
    root := node "program" none 0 28 [node "function_declaration" none 0 28
      [node "identifier" (some "name") 9 10 [],
        node "formal_parameters" (some "parameters") 10 25
          [node "required_parameter" none 11 24 [pattern]],
        node "statement_block" (some "body") 26 28 []]] }

/-- A comment of the sources of these trees. -/
def restComment (start : Nat) : Node :=
  ⟨"comment", true, none, ⟨start, 0, start⟩, ⟨start + 4, 0, start + 4⟩, false, false, []⟩

theorem isComment_restComment (start : Nat) : (restComment start).IsComment := ⟨rfl, rfl, rfl⟩

/-- The name of the rest parameter is recorded once the comment before it is taken away, and the
comment after it makes no difference. -/
theorem agree_of_thinned_restTree :
    (ofTree "" "" (restTree [restComment 14] [])).functions.map (·.parameters) = [[.placeholder]] ∧
    (ofTree "" "" (restTree [] [])).functions.map (·.parameters) =
      [[⟨"...xs", none, false, none⟩]] ∧
    (ofTree "" "" (restTree [restComment 14] [])).Agree (fun p q => p = q ∨ p = .placeholder)
      (ofTree "" "" (restTree [] [])) ∧
    (ofTree "" "" (restTree [] [restComment 20])).Agree Eq (ofTree "" "" (restTree [] [])) := by
  have hc := fun start => isComment_restComment start
  have hbefore : (restTree [restComment 14] []).Thinned (restTree [] []) :=
    ⟨rfl, ⟨.keep (.keep .nil (.keep (.keep (.keep (.drop (hc 14) (.keep .nil .nil)) .nil) .nil)
      (.keep .nil .nil))) .nil⟩⟩
  have hafter : (restTree [] [restComment 20]).Thinned (restTree [] []) :=
    ⟨rfl, ⟨.keep (.keep .nil (.keep (.keep (.keep (.keep .nil (.drop (hc 20) .nil)) .nil) .nil)
      (.keep .nil .nil))) .nil⟩⟩
  refine ⟨by cbv, by cbv, (agree_of_thinned hbefore "" "").2.1, (agree_of_thinned hafter "" "").2.2 ?_⟩
  simp [restTree, restComment, Node.everywhere_mk, Node.BeginsWithComment, Node.namedChildren]

end FileRecord

end CodeSurvey
