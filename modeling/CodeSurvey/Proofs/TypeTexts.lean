import CodeSurvey.Extraction.TypeText
import CodeSurvey.Proofs.Thinned
import Mathlib

/-! # Types and their texts

The text of a type is compared with what the type says apart from its spelling: a `Form` is a name,
a function, an array or something else, and a type is the list of the forms of which it is the union
(`TypeText.forms`).  Parentheses and comments do not show in it, nor how unions are nested.

* `TypeText.shape` is what a type is at first sight.  Texts and forms are both made of the shape of a
  type and of what is made of the types in it (`memberTexts_eq`, `forms_eq`), so they are the same
  without comments (`eq_of_thinned`);
* `Respelled`: one type comes from another by adding and removing parentheses, by removing comments,
  and by nesting unions in another way, wherever types stand in it; such types have the same forms
  (`forms_eq_of_respelled`);
* a text joins the texts of the forms, as long as no union is empty (`tell_memberTexts`).  A union
  is empty if all its members are bare words, since these are no constituents.

So the text of a type is that of its forms, and is the same however the type is spelled
(`ofType_spec`). -/

namespace CodeSurvey
namespace TypeText

/-! ### Shapes -/

/-- What a type is at first sight, with something for each type in it. -/
inductive Shape (α : Type) where
  | name (text : String)
  | function
  | unknown
  | array (element : α)
  | union (members : List α)
  | parenthesized (inner : α)

namespace Shape

variable {α β : Type}

/-- A name, if it is known. -/
def nameIf (p : Prop) [Decidable p] (text : String) : Shape α := if p then name text else unknown

/-- The shape that a node gives, if there is one. -/
def ofNode? (o : Option Node) (f : Node → Shape α) : Shape α := (o.map f).getD unknown

/-- The types in a type. -/
def nodes : Shape α → List α
  | name _ | function | unknown => []
  | array c | parenthesized c => [c]
  | union cs => cs

/-- Change what there is for each type in a type. -/
def map (f : α → β) : Shape α → Shape β
  | name s => name s
  | function => function
  | unknown => unknown
  | array c => array (f c)
  | union cs => union (cs.map f)
  | parenthesized c => parenthesized (f c)

/-- Whether two shapes are the same but for the types in them, which are related. -/
inductive Rel (r : α → α → Prop) : Shape α → Shape α → Prop
  | name (s : String) : Rel r (name s) (name s)
  | function : Rel r function function
  | unknown : Rel r unknown unknown
  | array {c c' : α} (h : r c c') : Rel r (array c) (array c')
  | union {cs cs' : List α} (h : List.Forall₂ r cs cs') : Rel r (union cs) (union cs')
  | parenthesized {c c' : α} (h : r c c') : Rel r (parenthesized c) (parenthesized c')

variable {r : α → α → Prop} {s s' : Shape α} {c : α}

theorem nodes_nameIf (p : Prop) [Decidable p] (text : String) :
    (nameIf p text : Shape α).nodes = [] := by
  unfold nameIf
  split <;> rfl

theorem mem_nodes_ofNode? {o : Option Node} {f : Node → Shape α} (h : c ∈ (ofNode? o f).nodes) :
    ∃ d, o = some d ∧ c ∈ (f d).nodes := by
  cases o with
  | none => cases h
  | some d => exact ⟨d, rfl, h⟩

/-- What is made of a node is all that its shape shows of it, if it shows the node at all. -/
theorem map_ofNode? {o : Option Node} {f : Node → Shape α} {φ : α → β} {ψ : Node → β}
    {g : β → Shape β} (h : ∀ c, (f c).map φ = g (ψ c)) :
    (ofNode? o f).map φ = ((o.map ψ).map g).getD unknown := by
  cases o with
  | none => rfl
  | some c => exact h c

theorem rel_nameIf (p : Prop) [Decidable p] (text : String) :
    (nameIf p text).Rel r (nameIf p text) := by
  unfold nameIf
  split
  · exact .name text
  · exact .unknown

theorem rel_ofNode? {o o' : Option Node} {f g : Node → Shape α} (h : Kept o o')
    (hf : ∀ c c', c.Thinned c' → (f c).Rel r (g c')) : (ofNode? o f).Rel r (ofNode? o' g) := by
  cases o with
  | none =>
      rw [h.none rfl]
      exact .unknown
  | some c =>
      obtain ⟨c', rfl, hc⟩ := h.some rfl
      exact hf c c' hc

/-- Shapes with related types in them are the same once the same is made of these. -/
theorem Rel.map_eq {f g : α → β} (h : s.Rel r s') (hf : ∀ c ∈ s.nodes, ∀ c', r c c' → f c = g c') :
    s.map f = s'.map g := by
  cases h with
  | name | function | unknown => rfl
  | array h => exact congrArg Shape.array (hf _ List.mem_cons_self _ h)
  | parenthesized h => exact congrArg Shape.parenthesized (hf _ List.mem_cons_self _ h)
  | @union cs cs' h =>
      have hmem : List.Forall₂ (fun c c' => (∀ d, r c d → f c = g d) ∧ r c c') cs cs' :=
        (List.forall₂_and_left _ _).mpr ⟨hf, h⟩
      have heq : List.Forall₂ (· = ·) (cs.map f) (cs'.map g) :=
        List.forall₂_map_left_iff.mpr
          (List.forall₂_map_right_iff.mpr (hmem.imp fun c c' hc => hc.1 c' hc.2))
      rw [List.forall₂_eq_eq_eq] at heq
      exact congrArg Shape.union heq

end Shape

/-- The shape of a type. -/
def shape (t : Tree) (n : Node) : Shape Node :=
  match n.kind with
  | "union_type" => .union n.constituents
  | "predefined_type" => .nameIf (t.text n ∈ builtIn) (t.text n)
  | "literal_type" =>
    .ofNode? n.constituents.head? fun c => .nameIf (c.kind ∈ ["null", "undefined"]) c.kind
  | "type_identifier" => .name (t.text n)
  | "generic_type" =>
    .ofNode? (n.part? "name") fun c => .nameIf (c.kind = "type_identifier") (t.text c)
  | "array_type" => .ofNode? n.constituents.head? .array
  | "function_type" => .function
  | "parenthesized_type" => .ofNode? n.constituents.head? .parenthesized
  | _ => .unknown

variable {t u : Tree} {n n' c c' : Node}

theorem shape_union (t : Tree) (hk : n.kind = "union_type") : shape t n = .union n.constituents := by
  simp only [shape, hk]

theorem shape_array (t : Tree) (hk : n.kind = "array_type") (hc : n.constituents.head? = some c) :
    shape t n = .array c := by
  simp only [shape, hk, hc]
  rfl

theorem shape_parenthesized (t : Tree) (hk : n.kind = "parenthesized_type")
    (hc : n.constituents.head? = some c) : shape t n = .parenthesized c := by
  simp only [shape, hk, hc]
  rfl

theorem shape_ne_union (t : Tree) (hk : n.kind ≠ "union_type") (cs : List Node) :
    shape t n ≠ .union cs := by
  have hname : ∀ {p : Prop} [Decidable p] {s : String}, Shape.nameIf p s ≠ .union cs := by
    intro p _ s
    unfold Shape.nameIf
    split <;> simp
  have hnode : ∀ {o : Option Node} {f : Node → Shape Node}, (∀ d, f d ≠ .union cs) →
      Shape.ofNode? o f ≠ .union cs := by
    intro o f hf
    cases o with
    | none => simp [Shape.ofNode?]
    | some d => exact hf d
  unfold shape
  split
  · contradiction
  · exact hname
  · exact hnode fun _ => hname
  · simp
  · exact hnode fun _ => hname
  · exact hnode fun _ => by simp
  · simp
  · exact hnode fun _ => by simp
  · simp

theorem mem_constituents_of_mem_nodes (h : c ∈ (shape t n).nodes) : c ∈ n.constituents := by
  have hname : ∀ {o : Option Node} {p : Node → Prop} [DecidablePred p] {f : Node → String},
      c ∉ (Shape.ofNode? o fun d => .nameIf (p d) (f d)).nodes := by
    intro o p _ f hc
    obtain ⟨d, -, hd⟩ := Shape.mem_nodes_ofNode? hc
    rw [Shape.nodes_nameIf] at hd
    cases hd
  have hhead : ∀ {f : Node → Shape Node}, (∀ d, (f d).nodes = [d]) →
      c ∈ (Shape.ofNode? n.constituents.head? f).nodes → c ∈ n.constituents := by
    intro f hf hc
    obtain ⟨d, hd, hcd⟩ := Shape.mem_nodes_ofNode? hc
    rw [hf, List.mem_singleton] at hcd
    exact hcd ▸ List.mem_of_head? hd
  unfold shape at h
  split at h
  · exact h
  · rw [Shape.nodes_nameIf] at h
    cases h
  · exact absurd h hname
  · cases h
  · exact absurd h hname
  · exact hhead (fun _ => rfl) h
  · cases h
  · exact hhead (fun _ => rfl) h
  · cases h

/-- What holds of a type if it holds of the types in it holds of all types. -/
theorem shape_induction (t : Tree) {P : Node → Prop}
    (h : ∀ n, (∀ c ∈ (shape t n).nodes, P c) → P n) (n : Node) : P n :=
  h n fun c _ => shape_induction t h c
termination_by sizeOf n
decreasing_by exact Node.sizeOf_lt_of_mem_constituents (mem_constituents_of_mem_nodes ‹_›)

/-- Without some of the comments in it a type has the same shape. -/
theorem shape_thinned (h : u.source = t.source) (hn : n.Thinned n') :
    (shape t n).Rel Node.Thinned (shape u n') := by
  have htext : ∀ {c c' : Node}, c.Thinned c' → u.text c' = t.text c := by
    rintro c _ ⟨-⟩
    rw [Tree.text, Tree.text, h]
  unfold shape
  rw [hn.kind_eq, htext hn]
  split
  · exact .union (hn.constituents.imp fun _ _ hc => hc.2)
  · exact Shape.rel_nameIf _ _
  · refine Shape.rel_ofNode? hn.head?_constituents fun c c' hc => ?_
    rw [hc.kind_eq]
    exact Shape.rel_nameIf _ _
  · exact .name _
  · refine Shape.rel_ofNode? (hn.part? "name") fun c c' hc => ?_
    rw [hc.kind_eq, htext hc]
    exact Shape.rel_nameIf _ _
  · exact Shape.rel_ofNode? hn.head?_constituents fun _ _ => .array
  · exact .function
  · exact Shape.rel_ofNode? hn.head?_constituents fun _ _ => .parenthesized
  · exact .unknown

/-- What is made of shapes is the same without some of the comments. -/
theorem eq_of_thinned {β : Type} {f : Tree → Node → β} {g : Shape β → β}
    (hf : ∀ t n, f t n = g ((shape t n).map (f t))) (h : u.source = t.source) (hn : n.Thinned n') :
    f t n = f u n' := by
  induction n using shape_induction t generalizing n' with
  | h n ih => rw [hf, hf u, (shape_thinned h hn).map_eq fun c hc _ => ih c hc]

/-! ### Texts -/

/-- The texts of the members of a type, given those of the types in it. -/
def Shape.texts : Shape (List String) → List String
  | name s => [s]
  | function => ["Function"]
  | unknown => [TypeText.unknown]
  | array ts => [" | ".intercalate ts ++ "[]"]
  | union tss => tss.flatten
  | parenthesized ts => [" | ".intercalate ts]

theorem memberTexts_eq (t : Tree) (n : Node) :
    memberTexts t n = ((shape t n).map (memberTexts t)).texts := by
  have hname : ∀ {p : Prop} [Decidable p] {s : String},
      [if p then s else unknown] = ((Shape.nameIf p s).map (memberTexts t)).texts := by
    intro p _ s
    unfold Shape.nameIf
    split <;> rfl
  rw [memberTexts]
  split
  next hk => simp [shape, hk, Shape.map, Shape.texts, List.flatMap]
  next hk =>
      simp only [shape, hk]
      exact hname
  next hk =>
      simp only [shape, hk]
      cases n.constituents.head? with
      | none => rfl
      | some c => exact hname
  next hk =>
      simp only [shape, hk]
      rfl
  next hk =>
      simp only [shape, hk]
      cases n.part? "name" with
      | none => rfl
      | some c => exact hname
  next hk =>
      split
      next c hc =>
          rw [shape_array t hk hc]
          rfl
      next hc =>
          simp only [shape, hk, hc]
          rfl
  next hk =>
      simp only [shape, hk]
      rfl
  next hk =>
      split
      next c hc =>
          rw [shape_parenthesized t hk hc]
          rfl
      next hc =>
          simp only [shape, hk, hc]
          rfl
  next =>
      simp only [shape, *]
      rfl

/-! ### Forms -/

/-- What a type is apart from its spelling, if it is no union. -/
inductive Form where
  | name (text : String)
  | function
  | unknown
  /-- An array of a union. -/
  | array (members : List Form)

namespace Form

mutual

/-- The text of a form. -/
def text : Form → String
  | name s => s
  | function => "Function"
  | unknown => TypeText.unknown
  | array ms => " | ".intercalate (texts ms) ++ "[]"

/-- The texts of forms. -/
def texts : List Form → List String
  | [] => []
  | f :: fs => text f :: texts fs

end

theorem texts_eq_map (fs : List Form) : texts fs = fs.map text := by
  induction fs with
  | nil => rw [texts, List.map_nil]
  | cons f fs ih => rw [texts, ih, List.map_cons]

/-- The text of a union. -/
def joined (fs : List Form) : String := " | ".intercalate (fs.map text)

theorem joined_singleton (f : Form) : joined [f] = f.text := by
  rw [joined, List.map_singleton, String.intercalate_singleton]

theorem text_array (ms : List Form) : (array ms).text = joined ms ++ "[]" := by
  rw [text, texts_eq_map, joined]

end Form

/-- The forms of which a type is the union, given those of the types in it. -/
def Shape.forms : Shape (List Form) → List Form
  | name s => [.name s]
  | function => [.function]
  | unknown => [.unknown]
  | array fs => [.array fs]
  | union fss => fss.flatten
  | parenthesized fs => fs

/-- The forms of which a type is the union. -/
def forms (t : Tree) (n : Node) : List Form :=
  match h : shape t n with
  | .name s => [.name s]
  | .function => [.function]
  | .unknown => [.unknown]
  | .array c =>
    have : c ∈ (shape t n).nodes := h ▸ List.mem_cons_self
    [.array (forms t c)]
  | .union cs =>
    cs.attach.flatMap fun ⟨c, hc⟩ =>
      have : c ∈ (shape t n).nodes := h ▸ hc
      forms t c
  | .parenthesized c =>
    have : c ∈ (shape t n).nodes := h ▸ List.mem_cons_self
    forms t c
termination_by sizeOf n
decreasing_by
  all_goals exact Node.sizeOf_lt_of_mem_constituents (mem_constituents_of_mem_nodes ‹_›)

theorem forms_eq (t : Tree) (n : Node) : forms t n = ((shape t n).map (forms t)).forms := by
  rw [forms]
  split <;> simp [*, Shape.map, Shape.forms, List.flatMap]

theorem forms_union (t : Tree) (hk : n.kind = "union_type") :
    forms t n = n.constituents.flatMap (forms t) := by
  rw [forms_eq, shape_union t hk]
  rfl

theorem forms_parenthesized (t : Tree) (hk : n.kind = "parenthesized_type")
    (hc : n.constituents.head? = some c) : forms t n = forms t c := by
  rw [forms_eq, shape_parenthesized t hk hc]
  rfl

end TypeText

/-! ### Other spellings -/

/-- The members of a type, those of unions in it in their place; a type that is no union is its only
member. -/
def Node.unionMembers (n : Node) : List Node :=
  if n.kind = "union_type" then
    n.constituents.attach.flatMap fun ⟨c, h⟩ =>
      have := sizeOf_lt_of_mem_constituents h
      unionMembers c
  else [n]
termination_by sizeOf n

theorem Node.unionMembers_of_union {n : Node} (hk : n.kind = "union_type") :
    n.unionMembers = n.constituents.flatMap unionMembers := by
  rw [unionMembers, if_pos hk]
  simp

theorem Node.unionMembers_of_ne {n : Node} (hk : n.kind ≠ "union_type") : n.unionMembers = [n] := by
  rw [unionMembers, if_neg hk]

/-- Whether a node is a constituent of its parent. -/
def Node.IsConstituent (c : Node) : Prop := c.named = true ∧ c.kind ≠ "comment"

namespace TypeText

variable {t u : Tree} {n n' c c' : Node}

/-- Whether two types are spellings of one. -/
inductive Respelled : Node → Node → Prop
  | refl (n : Node) : Respelled n n
  | symm {n m : Node} (h : Respelled n m) : Respelled m n
  | trans {n m l : Node} (h : Respelled n m) (h' : Respelled m l) : Respelled n l
  /-- Add parentheses. -/
  | parentheses {n p : Node} (hp : p.kind = "parenthesized_type") (hn : p.constituents = [n]) :
      Respelled n p
  /-- Leave out some comments. -/
  | comments {n m : Node} (h : n.Thinned m) : Respelled n m
  /-- Nest unions in another way. -/
  | nesting {n m : Node} (hn : n.kind = "union_type") (hm : m.kind = "union_type")
      (h : n.unionMembers = m.unionMembers) : Respelled n m
  /-- Let a type play another part. -/
  | part (n : Node) (field : Option String) : Respelled n { n with field }
  /-- Spell a type in another type, or in any other construct that is no literal, in another way.
  It is not that construct's name. -/
  | inside {n c d : Node} {before after : List Node} (hn : n.kind ≠ "literal_type")
      (hchildren : n.children = before ++ c :: after) (hc : c.IsConstituent)
      (hd : d.IsConstituent) (hname : c.field ≠ some "name") (hfield : d.field = c.field)
      (h : Respelled c d) : Respelled n { n with children := before ++ d :: after }

theorem forms_unionMembers (t : Tree) (n : Node) : n.unionMembers.flatMap (forms t) = forms t n := by
  fun_induction Node.unionMembers n with
  | case1 n hk ih =>
      rw [List.flatMap_assoc, forms_union t hk, List.flatMap_congr fun c _ => ih c.1 c.2]
      simp
  | case2 n hk => simp

/-- What is read of the types in a type is all that its forms show of them. -/
theorem forms_eq_of_shape (h : (shape t n).map (forms t) = (shape t n').map (forms t)) :
    forms t n = forms t n' := by
  rw [forms_eq, h, ← forms_eq]

theorem map_shape_inside (t : Tree) {d : Node} {before after : List Node}
    (hn : n.kind ≠ "literal_type") (hchildren : n.children = before ++ c :: after)
    (hc : c.IsConstituent) (hd : d.IsConstituent) (hname : c.field ≠ some "name")
    (hfield : d.field = c.field) (h : forms t c = forms t d) :
    (shape t n).map (forms t) =
      (shape t { n with children := before ++ d :: after }).map (forms t) := by
  generalize hm : { n with children := before ++ d :: after } = m
  have hkind : m.kind = n.kind := by rw [← hm]
  have htext : t.text m = t.text n := by rw [← hm]; rfl
  have hconstituents : n.constituents.map (forms t) = m.constituents.map (forms t) := by
    rw [← hm, Node.constituents, Node.constituents, Node.namedChildren, Node.namedChildren, hchildren]
    simp [hc.1, hc.2, hd.1, hd.2, h]
  have hhead : n.constituents.head?.map (forms t) = m.constituents.head?.map (forms t) := by
    rw [← List.head?_map, hconstituents, List.head?_map]
  have hpart : m.part? "name" = n.part? "name" := by
    rw [← hm, Node.part?, Node.part?, hchildren]
    simp [List.find?_append, hname, hfield]
  unfold shape
  rw [hkind, htext, hpart]
  split
  · exact congrArg Shape.union hconstituents
  · rfl
  · contradiction
  · rfl
  · rfl
  · rw [Shape.map_ofNode? (g := .array) fun _ => rfl, Shape.map_ofNode? (g := .array) fun _ => rfl,
      hhead]
  · rfl
  · rw [Shape.map_ofNode? (g := .parenthesized) fun _ => rfl,
      Shape.map_ofNode? (g := .parenthesized) fun _ => rfl, hhead]
  · rfl

theorem forms_eq_of_respelled (t : Tree) (h : Respelled n n') : forms t n = forms t n' := by
  induction h with
  | refl => rfl
  | symm _ ih => exact ih.symm
  | trans _ _ ih ih' => exact ih.trans ih'
  | parentheses hp hn => exact (forms_parenthesized t hp (by rw [hn]; rfl)).symm
  | comments h => exact eq_of_thinned forms_eq rfl h
  | nesting hn hm h => rw [← forms_unionMembers, h, forms_unionMembers]
  | part => exact forms_eq_of_shape rfl
  | inside hn hchildren hc hd hname hfield _ ih =>
      exact forms_eq_of_shape (map_shape_inside t hn hchildren hc hd hname hfield ih)

/-! ### The text of a type -/

/-- Whether a node is no union without members. -/
def IsFilled (n : Node) : Prop := n.kind = "union_type" → n.constituents ≠ []

/-- Whether there are texts and forms, and the texts joined are the text of the forms. -/
structure Tell (ts : List String) (fs : List Form) : Prop where
  texts_ne_nil : ts ≠ []
  forms_ne_nil : fs ≠ []
  joined_eq : " | ".intercalate ts = Form.joined fs

namespace Tell

variable {ts ts' : List String} {fs fs' : List Form}

theorem singleton {s : String} (h : s = Form.joined fs) (hfs : fs ≠ []) : Tell [s] fs :=
  ⟨List.cons_ne_nil _ _, hfs, by rw [String.intercalate_singleton, h]⟩

theorem form {s : String} {f : Form} (h : s = f.text) : Tell [s] [f] :=
  singleton (by rw [Form.joined_singleton, h]) (List.cons_ne_nil _ _)

theorem append (h : Tell ts fs) (h' : Tell ts' fs') : Tell (ts ++ ts') (fs ++ fs') where
  texts_ne_nil := List.append_ne_nil_of_left_ne_nil h.texts_ne_nil _
  forms_ne_nil := List.append_ne_nil_of_left_ne_nil h.forms_ne_nil _
  joined_eq := by
    have hmap : ∀ {gs : List Form}, gs ≠ [] → gs.map Form.text ≠ [] := fun hgs =>
      hgs ∘ List.map_eq_nil_iff.mp
    rw [String.intercalate_append_of_ne_nil h.texts_ne_nil h'.texts_ne_nil, h.joined_eq,
      h'.joined_eq, Form.joined, Form.joined, Form.joined, List.map_append,
      String.intercalate_append_of_ne_nil (hmap h.forms_ne_nil) (hmap h'.forms_ne_nil)]

theorem flatMap {cs : List Node} {f : Node → List String} {g : Node → List Form} (hcs : cs ≠ [])
    (h : ∀ c ∈ cs, Tell (f c) (g c)) : Tell (cs.flatMap f) (cs.flatMap g) := by
  induction cs with
  | nil => contradiction
  | cons c cs ih =>
      rw [List.forall_mem_cons] at h
      rw [List.flatMap_cons, List.flatMap_cons]
      by_cases hne : cs = []
      · rw [hne, List.flatMap_nil, List.flatMap_nil, List.append_nil, List.append_nil]
        exact h.1
      · exact h.1.append (ih hne h.2)

end Tell

/-- If no union is empty, the text of a type is that of its forms. -/
theorem tell_memberTexts (t : Tree) (h : n.Everywhere IsFilled) :
    Tell (memberTexts t n) (forms t n) := by
  induction n using shape_induction t with
  | h n ih =>
      have hnodes : ∀ c ∈ (shape t n).nodes, Tell (memberTexts t c) (forms t c) := fun c hc =>
        ih c hc (h.of_mem_constituents (mem_constituents_of_mem_nodes hc))
      rw [memberTexts_eq, forms_eq]
      cases hs : shape t n with
      | name | function | unknown => exact .form (by rw [Form.text])
      | array c =>
          have hc := hnodes c (by rw [hs]; exact List.mem_cons_self)
          exact .form (by rw [Form.text_array, hc.joined_eq])
      | union cs =>
          have hk : n.kind = "union_type" := by_contra fun hk => shape_ne_union t hk cs hs
          rw [shape_union t hk] at hs hnodes
          cases hs
          exact .flatMap (h.here hk) hnodes
      | parenthesized c =>
          have hc := hnodes c (by rw [hs]; exact List.mem_cons_self)
          exact .singleton hc.joined_eq hc.forms_ne_nil

/-- If no union is empty, the text of a type is that of its forms, and that of any other spelling
of the type. -/
theorem ofType_spec (t : Tree) (n : Node) (h : n.Everywhere IsFilled) :
    ofType t n = Form.joined (forms t n) ∧
      ∀ n', n'.Everywhere IsFilled → Respelled n n' → ofType t n' = ofType t n := by
  have heq : ∀ {m : Node}, m.Everywhere IsFilled → ofType t m = Form.joined (forms t m) :=
    fun hm => (tell_memberTexts t hm).joined_eq
  refine ⟨heq h, fun n' h' hn => ?_⟩
  rw [heq h, heq h', forms_eq_of_respelled t hn]

/-- A node of a type in the text `A|B|C`. -/
def sampleNode (kind : String) (start stop : Nat) (children : List Node) : Node :=
  ⟨kind, true, none, ⟨start, 0, start⟩, ⟨stop, 0, stop⟩, false, false, children⟩

section Sample

variable {kind : String} {start stop : Nat} {cs ds : List Node}

@[simp] theorem kind_sampleNode : (sampleNode kind start stop cs).kind = kind := rfl

@[simp] theorem constituents_sampleNode : (sampleNode kind start stop cs).constituents =
    (cs.filter (·.named)).filter (·.kind != "comment") := rfl

@[simp] theorem named_sampleNode : (sampleNode kind start stop cs).named = true := rfl

theorem isConstituent_sampleNode (h : kind ≠ "comment") :
    (sampleNode kind start stop cs).IsConstituent :=
  ⟨rfl, h⟩

theorem everywhere_sampleNode {P : Node → Prop} : (sampleNode kind start stop cs).Everywhere P ↔
    P (sampleNode kind start stop cs) ∧ ∀ c ∈ cs, c.Everywhere P := Node.everywhere_mk

theorem thinned_sampleNode (h : Thinned cs ds) :
    (sampleNode kind start stop cs).Thinned (sampleNode kind start stop ds) :=
  Node.Thinned.mk h

theorem unionMembers_sampleUnion : (sampleNode "union_type" start stop cs).unionMembers =
    (sampleNode "union_type" start stop cs).constituents.flatMap Node.unionMembers :=
  Node.unionMembers_of_union rfl

theorem unionMembers_sampleName : (sampleNode "type_identifier" start stop cs).unionMembers =
    [sampleNode "type_identifier" start stop cs] :=
  Node.unionMembers_of_ne (by simp)

end Sample

/-- The members of a union may be parenthesized, have comments between them, and be nested to the
left or to the right. -/
theorem ofType_spec_sample :
    let t : Tree := { source := .ofBytes "A|B|C".toUTF8, root := sampleNode "union_type" 0 5 [] }
    let name start := sampleNode "type_identifier" start (start + 1) []
    let left := sampleNode "union_type" 0 5 [sampleNode "union_type" 0 3
      [sampleNode "parenthesized_type" 0 1 [name 0], sampleNode "comment" 2 2 [], name 2], name 4]
    let right := sampleNode "union_type" 0 5 [name 0, sampleNode "union_type" 2 5 [name 2, name 4]]
    ofType t left = "A | B | C" ∧ ofType t right = ofType t left := by
  intro t name left right
  let parenthesized := sampleNode "parenthesized_type" 0 1 [name 0]
  let inner := sampleNode "union_type" 0 3 [parenthesized, name 2]
  let bare := sampleNode "union_type" 0 3 [name 0, name 2]
  have hname : ∀ start, (name start).Thinned (name start) := fun _ => thinned_sampleNode .nil
  have hcomment : Respelled left (sampleNode "union_type" 0 5 [inner, name 4]) :=
    .comments (thinned_sampleNode (.cons (thinned_sampleNode (.cons
      (thinned_sampleNode (.cons (hname 0) .nil))
      (.drop ⟨rfl, rfl, rfl⟩ (.cons (hname 2) .nil)))) (.cons (hname 4) .nil)))
  have hparentheses : Respelled parenthesized (name 0) :=
    .symm (.parentheses rfl (by simp [parenthesized, name]))
  have hinner : Respelled inner bare :=
    .inside (n := inner) (by decide) (List.nil_append _).symm (isConstituent_sampleNode (by decide))
      (isConstituent_sampleNode (by decide)) nofun rfl hparentheses
  have houter : Respelled (sampleNode "union_type" 0 5 [inner, name 4])
      (sampleNode "union_type" 0 5 [bare, name 4]) :=
    .inside (n := sampleNode "union_type" 0 5 [inner, name 4]) (by decide) (List.nil_append _).symm
      (isConstituent_sampleNode (by decide)) (isConstituent_sampleNode (by decide)) nofun rfl hinner
  have hnesting : Respelled (sampleNode "union_type" 0 5 [bare, name 4]) right :=
    .nesting rfl rfl (by simp [unionMembers_sampleUnion, unionMembers_sampleName, right, name, bare])
  have hleft : left.Everywhere IsFilled := by
    simp [left, name, everywhere_sampleNode, IsFilled]
  have hright : right.Everywhere IsFilled := by
    simp [right, name, everywhere_sampleNode, IsFilled]
  exact ⟨by cbv, (ofType_spec t left hleft).2 right hright
    (.trans hcomment (.trans houter hnesting))⟩

end TypeText
end CodeSurvey
