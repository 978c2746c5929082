import CodeSurvey.Syntax.Site
import Mathlib.Data.List.Forall2
import Mathlib.Data.Option.Basic

/-! # Trees without some of their comments

`Thinned ts us` says that the siblings `us` are the siblings `ts` without some of the comments
among them and anywhere below them; all else is kept (`Node.Thinned`).

Whatever looks at the siblings and passes over comments finds the same in both: the siblings of
some kind (`Thinned.filter`), the first of some kind (`Thinned.find?`), and what is made of each
(`Thinned.flatMap_eq`, `Thinned.forall₂_filterMap`).  So do the operations on nodes that find a
part (`Node.Thinned.part?`) or what a construct is made of (`Node.Thinned.constituents`), and the
nodes below a thinned node are those below the node, thinned (`thinned_sites`). -/

namespace CodeSurvey

/-- A comment as it stands in a tree: it plays no part, and nothing is below it. -/
structure Node.IsComment (c : Node) : Prop where
  kind_eq : c.kind = "comment"
  field_eq : c.field = none
  children_eq : c.children = []

/-- Siblings without some of the comments among them and below them. -/
inductive Thinned : List Node → List Node → Prop
  | nil : Thinned [] []
  | drop {c : Node} {ts us : List Node} (hc : c.IsComment) (h : Thinned ts us) : Thinned (c :: ts) us
  | keep {n : Node} {cs ts us : List Node} (hn : Thinned n.children cs) (h : Thinned ts us) :
      Thinned (n :: ts) ({ n with children := cs } :: us)

/-- A node without some of the comments below it. -/
inductive Node.Thinned : Node → Node → Prop
  | mk {n : Node} {cs : List Node} (h : CodeSurvey.Thinned n.children cs) :
      Thinned n { n with children := cs }

/-- A tree without some of its comments.  The source is the same, and so are the places of the
nodes that are kept. -/
structure Tree.Thinned (t u : Tree) : Prop where
  source_eq : u.source = t.source
  root : t.root.Thinned u.root

/-- Whether there is a node in a thinned tree just if there is one in the tree, and then that, thinned. -/
structure Kept (o o' : Option Node) : Prop where
  none : o = none → o' = none
  some : ∀ {c}, o = some c → ∃ c', o' = some c' ∧ c.Thinned c'

variable {n n' : Node} {ts us : List Node}

/-! ### What is kept -/

namespace Node.Thinned

theorem kind_eq (h : n.Thinned n') : n'.kind = n.kind := by
  cases h
  rfl

theorem named_eq (h : n.Thinned n') : n'.named = n.named := by
  cases h
  rfl

theorem field_eq (h : n.Thinned n') : n'.field = n.field := by
  cases h
  rfl

theorem faulty_eq (h : n.Thinned n') : n'.faulty = n.faulty := by
  cases h
  rfl

theorem children (h : n.Thinned n') : CodeSurvey.Thinned n.children n'.children := by
  cases h with
  | mk h => exact h

end Node.Thinned

theorem Tree.Thinned.text_eq {t u : Tree} (h : t.Thinned u) (hn : n.Thinned n') :
    u.text n' = t.text n := by
  cases hn
  rw [Tree.text, Tree.text, h.source_eq]

/-! ### Single nodes -/

namespace Kept

variable {o o' : Option Node}

/-- What is made of a node is made of the thinned one. -/
theorem map_eq {β : Type} {f g : Node → β} (hf : ∀ c c', c.Thinned c' → g c' = f c)
    (h : Kept o o') : o'.map g = o.map f := by
  cases o with
  | none => rw [h.none rfl, Option.map_none, Option.map_none]
  | some c =>
      obtain ⟨c', rfl, hc⟩ := h.some rfl
      rw [Option.map_some, Option.map_some, hf c c' hc]

theorem bind_eq {β : Type} {f g : Node → Option β} (hf : ∀ c c', c.Thinned c' → g c' = f c)
    (h : Kept o o') : o'.bind g = o.bind f := by
  cases o with
  | none => rw [h.none rfl, Option.bind_none, Option.bind_none]
  | some c =>
      obtain ⟨c', rfl, hc⟩ := h.some rfl
      rw [Option.bind_some, Option.bind_some, hf c c' hc]

protected theorem filter {p : Node → Bool} (hp : ∀ c c', c.Thinned c' → p c' = p c)
    (h : Kept o o') : Kept (o.filter p) (o'.filter p) := by
  cases o with
  | none => exact ⟨fun _ => by rw [h.none rfl, Option.filter_none], nofun⟩
  | some c =>
      obtain ⟨c', rfl, hc⟩ := h.some rfl
      rw [Option.filter_some, Option.filter_some, hp c c' hc]
      split
      · exact ⟨nofun, fun e => ⟨c', rfl, Option.some.inj e ▸ hc⟩⟩
      · exact ⟨fun _ => rfl, nofun⟩

theorem rel_map {β : Type} {r : β → β → Prop} {f g : Node → β}
    (hf : ∀ c c', o = Option.some c → c.Thinned c' → r (f c) (g c')) (h : Kept o o') :
    Option.Rel r (o.map f) (o'.map g) := by
  cases o with
  | none =>
      rw [h.none rfl]
      exact .none
  | some c =>
      obtain ⟨c', rfl, hc⟩ := h.some rfl
      exact .some (hf c c' rfl hc)

theorem isSome_eq (h : Kept o o') : o'.isSome = o.isSome := by
  cases o with
  | none => rw [h.none rfl]
  | some c =>
      obtain ⟨c', rfl, -⟩ := h.some rfl
      rfl

protected theorem or {a a' : Option Node} (h : Kept o o') (ha : Kept a a') :
    Kept (o.or a) (o'.or a') := by
  cases o with
  | none => rwa [h.none rfl, Option.none_or, Option.none_or]
  | some c =>
      obtain ⟨c', rfl, hc⟩ := h.some rfl
      exact ⟨nofun, fun e => ⟨c', rfl, Option.some.inj e ▸ hc⟩⟩

end Kept

/-! ### Siblings -/

namespace Thinned

protected theorem cons (hn : n.Thinned n') (h : Thinned ts us) :
    Thinned (n :: ts) (n' :: us) := by
  cases hn with
  | mk hn => exact .keep hn h

protected theorem append {ts' us' : List Node} (h : Thinned ts us) (h' : Thinned ts' us') :
    Thinned (ts ++ ts') (us ++ us') := by
  induction h with
  | nil => exact h'
  | drop hc _ ih => exact .drop hc ih
  | keep hn _ _ ih => exact .keep hn ih

/-- Of nodes that are told by what is kept of them the same are left. -/
protected theorem filter {p : Node → Bool} (hp : ∀ n n', n.Thinned n' → p n' = p n)
    (h : Thinned ts us) : Thinned (ts.filter p) (us.filter p) := by
  induction h with
  | nil => exact .nil
  | @drop c _ _ hc _ ih =>
      rw [List.filter_cons]
      split
      · exact .drop hc ih
      · exact ih
  | @keep n cs _ _ hn _ _ ih =>
      rw [List.filter_cons, List.filter_cons, hp _ _ ⟨hn⟩]
      split
      · exact .keep hn ih
      · exact ih

/-- What is true of some node, but of no comment, is true of some node that is kept. -/
theorem any_eq {p q : Node → Bool} (hc : ∀ c : Node, c.IsComment → p c = false)
    (hp : ∀ n n', n.Thinned n' → q n' = p n) (h : Thinned ts us) : us.any q = ts.any p := by
  induction h with
  | nil => rfl
  | drop h _ ih => rw [List.any_cons, hc _ h, Bool.false_or, ih]
  | keep hn _ _ ih => rw [List.any_cons, List.any_cons, hp _ _ ⟨hn⟩, ih]

/-- The first node of which something is true that is true of no comment is kept. -/
theorem find? {p : Node → Bool} (hc : ∀ c : Node, c.IsComment → p c = false)
    (hp : ∀ n n', n.Thinned n' → p n' = p n) (h : Thinned ts us) :
    Kept (ts.find? p) (us.find? p) := by
  induction h with
  | nil => exact ⟨fun _ => rfl, nofun⟩
  | drop h _ ih =>
      rw [List.find?_cons, hc _ h]
      exact ih
  | @keep n cs _ _ hn _ _ ih =>
      rw [List.find?_cons, List.find?_cons, hp _ _ ⟨hn⟩]
      cases p n with
      | true => exact ⟨nofun, fun e => ⟨_, rfl, Option.some.inj e ▸ ⟨hn⟩⟩⟩
      | false => exact ih

/-- The first of siblings is kept if it is no comment. -/
theorem head? (hc : ∀ c ∈ ts.head?, ¬ c.IsComment) (h : Thinned ts us) :
    Kept ts.head? us.head? := by
  cases h with
  | nil => exact ⟨fun _ => rfl, nofun⟩
  | drop h => exact absurd h (hc _ rfl)
  | keep hn => exact ⟨nofun, fun e => ⟨_, rfl, Option.some.inj e ▸ ⟨hn⟩⟩⟩

/-- Siblings among which there is no comment are all kept. -/
theorem forall₂ (hc : ∀ c ∈ ts, ¬ c.IsComment) (h : Thinned ts us) :
    List.Forall₂ (fun n n' => n ∈ ts ∧ n.Thinned n') ts us := by
  induction h with
  | nil => exact .nil
  | drop h => exact absurd h (hc _ List.mem_cons_self)
  | keep hn _ _ ih =>
      refine .cons ⟨List.mem_cons_self, ⟨hn⟩⟩ ?_
      exact (ih fun c hmem => hc c (List.mem_cons_of_mem _ hmem)).imp fun _ _ hr =>
        ⟨List.mem_cons_of_mem _ hr.1, hr.2⟩

theorem map_eq {β : Type} {f g : Node → β} (hc : ∀ c ∈ ts, ¬ c.IsComment)
    (hf : ∀ n n', n.Thinned n' → g n' = f n) (h : Thinned ts us) : us.map g = ts.map f := by
  induction h with
  | nil => rfl
  | drop h => exact absurd h (hc _ List.mem_cons_self)
  | keep hn _ _ ih =>
      rw [List.map_cons, List.map_cons, hf _ _ ⟨hn⟩,
        ih fun c hmem => hc c (List.mem_cons_of_mem _ hmem)]

/-- Of siblings among which there is no comment the last is kept. -/
theorem getLast? (hc : ∀ c ∈ ts, ¬ c.IsComment) (h : Thinned ts us) :
    Kept ts.getLast? us.getLast? := by
  have hf : List.Forall₂ Node.Thinned ts us := (h.forall₂ hc).imp fun _ _ hn => hn.2
  clear h hc
  induction hf with
  | nil => exact ⟨fun _ => rfl, nofun⟩
  | cons hn hrest ih =>
      cases hrest with
      | nil => exact ⟨nofun, fun e => ⟨_, rfl, Option.some.inj e ▸ hn⟩⟩
      | cons => simpa only [List.getLast?_cons_cons] using ih

/-- What is made of nodes, and nothing of comments, is made of those that are kept. -/
theorem flatMap_eq {β : Type} {f g : Node → List β} (hc : ∀ c : Node, c.IsComment → f c = [])
    (hf : ∀ n n', n.Thinned n' → g n' = f n) (h : Thinned ts us) : us.flatMap g = ts.flatMap f := by
  induction h with
  | nil => rfl
  | drop h _ ih => rw [List.flatMap_cons, hc _ h, ih, List.nil_append]
  | keep hn _ _ ih => rw [List.flatMap_cons, List.flatMap_cons, hf _ _ ⟨hn⟩, ih]

/-- Nodes that are found at nodes, and not at comments, are thinned if these are. -/
protected theorem flatMap {f g : Node → List Node} (hc : ∀ c : Node, c.IsComment → f c = [])
    (hf : ∀ n n', n.Thinned n' → Thinned (f n) (g n')) (h : Thinned ts us) :
    Thinned (ts.flatMap f) (us.flatMap g) := by
  induction h with
  | nil => exact .nil
  | drop h _ ih =>
      rw [List.flatMap_cons, hc _ h]
      exact ih
  | keep hn _ _ ih => exact (hf _ _ ⟨hn⟩).append ih

theorem filterMap_eq {β : Type} {f g : Node → Option β}
    (hc : ∀ c : Node, c.IsComment → f c = none) (hf : ∀ n n', n.Thinned n' → g n' = f n)
    (h : Thinned ts us) : us.filterMap g = ts.filterMap f := by
  induction h with
  | nil => rfl
  | drop h _ ih => rw [List.filterMap_cons_none (hc _ h), ih]
  | keep hn _ _ ih => rw [List.filterMap_cons, List.filterMap_cons, hf _ _ ⟨hn⟩, ih]

/-- What is made of the sites of nodes, and nothing at those of comments, is made at the sites of those
that are kept, too. -/
theorem forall₂_filterMap {β : Type} {r : β → β → Prop} {f g : Site → Option β} {xs ys : List Site}
    (hc : ∀ s : Site, s.node.IsComment → f s = none)
    (hf : ∀ s ∈ xs, ∀ s' : Site, s.node.Thinned s'.node → Option.Rel r (f s) (g s'))
    (h : Thinned (xs.map (·.node)) (ys.map (·.node))) :
    List.Forall₂ r (xs.filterMap f) (ys.filterMap g) := by
  induction xs generalizing ys with
  | nil =>
      cases ys with
      | nil => exact .nil
      | cons y ys => cases h
  | cons x xs ih =>
      rw [List.forall_mem_cons] at hf
      generalize hns : (x :: xs).map (·.node) = ns at h
      generalize hms : ys.map (·.node) = ms at h
      cases h with
      | nil => cases hns
      | drop hx h =>
          obtain ⟨rfl, rfl⟩ := List.cons.inj hns
          rw [List.filterMap_cons_none (hc _ hx)]
          exact ih hf.2 (hms ▸ h)
      | keep hn h =>
          obtain ⟨rfl, rfl⟩ := List.cons.inj hns
          cases ys with
          | nil => cases hms
          | cons y ys =>
              obtain ⟨hy, hys⟩ := List.cons.inj hms
              have hxy : x.node.Thinned y.node := by
                rw [show y.node = _ from hy]
                exact ⟨hn⟩
              have hrest := ih hf.2 (hys ▸ h)
              have hr := hf.1 y hxy
              rw [List.filterMap_cons, List.filterMap_cons]
              generalize f x = a, g y = b at hr
              cases hr with
              | none => exact hrest
              | some hr => exact .cons hr hrest

theorem filterMap_sites_eq {β : Type} {f g : Site → Option β} {xs ys : List Site}
    (hc : ∀ s : Site, s.node.IsComment → f s = none)
    (hf : ∀ s s' : Site, s.node.Thinned s'.node → g s' = f s)
    (h : Thinned (xs.map (·.node)) (ys.map (·.node))) : ys.filterMap g = xs.filterMap f := by
  have hrefl : ∀ o : Option β, Option.Rel Eq o o := by
    intro o
    cases o with
    | none => exact .none
    | some => exact .some rfl
  have heq : List.Forall₂ Eq (xs.filterMap f) (ys.filterMap g) :=
    h.forall₂_filterMap hc fun s _ s' hs => by
      rw [hf s s' hs]
      exact hrefl _
  rw [List.forall₂_eq_eq_eq] at heq
  exact heq.symm

end Thinned

/-! ### Nodes -/

namespace Node.Thinned

theorem namedChildren (h : n.Thinned n') : CodeSurvey.Thinned n.namedChildren n'.namedChildren :=
  h.children.filter fun _ _ h => h.named_eq

/-- The first named child of a kind is kept. -/
theorem find?_kind (h : n.Thinned n') {kind : String} (hk : kind ≠ "comment") :
    Kept (n.namedChildren.find? (·.kind == kind)) (n'.namedChildren.find? (·.kind == kind)) := by
  refine h.namedChildren.find? (fun c hc => ?_) fun c c' hc => ?_
  · simpa [hc.kind_eq] using hk.symm
  · rw [hc.kind_eq]

/-- The named children of a kind are kept. -/
theorem filter_kind (h : n.Thinned n') (kind : String) :
    CodeSurvey.Thinned (n.namedChildren.filter (·.kind == kind))
      (n'.namedChildren.filter (·.kind == kind)) :=
  h.namedChildren.filter fun _ _ hc => by rw [hc.kind_eq]

/-- The child that plays a part is kept. -/
theorem part? (h : n.Thinned n') (field : String) : Kept (n.part? field) (n'.part? field) := by
  refine h.children.find? (fun c hc => ?_) fun c c' hc => ?_
  · rw [hc.field_eq]
    rfl
  · rw [hc.field_eq]

/-- The named children of the child that plays a part are kept. -/
theorem namedChildren_part? (h : n.Thinned n') (field : String) :
    CodeSurvey.Thinned (((n.part? field).map (·.namedChildren)).getD [])
      (((n'.part? field).map (·.namedChildren)).getD []) := by
  cases hc : n.part? field with
  | none =>
      rw [(h.part? field).none hc]
      exact .nil
  | some c =>
      obtain ⟨c', hc', hcc⟩ := (h.part? field).some hc
      rw [hc']
      exact hcc.namedChildren

theorem not_isComment_of_mem_constituents {c : Node} (h : c ∈ n.constituents) : ¬ c.IsComment := by
  intro hc
  have hne := (List.mem_filter.mp h).2
  rw [hc.kind_eq] at hne
  exact absurd hne (by decide)

theorem thinned_constituents (h : n.Thinned n') :
    CodeSurvey.Thinned n.constituents n'.constituents :=
  h.namedChildren.filter fun _ _ h => by rw [h.kind_eq]

/-- All constituents are kept. -/
theorem constituents (h : n.Thinned n') :
    List.Forall₂ (fun c c' => c ∈ n.constituents ∧ c.Thinned c') n.constituents n'.constituents :=
  h.thinned_constituents.forall₂ fun _ => not_isComment_of_mem_constituents

/-- The first constituent is kept. -/
theorem head?_constituents (h : n.Thinned n') :
    Kept n.constituents.head? n'.constituents.head? :=
  h.thinned_constituents.head? fun _ hc => not_isComment_of_mem_constituents (List.mem_of_head? hc)

theorem hasWord_eq (h : n.Thinned n') {word : String} (hw : word ≠ "comment") :
    n'.hasWord word = n.hasWord word := by
  refine h.children.any_eq (fun c hc => ?_) fun c c' hc => ?_
  · simp [hc.kind_eq, Ne.symm hw]
  · rw [hc.kind_eq, hc.named_eq]

end Node.Thinned

/-! ### Sites -/

theorem Node.sitesAt_eq (s : Site) (n : Node) :
    Node.sitesAt s n = s :: Node.sitesAmong s [] n.children := by
  cases n
  rfl

theorem thinned_sitesAmong (h : Thinned ts us) (p p' : Site) (before before' : List Node) :
    Thinned ((Node.sitesAmong p before ts).map (·.node))
      ((Node.sitesAmong p' before' us).map (·.node)) := by
  induction h generalizing p p' before before' with
  | nil => exact .nil
  | drop hc _ ih =>
      rw [Node.sitesAmong]
      split
      · rw [Node.sitesAt_eq, hc.children_eq, Node.sitesAmong, List.map_append]
        exact .drop hc (ih ..)
      · exact ih ..
  | keep hn _ ihn ih =>
      rw [Node.sitesAmong, Node.sitesAmong]
      split
      · rw [Node.sitesAt_eq, Node.sitesAt_eq, List.map_append, List.map_append]
        exact (Thinned.keep hn (ihn ..)).append (ih ..)
      · exact ih ..

/-- The nodes below a thinned node are those below the node, without some comments. -/
theorem thinned_sites (h : n.Thinned n') :
    Thinned (n.sites.map (·.node)) (n'.sites.map (·.node)) := by
  rw [Node.sites, Node.sites, Node.sitesAt_eq, Node.sitesAt_eq]
  exact .cons h (thinned_sitesAmong h.children ..)

/-! ### What holds everywhere -/

/-- Whether something holds of a node and of all nodes below it. -/
inductive Node.Everywhere (P : Node → Prop) : Node → Prop
  | mk {n : Node} (here : P n) (below : ∀ c ∈ n.children, Everywhere P c) : Everywhere P n

theorem Node.everywhere_mk {P : Node → Prop} {kind : String} {named : Bool} {field : Option String}
    {start stop : Place} {missing faulty : Bool} {cs : List Node} :
    Node.Everywhere P ⟨kind, named, field, start, stop, missing, faulty, cs⟩ ↔
      P ⟨kind, named, field, start, stop, missing, faulty, cs⟩ ∧ ∀ c ∈ cs, c.Everywhere P := by
  constructor
  · rintro ⟨here, below⟩
    exact ⟨here, below⟩
  · rintro ⟨here, below⟩
    exact ⟨here, below⟩

namespace Node.Everywhere

variable {P : Node → Prop} {c : Node}

theorem here (h : n.Everywhere P) : P n := by
  cases h
  assumption

theorem of_mem (h : n.Everywhere P) (hc : c ∈ n.children) : c.Everywhere P := by
  cases h with
  | mk _ below => exact below c hc

/-- What holds of every node holds everywhere. -/
theorem of_forall (h : ∀ n, P n) (n : Node) : n.Everywhere P :=
  ⟨h n, fun c _ => of_forall h c⟩
termination_by sizeOf n
decreasing_by
  have hlt := List.sizeOf_lt_of_mem ‹c ∈ n.children›
  cases n
  simp only [Node.mk.sizeOf_spec] at hlt ⊢
  omega

theorem of_part? (h : n.Everywhere P) {field : String} (hc : n.part? field = some c) :
    c.Everywhere P := h.of_mem (List.mem_of_find?_eq_some hc)

theorem of_mem_constituents (h : n.Everywhere P) (hc : c ∈ n.constituents) : c.Everywhere P :=
  h.of_mem (List.mem_of_mem_filter (List.mem_of_mem_filter hc))

theorem of_mem_sitesAmong {cs : List Node}
    (h : ∀ c ∈ cs, ∀ site : Site, site.node = c → ∀ s ∈ Node.sitesAt site c, s.node.Everywhere P)
    (p : Site) (before : List Node) : ∀ s ∈ Node.sitesAmong p before cs, s.node.Everywhere P := by
  induction cs generalizing before with
  | nil =>
      intro s hs
      cases hs
  | cons c cs ih =>
      rw [List.forall_mem_cons] at h
      intro s hs
      rw [Node.sitesAmong] at hs
      split at hs
      · rcases List.mem_append.mp hs with hs | hs
        · exact h.1 _ rfl s hs
        · exact ih h.2 _ s hs
      · exact ih h.2 _ s hs

/-- What holds everywhere in a node holds everywhere in the nodes below it. -/
theorem of_mem_sites (h : n.Everywhere P) : ∀ s ∈ n.sites, s.node.Everywhere P := by
  suffices ∀ site : Site, site.node = n → ∀ s ∈ Node.sitesAt site n, s.node.Everywhere P from
    this (.root n) rfl
  induction h with
  | mk here below ih =>
      intro site hsite s hs
      rw [Node.sitesAt_eq, List.mem_cons] at hs
      rcases hs with rfl | hs
      · rw [hsite]
        exact ⟨here, below⟩
      · exact of_mem_sitesAmong ih site [] s hs

end Node.Everywhere
end CodeSurvey
