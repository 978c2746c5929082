import CodeSurvey.Proofs.Thinned

/-! # Sites in pre-order

A tree is walked by `Node.sites`.  What the walk finds, and in which order, is said here without
it:

* `Node.HasSite`: the sites of a tree are that of its root, and those of the named children of a
  site (`mem_sites`);
* `Site.position`: a site stands where so many named siblings come before each node on the way to
  it.  In the lexicographic order of positions a node comes before what is below it, and what is
  below a node before its later siblings; in this order the sites are listed
  (`pairwise_precedes_sites`).

`Site.Enumerates` puts both together: which sites a list holds, each of them once, and in
pre-order.  A loop with a stack of the sites that are still to come lists the same
(`Node.unstacks_sites`). -/

namespace CodeSurvey

/-- The sites of a tree: that of its root, and those of the named children of a site. -/
inductive Node.HasSite (n : Node) : Site → Prop
  | root : HasSite n (.root n)
  | child {s c : Site} (hs : HasSite n s) (hc : c ∈ s.namedChildren) : HasSite n c

namespace Site

/-- Where a site stands in its tree: for each node on the way to it, the number of named siblings
before that. -/
def position : Site → List Nat
  | root _ => []
  | child parent before _ => parent.position ++ [before.countP (·.named)]

/-- Whether a site comes before another one in pre-order. -/
def Precedes (a b : Site) : Prop := a.position < b.position

/-- Whether a list holds the sites with some property, each of them once and in pre-order. -/
structure Enumerates (P : Site → Prop) (sites : List Site) : Prop where
  mem_iff : ∀ s, s ∈ sites ↔ P s
  preorder : sites.Pairwise Precedes

variable {s c : Site} {n : Node} {before cs : List Node}

/-! ### Children -/

theorem mem_among (h : c ∈ among s before cs) :
    c.parent? = some s ∧ c.node ∈ cs ∧
      ∃ i, before.countP (·.named) ≤ i ∧ c.position = s.position ++ [i] := by
  induction cs generalizing before with
  | nil => cases h
  | cons d rest ih =>
      rw [among, List.mem_cons] at h
      rcases h with rfl | h
      · exact ⟨rfl, List.mem_cons_self, _, Nat.le_refl _, rfl⟩
      · obtain ⟨hp, hn, i, hi, hpos⟩ := ih h
        refine ⟨hp, List.mem_cons_of_mem d hn, i, Nat.le_trans ?_ hi, hpos⟩
        rw [List.countP_cons]
        exact Nat.le_add_right _ _

theorem parent?_of_mem_namedChildren (h : c ∈ s.namedChildren) : c.parent? = some s :=
  (mem_among (List.mem_of_mem_filter h)).1

theorem node_mem_of_mem_namedChildren (h : c ∈ s.namedChildren) : c.node ∈ s.node.children :=
  (mem_among (List.mem_of_mem_filter h)).2.1

theorem position_of_mem_namedChildren (h : c ∈ s.namedChildren) :
    ∃ i, c.position = s.position ++ [i] := by
  obtain ⟨-, -, i, -, hpos⟩ := mem_among (List.mem_of_mem_filter h)
  exact ⟨i, hpos⟩

/-- The named children stand one after the other. -/
theorem pairwise_position_among (s : Site) (before cs : List Node) :
    ((among s before cs).filter (·.node.named)).Pairwise fun c d =>
      ∃ i j, i < j ∧ c.position = s.position ++ [i] ∧ d.position = s.position ++ [j] := by
  induction cs generalizing before with
  | nil => exact .nil
  | cons c rest ih =>
      rw [among, List.filter_cons]
      split
      next hc =>
          refine .cons (fun d hd => ?_) (ih _)
          obtain ⟨-, -, j, hj, hpos⟩ := mem_among (List.mem_of_mem_filter hd)
          have hnamed : c.named = true := hc
          rw [List.countP_cons_of_pos hnamed] at hj
          exact ⟨_, j, hj, rfl, hpos⟩
      next => exact ih _

theorem pairwise_position_namedChildren (s : Site) :
    s.namedChildren.Pairwise fun c d =>
      ∃ i j, i < j ∧ c.position = s.position ++ [i] ∧ d.position = s.position ++ [j] :=
  pairwise_position_among s [] s.node.children

/-- To show something of all sites, show it of each from its named children. -/
theorem namedChildren_induction {motive : Site → Prop}
    (step : ∀ s, (∀ c ∈ s.namedChildren, motive c) → motive s) (s : Site) : motive s :=
  step s fun c _ => namedChildren_induction step c
termination_by sizeOf s.node
decreasing_by
  have hlt := List.sizeOf_lt_of_mem (node_mem_of_mem_namedChildren ‹c ∈ s.namedChildren›)
  cases hn : s.node
  simp only [hn, Node.mk.sizeOf_spec] at hlt ⊢
  omega

/-! ### The walk -/

theorem sitesAmong_eq (s : Site) (before cs : List Node) :
    Node.sitesAmong s before cs =
      ((among s before cs).filter (·.node.named)).flatMap fun c => Node.sitesAt c c.node := by
  induction cs generalizing before with
  | nil => rfl
  | cons c rest ih =>
      have hnode : (child s before c).node = c := rfl
      rw [Node.sitesAmong, among, List.filter_cons, hnode, ih]
      split
      · rw [List.flatMap_cons, hnode]
      · rfl

/-- The walk from a site lists the site, and then what the walks from its named children list. -/
theorem sitesAt_node (s : Site) :
    Node.sitesAt s s.node = s :: s.namedChildren.flatMap fun c => Node.sitesAt c c.node := by
  rw [Node.sitesAt_eq, sitesAmong_eq]
  rfl

theorem mem_sitesAt_self (s : Site) : s ∈ Node.sitesAt s s.node := by
  rw [sitesAt_node]
  exact List.mem_cons_self

/-- The walk from a site that is listed lists nothing new. -/
theorem mem_sitesAt_child (s : Site) :
    ∀ a ∈ Node.sitesAt s s.node, ∀ c ∈ a.namedChildren, c ∈ Node.sitesAt s s.node := by
  induction s using namedChildren_induction with
  | step s ih =>
      intro a ha c hc
      rw [sitesAt_node, List.mem_cons, List.mem_flatMap] at ha ⊢
      rcases ha with rfl | ⟨d, hd, ha⟩
      · exact .inr ⟨c, hc, mem_sitesAt_self c⟩
      · exact .inr ⟨d, hd, ih d hd a ha c hc⟩

theorem hasSite_of_mem_sitesAt (hs : n.HasSite s) : ∀ a ∈ Node.sitesAt s s.node, n.HasSite a := by
  induction s using namedChildren_induction with
  | step s ih =>
      intro a ha
      rw [sitesAt_node, List.mem_cons, List.mem_flatMap] at ha
      rcases ha with rfl | ⟨c, hc, ha⟩
      · exact hs
      · exact ih c hc (.child hs hc) a ha

/-- What is listed by the walk from a site stands at that site or below it. -/
theorem position_isPrefix_of_mem_sitesAt (s : Site) :
    ∀ a ∈ Node.sitesAt s s.node, s.position <+: a.position := by
  induction s using namedChildren_induction with
  | step s ih =>
      intro a ha
      rw [sitesAt_node, List.mem_cons, List.mem_flatMap] at ha
      rcases ha with rfl | ⟨c, hc, ha⟩
      · exact List.prefix_refl _
      · obtain ⟨i, hpos⟩ := position_of_mem_namedChildren hc
        exact (List.prefix_append s.position [i]).trans (hpos ▸ ih c hc a ha)

theorem pairwise_precedes_sitesAt (s : Site) : (Node.sitesAt s s.node).Pairwise Precedes := by
  induction s using namedChildren_induction with
  | step s ih =>
      have below : ∀ {c a : Site} {i : Nat}, c.position = s.position ++ [i] →
          a ∈ Node.sitesAt c c.node → ∃ p, a.position = s.position ++ i :: p := by
        intro c a i hpos ha
        obtain ⟨p, hp⟩ := position_isPrefix_of_mem_sitesAt c a ha
        exact ⟨p, by rw [← hp, hpos, List.append_assoc, List.singleton_append]⟩
      rw [sitesAt_node, List.pairwise_cons, List.pairwise_flatMap]
      refine ⟨fun a ha => ?_, ih, ?_⟩
      · -- what is below the site stands at an extension of its position
        obtain ⟨c, hc, ha⟩ := List.mem_flatMap.mp ha
        obtain ⟨i, hpos⟩ := position_of_mem_namedChildren hc
        obtain ⟨p, hp⟩ := below hpos ha
        have hlt : s.position ++ [] < s.position ++ i :: p :=
          List.append_left_lt (List.nil_lt_cons i p)
        rwa [List.append_nil, ← hp] at hlt
      · -- two children stand apart, and so does what is below them
        refine (pairwise_position_namedChildren s).imp ?_
        rintro c d ⟨i, j, hij, hc, hd⟩ a ha b hb
        obtain ⟨p, hp⟩ := below hc ha
        obtain ⟨q, hq⟩ := below hd hb
        rw [Precedes, hp, hq]
        exact List.append_left_lt (List.cons_lt_cons_iff.mpr (.inl hij))

/-! ### A walk with a stack -/

/-- Whether a walk that keeps the sites to come on a stack ends and lists some sites.  It takes the
site on top, lists it, and puts its named children in its place, beginning with the last one. -/
inductive Unstacks : List Site → List Site → Prop
  | done : Unstacks [] []
  | take {s : Site} {stack sites : List Site}
      (h : Unstacks (s.namedChildren.foldr List.cons stack) sites) :
      Unstacks (s :: stack) (s :: sites)

variable {stack sites : List Site}

theorem Unstacks.eq_flatMap (h : Unstacks stack sites) :
    sites = stack.flatMap fun s => Node.sitesAt s s.node := by
  induction h with
  | done => rfl
  | take _ ih =>
      rw [ih, List.flatMap_cons, sitesAt_node, List.cons_append, List.foldr_cons_eq_append',
        List.flatMap_append]

/-- Several sites on a stack are walked through one after the other. -/
theorem Unstacks.append {cs : List Site}
    (hcs : ∀ c ∈ cs, ∀ {stack sites}, Unstacks stack sites →
      Unstacks (c :: stack) (Node.sitesAt c c.node ++ sites))
    (h : Unstacks stack sites) :
    Unstacks (cs ++ stack) (cs.flatMap (fun c => Node.sitesAt c c.node) ++ sites) := by
  induction cs with
  | nil => exact h
  | cons c cs ih =>
      rw [List.flatMap_cons, List.append_assoc]
      exact hcs c List.mem_cons_self (ih fun d hd => hcs d (List.mem_cons_of_mem c hd))

theorem Unstacks.cons (s : Site) {stack sites : List Site} (h : Unstacks stack sites) :
    Unstacks (s :: stack) (Node.sitesAt s s.node ++ sites) := by
  induction s using namedChildren_induction generalizing stack sites with
  | step s ih =>
      rw [sitesAt_node, List.cons_append]
      refine .take ?_
      rw [List.foldr_cons_eq_append']
      exact .append ih h

/-- The walk with a stack always ends, and lists what the walks from the sites on the stack list. -/
theorem unstacks_iff :
    Unstacks stack sites ↔ sites = stack.flatMap fun s => Node.sitesAt s s.node := by
  refine ⟨Unstacks.eq_flatMap, ?_⟩
  rintro rfl
  induction stack with
  | nil => exact .done
  | cons s stack ih => exact .cons s ih

end Site

/-! ### Whole trees -/

namespace Node

variable {n : Node} {s : Site}

/-- The walk over a tree lists its sites, and no others. -/
theorem mem_sites : s ∈ n.sites ↔ n.HasSite s := by
  constructor
  · exact Site.hasSite_of_mem_sitesAt (s := .root n) .root s
  · intro h
    induction h with
    | root => exact Site.mem_sitesAt_self (.root n)
    | child _ hc ih => exact Site.mem_sitesAt_child (.root n) _ ih _ hc

/-- The walk over a tree lists its sites in pre-order. -/
theorem pairwise_precedes_sites (n : Node) : n.sites.Pairwise Site.Precedes :=
  Site.pairwise_precedes_sitesAt (.root n)

/-- The walk over a tree is that with a stack that holds its root. -/
theorem unstacks_sites {sites : List Site} : Site.Unstacks [.root n] sites ↔ sites = n.sites := by
  rw [Site.unstacks_iff, List.flatMap_singleton]
  rfl

/-- Whether a node stands somewhere in a tree. -/
def Contains (n m : Node) : Prop := ∃ s, n.HasSite s ∧ s.node = m

theorem mem_descendants {m : Node} : m ∈ n.descendants ↔ n.Contains m := by
  unfold descendants Contains
  simp only [List.mem_map, mem_sites]

/-- The sites in a tree with some property are listed as the walk comes to them. -/
theorem enumerates_filter_sites (n : Node) (p : Site → Bool) :
    Site.Enumerates (fun s => n.HasSite s ∧ p s = true) (n.sites.filter p) where
  mem_iff s := by rw [List.mem_filter, mem_sites]
  preorder := (pairwise_precedes_sites n).sublist List.filter_sublist

/-! ### Sources of one line -/

/-- A construct on the first line of a source. -/
def onLine (kind : String) (field : Option String) (start stop : Nat) (children : List Node) :
    Node :=
  ⟨kind, true, field, ⟨start, 0, start⟩, ⟨stop, 0, stop⟩, false, false, children⟩

/-- A plain word on the first line of a source. -/
def wordOnLine (word : String) (start stop : Nat) : Node :=
  ⟨word, false, none, ⟨start, 0, start⟩, ⟨stop, 0, stop⟩, false, false, []⟩

end Node

end CodeSurvey
