import CodeSurvey.Proofs.Declarations
import CodeSurvey.Proofs.ExportStatements

/-! # Which declarations comments describe

A comment stands right above a node if only decorators come between and the first of what follows
begins on its last row or on the next one (`Site.IsAbove`).  It describes a declaration if it is
right above that, or above the export statement of which the declaration is a part
(`Site.Describes`), and this is what the search upwards from the declaration finds
(`Tree.Declares.ofSite?_eq_some_iff`).

* `Site.IsAbove.unique`: no comment is right above two nodes, for the node is the first of those
  behind the comment that is no decorator.
* `Tree.Declares.unique`: so no comment describes two functions, classes or methods, for an export
  statement holds at most one.
* `Tree.descriptions_ofTree`: the descriptions in the record of a file are read off different
  sites, at each of which something is declared (`Tree.nodup_recordedSites`,
  `Tree.declares_of_mem_recordedSites`).

`FileRecord.described_once` puts this together. -/

namespace CodeSurvey

/-! ### Lists -/

/-- A list falls in only one way into a beginning with some property and what stands behind it. -/
theorem append_cons_inj {α : Type} {p : α → Bool} {xs xs' ys ys' : List α} {x x' : α}
    (h : xs ++ x :: ys = xs' ++ x' :: ys') (hxs : ∀ a ∈ xs, p a) (hx : ¬ p x)
    (hxs' : ∀ a ∈ xs', p a) (hx' : ¬ p x') : xs = xs' ∧ x = x' ∧ ys = ys' := by
  have front : ∀ {xs ys : List α} {x : α}, (∀ a ∈ xs, p a) → ¬ p x →
      (xs ++ x :: ys).takeWhile p = xs := by
    intro xs ys x hxs hx
    rw [List.takeWhile_append_of_pos hxs, List.takeWhile_cons_of_neg hx, List.append_nil]
  obtain rfl : xs = xs' := by rw [← front hxs hx, h, front hxs' hx']
  exact ⟨rfl, List.cons.inj (List.append_cancel_left h)⟩

/-- What is told of the results of a partial function is told of what it is defined for. -/
theorem flatMap_filterMap {α β γ : Type} {make? : α → Option β} {f : β → List γ} {g : α → List γ}
    (h : ∀ a b, make? a = some b → f b = g a) (as : List α) :
    (as.filterMap make?).flatMap f = (as.filter fun a => (make? a).isSome).flatMap g := by
  induction as with
  | nil => rfl
  | cons a as ih =>
      cases ha : make? a with
      | none => simpa [ha] using ih
      | some b => simp [ha, ih, h a b ha]

theorem map_filterMap_eq {α β γ : Type} {make? : α → Option β} {f : β → γ} {g : α → γ}
    (h : ∀ a b, make? a = some b → f b = g a) (as : List α) :
    (as.filterMap make?).map f = (as.filter fun a => (make? a).isSome).map g := by
  rw [List.map_eq_flatMap, List.map_eq_flatMap]
  exact flatMap_filterMap (fun a b hab => congrArg (fun c => [c]) (h a b hab)) as

namespace Site

variable {s a b c p : Site} {cs before : List Node}

/-! ### Comments above a site -/

/-- Whether a comment stands right above a node: only decorators come between them, and the comment
ends at most one row above the first of these or, if there are none, above the node. -/
inductive IsAbove : Site → Site → Prop
  | mk {parent : Site} {front decorators after : List Node} {comment n : Node}
      (hchildren : parent.node.children = front ++ comment :: (decorators ++ n :: after))
      (hcomment : comment.kind = "comment") (hdecorators : ∀ d ∈ decorators, d.kind = "decorator")
      (hn : n.kind ≠ "decorator")
      (hrow : (decorators.headD n).start.row ≤ comment.stop.row + 1) :
      IsAbove (.child parent front.reverse comment)
        (.child parent (front ++ comment :: decorators).reverse n)

/-- No comment is right above two nodes. -/
theorem IsAbove.unique (ha : c.IsAbove a) (hb : c.IsAbove b) : a = b := by
  obtain @⟨parent, front, ds, after, comment, n, hchildren, -, hds, hn, -⟩ := ha
  generalize hc : Site.child parent front.reverse comment = c at hb
  obtain @⟨parent', front', ds', after', comment', n', hchildren', -, hds', hn', -⟩ := hb
  obtain ⟨rfl, hfront, rfl⟩ := Site.child.inj hc
  obtain rfl : front = front' := List.reverse_injective hfront
  rw [hchildren] at hchildren'
  have hrest := (List.cons.inj (List.append_cancel_left hchildren')).2
  obtain ⟨rfl, rfl, -⟩ := append_cons_inj (p := (·.kind == "decorator")) hrest
    (by simpa using hds) (by simpa using hn) (by simpa using hds') (by simpa using hn')
  rfl

/-- Whether a comment describes a declaration: it is right above it or, if the declaration is part
of an export statement, right above that. -/
inductive Describes (c : Site) : Site → Prop
  | declaration {s : Site} (hs : ∀ p ∈ s.parent?, p.node.kind ≠ "export_statement")
      (h : c.IsAbove s) : Describes c s
  | exported {s p : Site} (hp : s.parent? = some p) (hk : p.node.kind = "export_statement")
      (h : c.IsAbove p) : Describes c s

/-! ### Children and their siblings -/

/-- Whether a site is that of a child of the node at its parent. -/
def IsPlaced (s : Site) : Prop :=
  ∀ parent before n, s = .child parent before n →
    ∃ after, parent.node.children = before.reverse ++ n :: after

theorem exists_of_mem_among (h : c ∈ among p before cs) :
    ∃ front after n, cs = front ++ n :: after ∧ c = .child p (front.reverse ++ before) n := by
  induction cs generalizing before with
  | nil => cases h
  | cons d rest ih =>
      rw [among, List.mem_cons] at h
      rcases h with rfl | h
      · exact ⟨[], rest, d, rfl, rfl⟩
      · obtain ⟨front, after, n, rfl, rfl⟩ := ih h
        exact ⟨d :: front, after, n, rfl, by simp⟩

theorem isPlaced_of_mem_children (h : c ∈ s.children) : c.IsPlaced := by
  obtain ⟨front, after, n, hcs, rfl⟩ := exists_of_mem_among h
  intro parent before m heq
  obtain ⟨rfl, rfl, rfl⟩ := Site.child.inj heq
  exact ⟨after, by simpa using hcs⟩

theorem isPlaced_of_hasSite {n : Node} (h : n.HasSite s) : s.IsPlaced := by
  cases h with
  | root => exact fun _ _ _ heq => nomatch heq
  | child _ hc => exact isPlaced_of_mem_children (List.mem_of_mem_filter hc)

theorem isPlaced_of_mem_namedChildren (h : c ∈ s.namedChildren) : c.IsPlaced :=
  isPlaced_of_mem_children (List.mem_of_mem_filter h)

/-- A child with some property is the only one of its parent if no more than one has it. -/
theorem eq_of_countP_le_one {q : Node → Bool} (ha : a.IsPlaced) (hb : b.IsPlaced)
    (hpa : a.parent? = some p) (hpb : b.parent? = some p) (hqa : q a.node) (hqb : q b.node)
    (hone : p.node.children.countP q ≤ 1) : a = b := by
  have hfront : ∀ {xs ys : List Node} {x : Node}, (xs ++ x :: ys).countP q ≤ 1 → q x →
      ∀ y ∈ xs, !q y := by
    intro xs ys x hle hx y hy
    rw [List.countP_append, List.countP_cons_of_pos hx] at hle
    have hzero : xs.countP q = 0 := by omega
    simpa using List.countP_eq_zero.mp hzero y hy
  cases a with
  | root => cases hpa
  | child parent before m =>
      cases b with
      | root => cases hpb
      | child parent' before' m' =>
          obtain rfl : parent = p := Option.some.inj hpa
          obtain rfl : parent' = parent := Option.some.inj hpb
          obtain ⟨after, hcs⟩ := ha _ _ _ rfl
          obtain ⟨after', hcs'⟩ := hb _ _ _ rfl
          have hle := hone
          rw [hcs] at hone
          rw [hcs'] at hle
          obtain ⟨hbefore, rfl, -⟩ := append_cons_inj (p := fun n => !q n) (hcs.symm.trans hcs')
            (hfront hone hqa) (by simpa [Site.node] using hqa) (hfront hle hqb)
            (by simpa [Site.node] using hqb)
          rw [List.reverse_injective hbefore]

theorem hasSite_parent {n : Node} (h : n.HasSite s) (hp : s.parent? = some p) : n.HasSite p := by
  cases h with
  | root => cases hp
  | child hs hc =>
      rw [parent?_of_mem_namedChildren hc] at hp
      exact Option.some.inj hp ▸ hs

end Site

namespace Description

variable {t : Tree} {s a p c : Site} {n : Node}

/-- What the search for a comment finds is right above the anchor. -/
theorem exists_isAbove (hplaced : (anchor s).IsPlaced) (hk : (anchor s).node.kind ≠ "decorator")
    (h : comment? s = some n) : ∃ c : Site, c.IsAbove (anchor s) ∧ c.node = n := by
  unfold comment? at h
  generalize anchor s = a at hplaced hk h
  simp only [Option.filter_eq_some_iff, Bool.and_eq_true, beq_iff_eq, decide_eq_true_eq] at h
  obtain ⟨hhead, hcomment, hrow⟩ := h
  cases a with
  | root m => simp [Site.before] at hhead
  | child parent before m =>
      obtain ⟨after, hchildren⟩ := hplaced _ _ _ rfl
      obtain ⟨rest, hrest⟩ := List.takeWhile_prefix (l := before) (·.kind == "decorator")
      have hds : ∀ d ∈ before.takeWhile (·.kind == "decorator"), d.kind = "decorator" :=
        fun d hd => by simpa using List.mem_takeWhile_imp hd
      simp only [Site.before, Site.node] at hhead hrow
      generalize before.takeWhile (·.kind == "decorator") = ds at *
      subst hrest
      rw [List.drop_left] at hhead
      obtain ⟨front, rfl⟩ := List.head?_eq_some_iff.mp hhead
      -- The siblings before a node are listed from there, and the children from the first one.
      have hcs : parent.node.children = front.reverse ++ n :: (ds.reverse ++ m :: after) := by
        simpa using hchildren
      have hbelow : (ds.reverse.headD m).start.row ≤ n.stop.row + 1 := by
        rwa [List.headD_eq_head?_getD, List.head?_reverse]
      have habove := Site.IsAbove.mk hcs hcomment (by simpa using hds) hk hbelow
      exact ⟨_, by simpa using habove, rfl⟩

/-- A comment right above the anchor is found. -/
theorem comment?_of_isAbove (h : c.IsAbove (anchor s)) : comment? s = some c.node := by
  unfold comment?
  generalize anchor s = a at h
  obtain @⟨parent, front, ds, after, comment, m, -, hcomment, hds, hm, hrow⟩ := h
  have htake : ((front ++ comment :: ds).reverse).takeWhile (·.kind == "decorator") =
      ds.reverse := by
    rw [List.reverse_append, List.reverse_cons, List.append_assoc,
      List.takeWhile_append_of_pos (by simpa using hds), List.singleton_append,
      List.takeWhile_cons_of_neg (by simp [hcomment]), List.append_nil]
  simp only [Option.filter_eq_some_iff, Bool.and_eq_true, beq_iff_eq, decide_eq_true_eq,
    Site.before, Site.node, htake]
  refine ⟨by simp, hcomment, ?_⟩
  rwa [List.getLast?_reverse, ← List.headD_eq_head?_getD]

theorem describes_iff : c.Describes s ↔ c.IsAbove (anchor s) := by
  unfold anchor
  constructor
  · rintro (⟨hs, h⟩ | ⟨hp, hk, h⟩)
    · cases hp : s.parent? with
      | none => exact h
      | some p => simpa [hs p hp] using h
    · rw [hp]
      simpa [hk] using h
  · intro h
    cases hp : s.parent? with
    | none => exact .declaration (by simp [hp]) (by simpa [hp] using h)
    | some p =>
        rw [hp] at h
        by_cases hk : p.node.kind = "export_statement"
        · exact .exported hp hk (by simpa [hk] using h)
        · exact .declaration (by simpa [hp] using hk) (by simpa [hk] using h)

end Description

/-! ### Declarations and their comments -/

open TypeScript.Dialect (functionKinds classKinds describedKinds)

/-- The sites of functions and classes in a tree, and of the methods in the classes. -/
inductive Tree.Declares (t : Tree) : Site → Prop
  | declaration {s : Site} (hs : t.root.HasSite s)
      (hk : s.node.kind ∈ functionKinds ++ classKinds) : Declares t s
  | method {c m : Site} (hc : t.root.HasSite c) (hk : c.node.kind ∈ classKinds)
      (hm : m.IsMemberOf c) (hmethod : m.node.kind = "method_definition") : Declares t m

namespace Tree.Declares

open TypeScript.Dialect (isDescribed)

variable {d : TypeScript.Dialect} {t : Tree} {s s' c p : Site}

theorem isDescribed (h : t.Declares s) : isDescribed s.node := by
  have hkinds : ∀ kind ∈ functionKinds ++ classKinds, describedKinds.contains kind := by decide
  cases h with
  | declaration _ hk => exact hkinds _ hk
  | method _ _ _ hmethod =>
      rw [TypeScript.Dialect.isDescribed, hmethod]
      rfl

theorem kind_ne {kind : String} (h : t.Declares s) (hk : describedKinds.contains kind = false) :
    s.node.kind ≠ kind := by
  rintro rfl
  exact Bool.false_ne_true (hk.symm.trans h.isDescribed)

theorem isPlaced (h : t.Declares s) : s.IsPlaced := by
  cases h with
  | declaration hs => exact Site.isPlaced_of_hasSite hs
  | method _ _ hm =>
      obtain ⟨body, -, hm⟩ := hm
      exact Site.isPlaced_of_mem_namedChildren hm

/-- The parent of a declaration is found by the walk if it is an export statement. -/
theorem hasSite_parent (h : t.Declares s) (hf : t.Follows d.grammar) (hp : s.parent? = some p)
    (hk : p.node.kind = "export_statement") : t.root.HasSite p := by
  cases h with
  | declaration hs => exact Site.hasSite_parent hs hp
  | method hc hclass hm =>
      obtain ⟨body, hbody, hm⟩ := hm
      rw [Site.parent?_of_mem_namedChildren hm] at hp
      obtain rfl := Option.some.inj hp
      have hmem := (Site.mem_among (List.mem_of_find?_eq_some hbody)).2.1
      exact absurd hk (hf.kind_ne_export hc hclass _ hmem)

/-- No comment describes two declarations. -/
theorem unique (hf : t.Follows d.grammar) (hs : t.Declares s) (hs' : t.Declares s')
    (h : c.Describes s) (h' : c.Describes s') : s = s' := by
  have hexport : ∀ {s : Site}, t.Declares s → s.node.kind ≠ "export_statement" :=
    fun hs => hs.kind_ne (by decide)
  cases h with
  | declaration _ h =>
      cases h' with
      | declaration _ h' => exact h.unique h'
      | exported _ hk h' => exact absurd (h.unique h' ▸ hk) (hexport hs)
  | exported hp hk h =>
      cases h' with
      | declaration _ h' => exact absurd (h.unique h' ▸ hk) (hexport hs')
      | exported hp' _ h' =>
          obtain rfl := h.unique h'
          exact Site.eq_of_countP_le_one hs.isPlaced hs'.isPlaced hp hp' hs.isDescribed
            hs'.isDescribed (hf.countP_isDescribed_le_one (hs.hasSite_parent hf hp hk) hk)

/-- The description of a declaration is what the comment that describes it says. -/
theorem ofSite?_eq_some_iff (hf : t.Follows d.grammar) (hs : t.Declares s) {text : String} :
    Description.ofSite? t s = some text ↔
      ∃ c : Site, c.Describes s ∧ Description.ofComment? (t.text c.node) = some text := by
  have hanchor : (Description.anchor s).IsPlaced ∧
      (Description.anchor s).node.kind ≠ "decorator" := by
    have hdecorator : s.node.kind ≠ "decorator" := hs.kind_ne (by decide)
    unfold Description.anchor
    cases hp : s.parent? with
    | none => exact ⟨hs.isPlaced, hdecorator⟩
    | some p =>
        by_cases hk : p.node.kind = "export_statement"
        · simp only [if_pos hk]
          exact ⟨Site.isPlaced_of_hasSite (hs.hasSite_parent hf hp hk), by rw [hk]; decide⟩
        · simp only [if_neg hk]
          exact ⟨hs.isPlaced, hdecorator⟩
  rw [Description.ofSite?, Option.bind_eq_some_iff]
  constructor
  · rintro ⟨n, hn, htext⟩
    obtain ⟨c, hc, rfl⟩ := Description.exists_isAbove hanchor.1 hanchor.2 hn
    exact ⟨c, Description.describes_iff.mpr hc, htext⟩
  · rintro ⟨c, hc, htext⟩
    exact ⟨c.node, Description.comment?_of_isAbove (Description.describes_iff.mp hc), htext⟩

end Tree.Declares

/-- Whether a description is what a comment that describes a declaration says, and there is none
without such a comment. -/
def Tree.IsDescribedBy (t : Tree) (s : Site) (description : Option String) : Prop :=
  ∀ text, description = some text ↔
    ∃ c : Site, c.Describes s ∧ Description.ofComment? (t.text c.node) = some text

section

variable {t : Tree} {names : List String} {s m : Site}

theorem FunctionRecord.ofDeclaration?_eq_some {x : FunctionRecord}
    (h : ofDeclaration? t names s = some x) :
    s.node.kind ∈ functionKinds ∧ x.description = Description.ofSite? t s := by
  unfold ofDeclaration? at h
  split at h
  next hk =>
      obtain ⟨_, -, rfl⟩ := Option.map_eq_some_iff.mp h
      exact ⟨hk, rfl⟩
  next => cases h

theorem FunctionRecord.description_ofMember? {x : FunctionRecord} (h : ofMember? t m = some x) :
    x.description = Description.ofSite? t m := by
  unfold ofMember? at h
  split at h
  next =>
      obtain ⟨_, -, rfl⟩ := Option.map_eq_some_iff.mp h
      rfl
  next => cases h

theorem ClassRecord.ofDeclaration?_eq_some {x : ClassRecord}
    (h : ofDeclaration? t names s = some x) :
    s.node.kind ∈ classKinds ∧ x.description = Description.ofSite? t s ∧
      x.methods = (members s).filterMap (FunctionRecord.ofMember? t) := by
  unfold ofDeclaration? at h
  split at h
  next hk =>
      obtain ⟨_, -, rfl⟩ := Option.map_eq_some_iff.mp h
      exact ⟨hk, rfl, rfl⟩
  next => cases h

end

namespace FileRecord

/-- The descriptions in the record of a file: those of functions, and those of classes, each with
those of its methods. -/
def descriptions (f : FileRecord) : List (Option String) :=
  f.functions.map (·.description) ++
    f.classes.flatMap fun c => c.description :: c.methods.map (·.description)

end FileRecord

namespace Tree

variable {t : Tree} {s m : Site}

/-- The sites of the functions that have records. -/
def functionSites (t : Tree) : List Site :=
  t.root.sites.filter fun s => (FunctionRecord.ofDeclaration? t (Exported.names t) s).isSome

/-- The sites of the classes that have records. -/
def classSites (t : Tree) : List Site :=
  t.root.sites.filter fun s => (ClassRecord.ofDeclaration? t (Exported.names t) s).isSome

/-- The sites of the methods of a class that have records. -/
def methodSites (t : Tree) (s : Site) : List Site :=
  (ClassRecord.members s).filter fun m => (FunctionRecord.ofMember? t m).isSome

/-- The sites of the declarations that have records with descriptions. -/
def recordedSites (t : Tree) : List Site :=
  t.functionSites ++ t.classSites.flatMap fun s => s :: t.methodSites s

/-- The descriptions in the record of a file are read off the sites of its declarations. -/
theorem descriptions_ofTree (path relativePath : String) (t : Tree) :
    (FileRecord.ofTree path relativePath t).descriptions =
      t.recordedSites.map (Description.ofSite? t) := by
  unfold FileRecord.descriptions FileRecord.ofTree recordedSites
  rw [List.map_append, List.map_flatMap]
  congr 1
  · exact map_filterMap_eq (fun s x hx => (FunctionRecord.ofDeclaration?_eq_some hx).2) _
  · refine flatMap_filterMap (fun s x hx => ?_) _
    obtain ⟨-, hdescription, hmethods⟩ := ClassRecord.ofDeclaration?_eq_some hx
    rw [hdescription, hmethods, List.map_cons, methodSites]
    congr 1
    exact map_filterMap_eq (fun m y hy => FunctionRecord.description_ofMember? hy) _

theorem of_mem_functionSites (h : s ∈ t.functionSites) :
    t.root.HasSite s ∧ s.node.kind ∈ functionKinds := by
  obtain ⟨hs, hx⟩ := List.mem_filter.mp h
  obtain ⟨x, hx⟩ := Option.isSome_iff_exists.mp hx
  exact ⟨Node.mem_sites.mp hs, (FunctionRecord.ofDeclaration?_eq_some hx).1⟩

theorem of_mem_classSites (h : s ∈ t.classSites) :
    t.root.HasSite s ∧ s.node.kind ∈ classKinds := by
  obtain ⟨hs, hx⟩ := List.mem_filter.mp h
  obtain ⟨x, hx⟩ := Option.isSome_iff_exists.mp hx
  exact ⟨Node.mem_sites.mp hs, (ClassRecord.ofDeclaration?_eq_some hx).1⟩

theorem of_mem_methodSites (h : m ∈ t.methodSites s) :
    m.IsMemberOf s ∧ m.node.kind = "method_definition" := by
  obtain ⟨hm, hy⟩ := List.mem_filter.mp h
  obtain ⟨y, hy⟩ := Option.isSome_iff_exists.mp hy
  exact ⟨Site.mem_members.mp hm, (FunctionRecord.ofMember?_eq_some hy).1.1⟩

theorem declares_of_mem_recordedSites (h : s ∈ t.recordedSites) : t.Declares s := by
  rcases List.mem_append.mp h with h | h
  · obtain ⟨hs, hk⟩ := of_mem_functionSites h
    exact .declaration hs (List.mem_append_left _ hk)
  · obtain ⟨c, hc, h⟩ := List.mem_flatMap.mp h
    obtain ⟨hs, hk⟩ := of_mem_classSites hc
    rcases List.mem_cons.mp h with rfl | h
    · exact .declaration hs (List.mem_append_right _ hk)
    · obtain ⟨hm, hmethod⟩ := of_mem_methodSites h
      exact .method hs hk hm hmethod

theorem nodup_of_precedes {sites : List Site} (h : sites.Pairwise Site.Precedes) :
    sites.Nodup := by
  refine h.imp fun {a b} hab heq => ?_
  subst heq
  exact List.lt_irrefl _ hab

/-- A class is no method. -/
theorem not_mem_methodSites {c : Site} (hs : s ∈ t.classSites) : s ∉ t.methodSites c := by
  intro hm
  have hk := (of_mem_classSites hs).2
  rw [(of_mem_methodSites hm).2] at hk
  revert hk
  decide

/-- No site is listed with two classes. -/
theorem disjoint_methodSites {s' : Site} (hs : s ∈ t.classSites) (hs' : s' ∈ t.classSites)
    (hne : s ≠ s') : List.Disjoint (s :: t.methodSites s) (s' :: t.methodSites s') := by
  intro m hm hm'
  rcases List.mem_cons.mp hm with rfl | hm <;> rcases List.mem_cons.mp hm' with rfl | hm'
  · exact hne rfl
  · exact not_mem_methodSites hs hm'
  · exact not_mem_methodSites hs' hm
  · exact hne ((of_mem_methodSites hm).1.unique (of_mem_methodSites hm').1)

theorem nodup_recordedSites (t : Tree) : t.recordedSites.Nodup := by
  have hkinds : ∀ kind ∈ functionKinds, kind ∉ "method_definition" :: classKinds := by decide
  have hsites := nodup_of_precedes t.root.pairwise_precedes_sites
  rw [recordedSites, List.nodup_append, List.nodup_flatMap]
  refine ⟨hsites.filter _, ⟨fun s hs => ?_, ?_⟩, ?_⟩
  · have hmembers := nodup_of_precedes (Site.pairwise_precedes_members s)
    exact List.nodup_cons.mpr ⟨not_mem_methodSites hs, hmembers.filter _⟩
  · exact (hsites.filter _).imp_of_mem fun hs hs' hne => disjoint_methodSites hs hs' hne
  · rintro s hs _ hm rfl
    obtain ⟨c, hc, hm⟩ := List.mem_flatMap.mp hm
    refine hkinds _ (of_mem_functionSites hs).2 ?_
    rcases List.mem_cons.mp hm with rfl | hm
    · exact List.mem_cons_of_mem _ (of_mem_classSites hc).2
    · exact (of_mem_methodSites hm).2 ▸ List.mem_cons_self

end Tree

/-- Descriptions in a tree of the grammar.  The functions, classes and methods that are recorded
stand at different sites, and the description of each is what the comment that describes it says:
the one before all decorators above it, or above the export statement that it is part of, which
ends at most one row before these.  No comment describes two declarations, since an export
statement holds at most one. -/
theorem FileRecord.described_once (d : TypeScript.Dialect) (path relativePath : String) (t : Tree)
    (h : t.Follows d.grammar) :
    (∃ sites : List Site, sites.Nodup ∧ List.Forall₂ (fun s x => t.Declares s ∧ t.IsDescribedBy s x)
      sites (ofTree path relativePath t).descriptions) ∧
    (∀ c s s' : Site, t.Declares s → t.Declares s' → c.Describes s → c.Describes s' → s = s') ∧
    ∀ p, t.root.HasSite p → p.node.kind = "export_statement" →
      p.node.children.countP (fun c => describedKinds.contains c.kind) ≤ 1 := by
  refine ⟨⟨t.recordedSites, t.nodup_recordedSites, ?_⟩, fun c s s' hs hs' => hs.unique h hs',
    fun p hp hk => h.countP_isDescribed_le_one hp hk⟩
  rw [Tree.descriptions_ofTree, List.forall₂_map_right_iff, List.forall₂_same]
  intro s hs
  have hdeclares := Tree.declares_of_mem_recordedSites hs
  exact ⟨hdeclares, fun text => hdeclares.ofSite?_eq_some_iff h⟩

/-! ### A class with comments -/

section Sample

open TypeScript Rule

variable {field : Option String} {start stop : Nat}

/-- A method, with the decorator before it. -/
def decoratedMethod : List Node :=
  [twoLineNode "decorator" (some "decorator") 44 46
      [twoLineWord "@" 44 45, twoLineNode "identifier" none 45 46 []],
    twoLineNode "method_definition" none 47 52
      [twoLineNode "property_identifier" (some "name") 47 48 [],
        twoLineNode "formal_parameters" (some "parameters") 48 50
          [twoLineWord "(" 48 49, twoLineWord ")" 49 50],
        twoLineNode "statement_block" (some "body") 50 52
          [twoLineWord "\x7b" 50 51, twoLineWord "\x7d" 51 52]]]

/-- The body of a class, with a comment above this method. -/
def commentedBody : Node :=
  twoLineNode "class_body" (some "body") 34 53
    (twoLineWord "\x7b" 34 35 :: twoLineNode "comment" none 35 44 [] :: decoratedMethod ++
      [twoLineWord "\x7d" 52 53])

/-- The class. -/
def commentedClass (field : Option String) : Node :=
  twoLineNode "class_declaration" field 27 53
    [twoLineWord "class" 27 32, twoLineNode "type_identifier" (some "name") 33 34 [], commentedBody]

/-- The export of the class. -/
def exportedClass : Node :=
  twoLineNode "export_statement" none 20 53
    [twoLineWord "export" 20 26, commentedClass (some "declaration")]

/-- A source that is this export, with a comment above it. -/
def describedTree : Tree where
  source := .ofBytes "/** Widget. */     \nexport class C\x7b/** M. */@a m()\x7b\x7d\x7d".toUTF8
  root := twoLineNode "program" none 0 53 [twoLineNode "comment" none 0 14 [], exportedClass]

/-- A name under another kind. -/
theorem derives_renamedLetter (kind : String) : Dialect.plain.grammar.Derives (the "identifier")
    (some ⟨kind, true⟩) field [twoLineNode kind field start stop []] :=
  .construct (r := .lexeme (.ofPattern Lexemes.identifier)) (by decide) rfl .lexeme
    (.shown ⟨rfl, rfl, rfl, rfl, fun _ hc => absurd hc List.not_mem_nil⟩)

/-- The constructs of this source that are there under their own names. -/
theorem shown_of_mem : ∀ name ∈ ["decorator", "method_definition", "class_body",
      "class_declaration", "export_statement"],
    name ∉ Dialect.plain.grammar.inlined ∧ name ∉ Dialect.plain.grammar.layout ∧
      Dialect.plain.grammar.shown? name = some ⟨name, true⟩ := by
  decide +kernel

/-- Those that give place to what they hold. -/
theorem hidden_of_mem : ∀ name ∈ ["_property_name", "declaration", "statement"],
    name ∉ Dialect.plain.grammar.inlined ∧ name ∉ Dialect.plain.grammar.layout ∧
      Dialect.plain.grammar.shown? name = none := by
  decide +kernel

theorem derives_decoratedMethod : Dialect.plain.grammar.Derives
    (chain [many (Rule.field "decorator" (the "decorator")), the "method_definition",
      optional (the "_semicolon")]) none none decoratedMethod := by
  have hdecorator : Dialect.plain.grammar.IsConstruct "decorator"
      (twoLineNode "decorator" (some "decorator") 44 46
        [twoLineWord "@" 44 45, twoLineNode "identifier" none 45 46 []]) :=
    isConstruct_twoLineNode rfl (by simp [twoLineNode, twoLineWord, Dialect.grammar])
      (derives_cons derives_twoLineWord (.left derives_letter))
  have hname : Dialect.plain.grammar.Derives (the "_property_name") none (some "name")
      [twoLineNode "property_identifier" (some "name") 47 48 []] := by
    obtain ⟨hi, hl, hs⟩ := hidden_of_mem "_property_name" (by decide)
    exact (Grammar.derives_hidden hi hl hs rfl).mpr
      ⟨[twoLineNode "property_identifier" none 47 48 []],
        .left (.rename (.left (derives_renamedLetter _))), .part "name" _⟩
  have hparameters : Dialect.plain.grammar.IsConstruct "formal_parameters"
      (twoLineNode "formal_parameters" (some "parameters") 48 50
        [twoLineWord "(" 48 49, twoLineWord ")" 49 50]) :=
    isConstruct_twoLineNode (Dialect.lookup_formalParameters .plain)
      (by simp [twoLineWord, Dialect.grammar])
      (derives_cons derives_twoLineWord (derives_skip (.right .blank) derives_twoLineWord))
  have hskipped : ∀ {r : Rule} {ns : List Node}, Dialect.plain.grammar.Derives r none none ns →
      ∀ {a : Rule}, Dialect.plain.grammar.Derives (.seq (optional a) r) none none ns :=
    fun hr => derives_skip (.right .blank) hr
  refine derives_cons
    (.left (.once (.field (derives_twoLineNode (shown_of_mem _ (by decide)) hdecorator))))
    (derives_cons (derives_twoLineNode (shown_of_mem _ (by decide)) (isConstruct_twoLineNode rfl
      (by simp [twoLineNode, Dialect.grammar]) (.ranked ?_))) (.right .blank))
  -- The words that may stand before the name of a method are left out.
  refine hskipped (hskipped (hskipped (hskipped (hskipped (hskipped ?_)))))
  exact derives_cons (.field hname) (hskipped (derives_cons (derives_signature hparameters)
    (.field derives_emptyBlock)))

theorem isConstruct_commentedClass :
    Dialect.plain.grammar.IsConstruct "class_declaration" (commentedClass none) := by
  have hbody : Dialect.plain.grammar.IsConstruct "class_body" commentedBody :=
    isConstruct_twoLineNode rfl
      (by simp [decoratedMethod, twoLineNode, twoLineWord, Dialect.grammar])
      (derives_cons derives_twoLineWord (.seq
        (.left (.once (.left derives_decoratedMethod))) derives_twoLineWord))
  have hname : Dialect.plain.grammar.Derives (the "_type_identifier") none (some "name")
      [twoLineNode "type_identifier" (some "name") 33 34 []] :=
    .inlined (r := Rule.as "type_identifier" (the "identifier")) (by decide)
      (by decide +kernel) (.rename (derives_renamedLetter _))
  exact isConstruct_twoLineNode rfl
    (by simp [commentedBody, twoLineNode, twoLineWord, Dialect.grammar])
    (.ranked (derives_skip (.right .blank) (derives_cons derives_twoLineWord
      (derives_cons (.field hname)
        (derives_skip (.field (.right .blank)) (derives_skip (.right .blank)
          (derives_cons (.field (derives_twoLineNode (shown_of_mem _ (by decide)) hbody))
            (.right .blank))))))))

theorem follows_describedTree : describedTree.Follows Dialect.plain.grammar := by
  have hdeclaration : Dialect.plain.grammar.Derives (the "declaration") none (some "declaration")
      [commentedClass (some "declaration")] := by
    obtain ⟨hi, hl, hs⟩ := hidden_of_mem "declaration" (by decide)
    have hclass := derives_twoLineNode (shown_of_mem _ (by decide)) isConstruct_commentedClass
    exact (Grammar.derives_hidden hi hl hs rfl).mpr
      ⟨[commentedClass none], .left (.right (.right (.left hclass))), .part "declaration" _⟩
  have hexport : Dialect.plain.grammar.IsConstruct "export_statement" exportedClass :=
    isConstruct_twoLineNode rfl
      (by simp [commentedClass, twoLineNode, twoLineWord, Dialect.grammar])
      (.left (.right (derives_skip (.right .blank) (derives_cons derives_twoLineWord
        (.left (.field hdeclaration))))))
  have hstatement : Dialect.plain.grammar.Derives (the "statement") none none [exportedClass] := by
    obtain ⟨hi, hl, hs⟩ := hidden_of_mem "statement" (by decide)
    exact (Grammar.derives_hidden hi hl hs rfl).mpr
      ⟨_, .left (derives_twoLineNode (shown_of_mem _ (by decide)) hexport), .hidden _⟩
  exact ⟨"program", _, rfl, isConstruct_twoLineNode rfl
    (by simp [exportedClass, twoLineNode, Dialect.grammar])
    (derives_skip (.right .blank) (.left (.once hstatement)))⟩

/-- Each of the two comments describes one of the two declarations. -/
theorem FileRecord.described_once_describedTree :
    describedTree.Follows Dialect.plain.grammar ∧
    (ofTree "" "" describedTree).descriptions = [some "Widget.", some "M."] ∧
    ∃ s s' : Site, s ≠ s' ∧ describedTree.IsDescribedBy s (some "Widget.") ∧
      describedTree.IsDescribedBy s' (some "M.") ∧
      ∀ c : Site, c.Describes s → ¬ c.Describes s' := by
  have hdescriptions : (ofTree "" "" describedTree).descriptions = [some "Widget.", some "M."] := by
    decide +kernel
  obtain ⟨⟨sites, hnodup, hsites⟩, hunique, -⟩ :=
    described_once .plain "" "" describedTree follows_describedTree
  rw [hdescriptions] at hsites
  obtain ⟨s, _, ⟨hs, hd⟩, hrest, rfl⟩ := List.forall₂_cons_right_iff.mp hsites
  obtain ⟨s', _, ⟨hs', hd'⟩, hnil, rfl⟩ := List.forall₂_cons_right_iff.mp hrest
  obtain rfl := List.forall₂_nil_right_iff.mp hnil
  have hne : s ≠ s' := by simpa using hnodup
  exact ⟨follows_describedTree, hdescriptions, s, s', hne, hd, hd',
    fun c hc hc' => hne (hunique c s s' hs hs' hc hc')⟩

end Sample

end CodeSurvey
