import CodeSurvey.Extraction.Declaration
import CodeSurvey.Proofs.Sites

/-! # Which declarations are recorded

The records of a file are made of the declarations of its tree, and of all of them:
`Tree.Records` says that there is one record for each declaration of some kinds that has a name, at
any depth, in pre-order.  `Tree.records_filterMap` shows this once for the four lists of a file.

The members of a class are told apart from those of other classes by where they stand:
`Site.IsMemberOf` asks for the body of the class itself, so that no site is that of a member of
two classes (`IsMemberOf.unique`).  The methods and properties of a class are made of these members
(`Site.MemberRecords`).

`FileRecord.records_ofTree` puts this together. -/

namespace CodeSurvey

variable {t : Tree} {s m c d : Site} {β : Type}

/-! ### Declarations in a tree -/

/-- The name that a declaration states. -/
def Tree.declaredName? (t : Tree) (n : Node) : Option String := (n.part? "name").map t.text

/-- Whether a list has one record for each declaration of some kinds in a tree that has a name, in
pre-order, where `R` relates a declaration and its record. -/
def Tree.Records (t : Tree) (kinds : List String) (R : Site → β → Prop) (xs : List β) : Prop :=
  ∃ sites, Site.Enumerates
      (fun s => t.root.HasSite s ∧ s.node.kind ∈ kinds ∧ (t.declaredName? s.node).isSome) sites ∧
    List.Forall₂ R sites xs

theorem forall₂_filterMap {α : Type} (f : α → Option β) (l : List α) :
    List.Forall₂ (fun a b => f a = some b) (l.filter fun a => (f a).isSome) (l.filterMap f) := by
  induction l with
  | nil => exact .nil
  | cons a l ih =>
      cases ha : f a with
      | none => simpa [ha] using ih
      | some b => simpa [ha] using ih

/-- If a record is made of each declaration of some kinds that has a name, and states that name,
the walk records these declarations. -/
theorem Tree.records_filterMap {kinds : List String} {record? : Site → Option β}
    {name : β → String}
    (hname : ∀ s, (record? s).map name =
      if s.node.kind ∈ kinds then t.declaredName? s.node else none) :
    t.Records kinds (fun s x => t.declaredName? s.node = some (name x) ∧ record? s = some x)
      (t.root.sites.filterMap record?) := by
  have hsome : ∀ s, (record? s).isSome = true ↔
      s.node.kind ∈ kinds ∧ (t.declaredName? s.node).isSome := by
    intro s
    rw [← Option.isSome_map (f := name), hname s]
    split
    next hk => simp [hk]
    next hk => simp [hk]
  have hmade : ∀ s x, record? s = some x → t.declaredName? s.node = some (name x) := by
    intro s x hx
    have hs := hname s
    rw [hx, Option.map_some] at hs
    split at hs
    next => exact hs.symm
    next => cases hs
  have henum := Node.enumerates_filter_sites t.root fun s => (record? s).isSome
  refine ⟨t.root.sites.filter fun s => (record? s).isSome, ⟨fun s => ?_, henum.preorder⟩, ?_⟩
  · rw [henum.mem_iff, hsome]
  · exact (forall₂_filterMap record? _).imp fun s x hx => ⟨hmade s x hx, hx⟩

theorem Tree.Records.imp {kinds : List String} {R S : Site → β → Prop} {xs : List β}
    (h : ∀ s x, R s x → S s x) : t.Records kinds R xs → t.Records kinds S xs := by
  rintro ⟨sites, henum, hxs⟩
  exact ⟨sites, henum, hxs.imp h⟩

/-! ### Members of a class -/

/-- Whether a site is that of a member of a class: it stands in the body of that very class. -/
def Site.IsMemberOf (m s : Site) : Prop :=
  ∃ body, s.part? "body" = some body ∧ m ∈ body.namedChildren

/-- Whether a member of some kind has a name that is a plain identifier, maybe after `#`. -/
def Tree.NamesMember (t : Tree) (kind : String) (n : Node) (name : String) : Prop :=
  n.kind = kind ∧ ∃ key, n.part? "name" = some key ∧
    (key.kind = "property_identifier" ∨ key.kind = "private_property_identifier") ∧
    t.text key = name

/-- Whether a list has one record for each member of a class with some property, in the order of
the source, where `R` relates a member and its record. -/
def Site.MemberRecords (s : Site) (P : Node → Prop) (R : Site → β → Prop) (xs : List β) : Prop :=
  ∃ sites, Site.Enumerates (fun m => m.IsMemberOf s ∧ P m.node) sites ∧ List.Forall₂ R sites xs

namespace Site

/-- A member of a class is a child of a child of it. -/
theorem IsMemberOf.parent (h : m.IsMemberOf s) :
    ∃ body, m.parent? = some body ∧ body.parent? = some s := by
  obtain ⟨body, hbody, hm⟩ := h
  exact ⟨body, parent?_of_mem_namedChildren hm, (mem_among (List.mem_of_find?_eq_some hbody)).1⟩

/-- No site is that of a member of two classes. -/
theorem IsMemberOf.unique (hc : m.IsMemberOf c) (hd : m.IsMemberOf d) : c = d := by
  obtain ⟨b, hmb, hbc⟩ := hc.parent
  obtain ⟨b', hmb', hbd⟩ := hd.parent
  obtain rfl : b = b' := Option.some.inj (hmb.symm.trans hmb')
  exact Option.some.inj (hbc.symm.trans hbd)

theorem MemberRecords.imp {P : Node → Prop} {R S : Site → β → Prop} {xs : List β}
    (h : ∀ m x, R m x → S m x) : s.MemberRecords P R xs → s.MemberRecords P S xs := by
  rintro ⟨sites, henum, hxs⟩
  exact ⟨sites, henum, hxs.imp h⟩

theorem mem_members : m ∈ ClassRecord.members s ↔ m.IsMemberOf s := by
  unfold ClassRecord.members IsMemberOf
  cases s.part? "body" with
  | none => simp
  | some body => simp

theorem pairwise_precedes_members (s : Site) : (ClassRecord.members s).Pairwise Precedes := by
  unfold ClassRecord.members
  cases s.part? "body" with
  | none => exact .nil
  | some body =>
      refine (pairwise_position_namedChildren body).imp ?_
      rintro c d ⟨i, j, hij, hc, hd⟩
      rw [Precedes, hc, hd]
      exact List.append_left_lt (List.cons_lt_cons_iff.mpr (.inl hij))

/-- What is made of each member of some kind is recorded in the order of the members. -/
theorem memberRecords_filterMap {P : Node → Prop} {record? : Site → Option β}
    (hsome : ∀ m : Site, (record? m).isSome = true ↔ P m.node) (s : Site) :
    s.MemberRecords P (fun m x => record? m = some x)
      ((ClassRecord.members s).filterMap record?) := by
  refine ⟨(ClassRecord.members s).filter fun m => (record? m).isSome, ⟨fun m => ?_, ?_⟩,
    forall₂_filterMap record? _⟩
  · rw [List.mem_filter, mem_members, hsome]
  · exact (pairwise_precedes_members s).sublist List.filter_sublist

end Site

/-! ### Records of members -/

theorem memberName?_eq_some_iff {n : Node} {name : String} :
    memberName? t n = some name ↔ ∃ key, n.part? "name" = some key ∧
      (key.kind = "property_identifier" ∨ key.kind = "private_property_identifier") ∧
      t.text key = name := by
  unfold memberName?
  simp only [Option.map_eq_some_iff, Option.filter_eq_some_iff, Bool.or_eq_true, beq_iff_eq,
    and_assoc]

theorem FunctionRecord.ofMember?_eq_some {x : FunctionRecord} (h : ofMember? t m = some x) :
    t.NamesMember "method_definition" m.node x.name ∧ x.name ≠ "constructor" := by
  unfold ofMember? at h
  split at h
  next hk =>
      obtain ⟨name, hname, rfl⟩ := Option.map_eq_some_iff.mp h
      obtain ⟨hname, hne⟩ := Option.filter_eq_some_iff.mp hname
      exact ⟨⟨hk, memberName?_eq_some_iff.mp hname⟩, bne_iff_ne.mp hne⟩
  next => cases h

theorem FunctionRecord.isSome_ofMember? : (ofMember? t m).isSome = true ↔
    ∃ name, t.NamesMember "method_definition" m.node name ∧ name ≠ "constructor" := by
  constructor
  · intro h
    obtain ⟨x, hx⟩ := Option.isSome_iff_exists.mp h
    exact ⟨x.name, ofMember?_eq_some hx⟩
  · rintro ⟨name, ⟨hk, hkey⟩, hne⟩
    unfold ofMember?
    rw [if_pos hk, memberName?_eq_some_iff.mpr hkey, Option.filter_some,
      if_pos (by simpa using hne)]
    rfl

theorem PropertyRecord.ofMember?_eq_some {x : PropertyRecord} (h : ofMember? t m = some x) :
    t.NamesMember "public_field_definition" m.node x.name := by
  unfold ofMember? at h
  split at h
  next hk =>
      obtain ⟨name, hname, rfl⟩ := Option.map_eq_some_iff.mp h
      exact ⟨hk, memberName?_eq_some_iff.mp hname⟩
  next => cases h

theorem PropertyRecord.isSome_ofMember? : (ofMember? t m).isSome = true ↔
    ∃ name, t.NamesMember "public_field_definition" m.node name := by
  constructor
  · intro h
    obtain ⟨x, hx⟩ := Option.isSome_iff_exists.mp h
    exact ⟨x.name, ofMember?_eq_some hx⟩
  · rintro ⟨name, hk, hkey⟩
    unfold ofMember?
    rw [if_pos hk, memberName?_eq_some_iff.mpr hkey]
    rfl

/-- The methods and properties of a class are made of its members. -/
theorem ClassRecord.memberRecords {names : List String} {x : ClassRecord}
    (h : ofDeclaration? t names s = some x) :
    s.MemberRecords
      (fun n => ∃ name, t.NamesMember "method_definition" n name ∧ name ≠ "constructor")
      (fun m y => t.NamesMember "method_definition" m.node y.name ∧
        FunctionRecord.ofMember? t m = some y) x.methods ∧
    s.MemberRecords (fun n => ∃ name, t.NamesMember "public_field_definition" n name)
      (fun m y => t.NamesMember "public_field_definition" m.node y.name ∧
        PropertyRecord.ofMember? t m = some y) x.properties := by
  unfold ofDeclaration? at h
  split at h
  next =>
      obtain ⟨n, -, rfl⟩ := Option.map_eq_some_iff.mp h
      constructor
      · refine (Site.memberRecords_filterMap (fun m => FunctionRecord.isSome_ofMember?) s).imp ?_
        exact fun m y hy => ⟨(FunctionRecord.ofMember?_eq_some hy).1, hy⟩
      · refine (Site.memberRecords_filterMap (fun m => PropertyRecord.isSome_ofMember?) s).imp ?_
        exact fun m y hy => ⟨PropertyRecord.ofMember?_eq_some hy, hy⟩
  next => cases h

/-! ### Records of declarations -/

theorem FunctionRecord.map_name_ofDeclaration? {names : List String} (s : Site) :
    (ofDeclaration? t names s).map (·.name) =
      if s.node.kind ∈ ["function_declaration", "generator_function_declaration"] then
        t.declaredName? s.node
      else none := by
  unfold ofDeclaration? Tree.declaredName?
  split
  next => rw [Option.map_map]; rfl
  next => rfl

theorem ClassRecord.map_name_ofDeclaration? {names : List String} (s : Site) :
    (ofDeclaration? t names s).map (·.name) =
      if s.node.kind ∈ ["class_declaration", "abstract_class_declaration"] then
        t.declaredName? s.node
      else none := by
  unfold ofDeclaration? Tree.declaredName?
  split
  next => rw [Option.map_map]; rfl
  next => rfl

theorem InterfaceRecord.map_name_ofDeclaration? {names : List String} (n : Node) :
    (ofDeclaration? t names n).map (·.name) =
      if n.kind ∈ ["interface_declaration"] then t.declaredName? n else none := by
  unfold ofDeclaration? Tree.declaredName?
  simp only [List.mem_singleton]
  split
  next => rw [Option.map_map]; rfl
  next => rfl

theorem AliasRecord.map_name_ofDeclaration? {names : List String} (n : Node) :
    (ofDeclaration? t names n).map (·.name) =
      if n.kind ∈ ["type_alias_declaration"] then t.declaredName? n else none := by
  unfold ofDeclaration? Tree.declaredName?
  simp only [List.mem_singleton]
  split
  next => rw [Option.map_map]; rfl
  next => rfl

/-! ### Records of files -/

namespace FileRecord

/-- The declarations of a tree and their records.  Functions, classes, interfaces and type aliases
are recorded at any depth, each of them that has a name once, and in pre-order; and the methods and
properties of a class are those of its own members that have a plain name, constructors apart, in
the order of the source.  A walk with a stack, which begins with the root, makes the same
records. -/
theorem records_ofTree (path relativePath : String) (t : Tree) :
    let f := ofTree path relativePath t
    let names := Exported.names t
    t.Records ["function_declaration", "generator_function_declaration"]
      (fun s x => t.declaredName? s.node = some x.name ∧
        FunctionRecord.ofDeclaration? t names s = some x) f.functions ∧
    t.Records ["class_declaration", "abstract_class_declaration"]
      (fun s x => t.declaredName? s.node = some x.name ∧
        ClassRecord.ofDeclaration? t names s = some x ∧
        s.MemberRecords
          (fun n => ∃ name, t.NamesMember "method_definition" n name ∧ name ≠ "constructor")
          (fun m y => t.NamesMember "method_definition" m.node y.name ∧
            FunctionRecord.ofMember? t m = some y) x.methods ∧
        s.MemberRecords (fun n => ∃ name, t.NamesMember "public_field_definition" n name)
          (fun m y => t.NamesMember "public_field_definition" m.node y.name ∧
            PropertyRecord.ofMember? t m = some y) x.properties) f.classes ∧
    t.Records ["interface_declaration"]
      (fun s x => t.declaredName? s.node = some x.name ∧
        InterfaceRecord.ofDeclaration? t names s.node = some x) f.interfaces ∧
    t.Records ["type_alias_declaration"]
      (fun s x => t.declaredName? s.node = some x.name ∧
        AliasRecord.ofDeclaration? t names s.node = some x) f.aliases ∧
    (∀ m c d : Site, m.IsMemberOf c → m.IsMemberOf d → c = d) ∧
    ∃ sites, Site.Unstacks [.root t.root] sites ∧
      f.functions = sites.filterMap (FunctionRecord.ofDeclaration? t names) ∧
      f.classes = sites.filterMap (ClassRecord.ofDeclaration? t names) ∧
      f.interfaces = sites.filterMap (fun s => InterfaceRecord.ofDeclaration? t names s.node) ∧
      f.aliases = sites.filterMap (fun s => AliasRecord.ofDeclaration? t names s.node) := by
  refine ⟨?_, ?_, ?_, ?_, fun m c d => Site.IsMemberOf.unique,
    t.root.sites, Node.unstacks_sites.mpr rfl, rfl, rfl, rfl, rfl⟩
  · exact t.records_filterMap FunctionRecord.map_name_ofDeclaration?
  · refine Tree.Records.imp (fun s x hx => ?_)
      (t.records_filterMap ClassRecord.map_name_ofDeclaration?)
    exact ⟨hx.1, hx.2, ClassRecord.memberRecords hx.2⟩
  · exact t.records_filterMap fun s => InterfaceRecord.map_name_ofDeclaration? s.node
  · exact t.records_filterMap fun s => AliasRecord.map_name_ofDeclaration? s.node

/-- A tree of a class within a method of another class. -/
def nestedClass : Tree where
  source := .ofBytes "class A { m() { class B { n() {} } } }".toUTF8
  root :=
    let method (name : Nat) (start stop : Nat) (statements : List Node) : Node :=
      .onLine "method_definition" none start stop
        [.onLine "property_identifier" (some "name") name (name + 1) [],
          .onLine "statement_block" (some "body") (name + 4) stop statements]
    let declaration (name : Nat) (start stop : Nat) (members : List Node) : Node :=
      .onLine "class_declaration" none start stop
        [.wordOnLine "class" start (start + 5),
          .onLine "type_identifier" (some "name") name (name + 1) [],
          .onLine "class_body" (some "body") (name + 2) stop members]
    .onLine "program" none 0 38
      [declaration 6 0 38 [method 10 10 36 [declaration 22 16 34 [method 26 26 32 []]]]]

/-- The method of the inner class is one of that class alone, and neither method is a function. -/
theorem records_ofTree_nestedClass :
    (ofTree "" "" nestedClass).classes.map (fun c => (c.name, c.methods.map (·.name))) =
      [("A", ["m"]), ("B", ["n"])] ∧
    (ofTree "" "" nestedClass).functions = [] ∧
    nestedClass.Records ["function_declaration", "generator_function_declaration"]
      (fun s x => nestedClass.declaredName? s.node = some x.name ∧
        FunctionRecord.ofDeclaration? nestedClass (Exported.names nestedClass) s = some x)
      (ofTree "" "" nestedClass).functions :=
  ⟨by decide +kernel, by decide +kernel, (records_ofTree "" "" nestedClass).1⟩

end FileRecord

end CodeSurvey
