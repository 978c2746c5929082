import CodeSurvey.Extraction.Source
import CodeSurvey.Proofs.Thinned

/-! # The first error of a tree in pre-order

`Node.firstFault?` passes over the nodes that are not marked as faulty or lacking.  Where the marks
tell the truth (`Node.IsMarked`) this makes no difference.

* `find?_within`: an error at a node or below it is found at the node itself or below its suspect
  children;
* `faultOn?_eq`: the search with a stack finds the first error of the nodes on it, from the top
  down, each before its children and the children from left to right;
* `firstFault?_eq`: so what is found is the first error in pre-order, and the root is never given
  instead of an error. -/

namespace CodeSurvey
namespace Node

variable {n : Node}

/-! ### All nodes of a tree -/

mutual

/-- A node and all nodes below it, in pre-order. -/
def within : Node → List Node
  | ⟨kind, named, field, start, stop, missing, faulty, children⟩ =>
    ⟨kind, named, field, start, stop, missing, faulty, children⟩ :: withinAll children

/-- Siblings and all nodes below them, in pre-order. -/
def withinAll : List Node → List Node
  | [] => []
  | c :: rest => within c ++ withinAll rest

end

theorem withinAll_eq (cs : List Node) : withinAll cs = cs.flatMap within := by
  induction cs with
  | nil => rfl
  | cons c rest ih => rw [withinAll, ih, List.flatMap_cons]

theorem within_eq (n : Node) : n.within = n :: n.children.flatMap within := by
  cases n
  rw [within, withinAll_eq]

/-- Whether a node is marked just if there is an error at it or below it. -/
def IsMarked (n : Node) : Prop := n.faulty = true ↔ ∃ m ∈ n.within, m.isFault = true

/-! ### What is passed over -/

theorem IsMarked.find?_eq_none (h : n.IsMarked) (hs : n.isSuspect = false) :
    n.within.find? (·.isFault) = none := by
  rw [List.find?_eq_none]
  intro m hm hfault
  have hfaulty : n.faulty = true := h.mpr ⟨m, hm, hfault⟩
  rw [isSuspect, hfaulty, Bool.true_or] at hs
  cases hs

/-- No error is missed among siblings if only the suspect ones are entered. -/
theorem find?_flatMap_suspects {cs : List Node} (h : ∀ c ∈ cs, c.IsMarked) :
    ((cs.filter (·.isSuspect)).flatMap within).find? (·.isFault) =
      (cs.flatMap within).find? (·.isFault) := by
  induction cs with
  | nil => rfl
  | cons c rest ih =>
      rw [List.forall_mem_cons] at h
      rw [List.flatMap_cons, List.find?_append, ← ih h.2]
      cases hs : c.isSuspect with
      | true => rw [List.filter_cons_of_pos hs, List.flatMap_cons, List.find?_append]
      | false =>
          rw [List.filter_cons_of_neg (by simp [hs]), h.1.find?_eq_none hs, Option.none_or]

theorem find?_within (h : n.Everywhere IsMarked) :
    n.within.find? (·.isFault) =
      if n.isFault then some n else (n.suspects.flatMap within).find? (·.isFault) := by
  rw [within_eq, suspects, find?_flatMap_suspects fun c hc => (h.of_mem hc).here]
  cases hn : n.isFault with
  | true => rw [List.find?_cons_of_pos hn, if_pos rfl]
  | false => rw [List.find?_cons_of_neg (by simp [hn]), if_neg Bool.false_ne_true]

/-! ### The search -/

/-- The search finds the first error at or below the nodes on the stack, from the top down. -/
theorem faultOn?_eq (stack : Array Node) (h : ∀ n ∈ stack.toList, n.Everywhere IsMarked) :
    faultOn? stack = (stack.toList.reverse.flatMap within).find? (·.isFault) := by
  induction stack using faultOn?.induct with
  | case1 stack hempty =>
      rw [Array.back?_eq_none_iff] at hempty
      rw [hempty, faultOn?_empty]
      rfl
  | case2 stack n htop hn =>
      obtain ⟨rest, rfl⟩ := Array.back?_eq_some_iff.mp htop
      rw [Array.toList_push, List.forall_mem_append] at h
      have hmarked := h.2 n (List.mem_singleton_self n)
      rw [faultOn?_push, if_pos hn, Array.toList_push, List.reverse_append, List.reverse_singleton,
        List.singleton_append, List.flatMap_cons, List.find?_append, find?_within hmarked,
        if_pos hn, Option.some_or]
  | case3 stack n htop hn ih =>
      obtain ⟨rest, rfl⟩ := Array.back?_eq_some_iff.mp htop
      rw [Array.toList_push, List.forall_mem_append] at h
      have hmarked := h.2 n (List.mem_singleton_self n)
      have hpushed : ∀ m ∈ (rest ++ n.suspects.reverse).toList, m.Everywhere IsMarked := by
        intro m hm
        rw [Array.toList_appendList, List.mem_append, List.mem_reverse] at hm
        rcases hm with hm | hm
        · exact h.1 m hm
        · exact hmarked.of_mem (List.mem_of_mem_filter hm)
      rw [Array.pop_push] at ih
      rw [faultOn?_push, if_neg hn, ih hpushed, Array.toList_push, Array.toList_appendList,
        List.reverse_append, List.reverse_reverse, List.reverse_append, List.reverse_singleton,
        List.flatMap_append, List.singleton_append, List.flatMap_cons, List.find?_append,
        List.find?_append, find?_within hmarked, if_neg hn]

theorem faultOn?_root (h : n.Everywhere IsMarked) :
    faultOn? #[n] = n.within.find? (·.isFault) := by
  have hstack := faultOn?_eq #[n] (by simpa using h)
  simpa using hstack

/-- Where the marks tell the truth, the search finds the first error of the tree in pre-order, and
there is one just if it finds one: a marked root is never given for want of an error.  So a source
has a record just if there is no error in its tree, and else the place of the first one is told. -/
theorem firstFault?_eq (h : n.Everywhere IsMarked) :
    n.firstFault? = n.within.find? (·.isFault) ∧
    (n.firstFault?.isSome ↔ ∃ m ∈ n.within, m.isFault) ∧
    (n.faulty = true → ∃ m ∈ n.within, m.isFault ∧ faultOn? #[n] = some m) ∧
    ∀ path relativePath source, FileRecord.ofTree? path relativePath ⟨source, n⟩ =
      match n.within.find? (·.isFault) with
      | some m => .error (.malformed path (m.start.row + 1) (m.start.column + 1))
      | none => .ok (.ofTree path relativePath ⟨source, n⟩) := by
  have hmark : n.faulty = true ↔ ∃ m ∈ n.within, m.isFault = true := h.here
  have hfound : n.faulty = true → ∃ m ∈ n.within, m.isFault = true ∧ faultOn? #[n] = some m := by
    intro hfaulty
    obtain ⟨m, hm⟩ := Option.isSome_iff_exists.mp (List.find?_isSome.mpr (hmark.mp hfaulty))
    have hfault : m.isFault = true := List.find?_some (p := isFault) hm
    exact ⟨m, List.mem_of_find?_eq_some hm, hfault, (faultOn?_root h).trans hm⟩
  have heq : n.firstFault? = n.within.find? (·.isFault) := by
    rw [firstFault?]
    split
    next hfaulty =>
        obtain ⟨m, -, -, hm⟩ := hfound hfaulty
        rw [← faultOn?_root h, hm, Option.getD_some]
    next hfaulty =>
        rw [eq_comm, List.find?_eq_none]
        exact fun m hm hfault => hfaulty (hmark.mpr ⟨m, hm, hfault⟩)
  refine ⟨heq, ?_, hfound, fun path relativePath source => ?_⟩
  · rw [heq, List.find?_isSome]
  · rw [← heq]
    rfl

/-- The tree of a text with a sound statement, one that lacks its semicolon, and one with text in it
that fits nothing, in which there is some more. -/
def faultyTree : Node :=
  let node (kind : String) (named : Bool) (start stop : Nat) (missing faulty : Bool)
      (children : List Node) : Node :=
    ⟨kind, named, none, ⟨start, 0, start⟩, ⟨stop, 0, stop⟩, missing, faulty, children⟩
  node "program" true 0 20 false true
    [node "expression_statement" true 0 2 false false
      [node "identifier" true 0 1 false false [], node ";" false 1 2 false false []],
     node "expression_statement" true 3 4 false true
      [node "identifier" true 3 4 false false [], node ";" false 4 4 true true []],
     node "ERROR" true 5 20 false true
      [node "identifier" true 5 6 false false [], node "ERROR" true 7 20 false true []]]

/-- The lacking semicolon comes first, although it is no child of the root. -/
theorem firstFault?_eq_faultyTree :
    faultyTree.Everywhere IsMarked ∧
    (faultyTree.within.filter (·.isFault)).map (·.start.byte) = [4, 5, 7] ∧
    (faultyTree.firstFault?.map fun m => (m.kind, m.start.byte)) = some (";", 4) := by
  have h : faultyTree.Everywhere IsMarked := by
    simp [faultyTree, Node.everywhere_mk, IsMarked, within, withinAll, isFault, errorKind]
  refine ⟨h, by decide, ?_⟩
  rw [(firstFault?_eq h).1]
  decide

end Node
end CodeSurvey
