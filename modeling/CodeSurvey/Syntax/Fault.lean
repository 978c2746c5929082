import CodeSurvey.Syntax.Node

/-! # The first error of a tree

`Node.firstFault?` looks for the first error in pre-order.  It enters only nodes that
are marked as faulty or lacking; the nodes still to be entered wait on a stack.  A node that is
taken off it is larger than its children together (`sizeOf_suspects_lt`), so the search ends. -/

namespace CodeSurvey
namespace Node

/-- Whether an error is looked for at a node or below it. -/
def isSuspect (n : Node) : Bool := n.faulty || n.missing

/-- The children at or below which an error is looked for. -/
def suspects (n : Node) : List Node := n.children.filter (·.isSuspect)

theorem sizeOf_append (ns ms : List Node) :
    sizeOf (ns ++ ms) + 1 = sizeOf ns + sizeOf ms := by
  induction ns with
  | nil => rw [List.nil_append, List.nil.sizeOf_spec, Nat.add_comm]
  | cons n rest ih =>
    rw [List.cons_append, List.cons.sizeOf_spec, List.cons.sizeOf_spec]
    omega

theorem sizeOf_reverse (ns : List Node) : sizeOf ns.reverse = sizeOf ns := by
  induction ns with
  | nil => rfl
  | cons n rest ih =>
    have happend := sizeOf_append rest.reverse [n]
    rw [List.cons.sizeOf_spec, List.nil.sizeOf_spec] at happend
    rw [List.reverse_cons, List.cons.sizeOf_spec]
    omega

theorem sizeOf_filter_le (p : Node → Bool) (ns : List Node) :
    sizeOf (ns.filter p) ≤ sizeOf ns := by
  induction ns with
  | nil => exact Nat.le_refl _
  | cons n rest ih =>
    rw [List.filter_cons, List.cons.sizeOf_spec]
    split
    · rw [List.cons.sizeOf_spec]
      omega
    · omega

theorem sizeOf_suspects_lt (n : Node) : sizeOf n.suspects < sizeOf n := by
  have hle := sizeOf_filter_le (·.isSuspect) n.children
  have hlt : sizeOf n.children < sizeOf n := by
    cases n
    rw [Node.mk.sizeOf_spec]
    dsimp only
    omega
  exact Nat.lt_of_le_of_lt hle hlt

/-- The first error at the nodes on a stack or below them; the last node is looked at first. -/
def faultOn? (stack : Array Node) : Option Node :=
  match _top : stack.back? with
  | none => none
  | some n =>
    if n.isFault then some n
    else faultOn? (stack.pop ++ n.suspects.reverse)
termination_by sizeOf stack.toList
decreasing_by
  obtain ⟨rest, rfl⟩ := Array.back?_eq_some_iff.1 _top
  have hlt := n.sizeOf_suspects_lt
  have hbelow := sizeOf_append rest.toList n.suspects.reverse
  have htop := sizeOf_append rest.toList [n]
  rw [sizeOf_reverse] at hbelow
  rw [List.cons.sizeOf_spec, List.nil.sizeOf_spec] at htop
  rw [Array.pop_push, Array.toList_appendList, Array.toList_push]
  omega

theorem faultOn?_empty : faultOn? #[] = none := by
  rw [faultOn?]
  rfl

theorem faultOn?_push (stack : Array Node) (n : Node) :
    faultOn? (stack.push n) =
      if n.isFault then some n else faultOn? (stack ++ n.suspects.reverse) := by
  rw [faultOn?]
  split
  next h => simp at h
  next m h =>
    obtain rfl : n = m := by simpa using h
    rw [Array.pop_push]

/-- The first error of a tree; the root itself if it is marked for no visible reason. -/
def firstFault? (root : Node) : Option Node :=
  if root.faulty then some ((faultOn? #[root]).getD root) else none

end Node
end CodeSurvey
