import Mathlib
import ItemSearch.Filter.Basic

/-!
# The nodes of a filter

A filter is walked through in one order only, each node before its operands and
the operands from left to right.  Here the nodes stand in a list in that order,
each with its depth, so that what is said of every node, of the nodes up to one,
or of the first node with a defect is said of a list.

## Main results

* `Filter.induction`: a property of filters, proved from operands to junctions.
* `conditions_eq_filterMap_nodesFrom`: the conditions are the leaves among the
  nodes.
* `nodesFrom_succ`: the nodes of a filter that stands one level deeper.
* `depth_le_iff`: how deep a filter nests, by its nodes.
-/

namespace ItemSearch.Filter

/-- What holds for conditions, and for a junction as soon as it holds for the
operands, holds for every filter. -/
theorem induction {P : Filter → Prop} (condition : ∀ c, P (.condition c))
    (junction : ∀ connective operands, (∀ f ∈ operands, P f) →
      P (.junction connective operands)) (f : Filter) : P f :=
  @Filter.rec P (fun operands => ∀ f ∈ operands, P f) condition
    (fun connective operands ih => junction connective operands ih) (by simp)
    (fun _ _ hhead htail => by simpa using ⟨hhead, htail⟩) f

mutual

/-- The nodes of a filter whose outermost node has the given depth, each with
its depth and before its operands. -/
def nodesFrom (depth : Nat) : Filter → List (Nat × Filter)
  | .condition c => [(depth, .condition c)]
  | .junction connective operands =>
      (depth, .junction connective operands) ::
        operandNodes (depth + 1) operands

/-- The nodes of some filters whose outermost nodes have the given depth. -/
def operandNodes (depth : Nat) : List Filter → List (Nat × Filter)
  | [] => []
  | f :: fs => nodesFrom depth f ++ operandNodes depth fs

end

/-- The nodes of a filter, each with its depth; the outermost node has depth
one. -/
def nodes (f : Filter) : List (Nat × Filter) :=
  nodesFrom 1 f

/-- The condition at a node, unless it is a junction. -/
def leaf? : Filter → Option Condition
  | .condition c => some c
  | .junction _ _ => none

theorem operandNodes_eq_flatMap (depth : Nat) (fs : List Filter) :
    operandNodes depth fs = fs.flatMap (nodesFrom depth) := by
  induction fs with
  | nil => simp [operandNodes]
  | cons f fs ih => simp [operandNodes, ih]

@[simp] theorem nodesFrom_condition (depth : Nat) (c : Condition) :
    nodesFrom depth (.condition c) = [(depth, .condition c)] := by
  simp [nodesFrom]

@[simp] theorem nodesFrom_junction (depth : Nat) (connective : Connective)
    (operands : List Filter) :
    nodesFrom depth (.junction connective operands) =
      (depth, .junction connective operands) ::
        operands.flatMap (nodesFrom (depth + 1)) := by
  rw [nodesFrom, operandNodes_eq_flatMap]

/-- The outermost node comes first. -/
theorem exists_nodesFrom_eq_cons (depth : Nat) (f : Filter) :
    ∃ rest, nodesFrom depth f = (depth, f) :: rest := by
  cases f with
  | condition c => exact ⟨[], nodesFrom_condition depth c⟩
  | junction connective operands =>
      exact ⟨_, nodesFrom_junction depth connective operands⟩

theorem conditions_eq_filterMap_nodesFrom (f : Filter) (depth : Nat) :
    f.conditions = (nodesFrom depth f).filterMap fun node => node.2.leaf? := by
  induction f using induction generalizing depth with
  | condition c => simp [leaf?]
  | junction connective operands ih =>
      rw [conditions_junction, nodesFrom_junction, List.filterMap_cons, leaf?,
        List.filterMap_flatMap]
      exact List.flatMap_congr fun f hf => ih f hf (depth + 1)

/-! ## Depth -/

/-- One level deeper, the same nodes come up in the same order. -/
theorem nodesFrom_succ (depth : Nat) (f : Filter) :
    nodesFrom (depth + 1) f = (nodesFrom depth f).map fun node =>
      (node.1 + 1, node.2) := by
  induction f using induction generalizing depth with
  | condition c => simp
  | junction connective operands ih =>
      rw [nodesFrom_junction, nodesFrom_junction, List.map_cons,
        List.map_flatMap]
      exact congrArg _ (List.flatMap_congr fun f hf => ih f hf (depth + 1))

mutual

/-- How deep a filter nests; a condition has depth one. -/
def depth : Filter → Nat
  | .condition _ => 1
  | .junction _ operands => operandDepth operands + 1

/-- How deep the deepest of some filters nests. -/
def operandDepth : List Filter → Nat
  | [] => 0
  | f :: fs => max f.depth (operandDepth fs)

end

theorem operandDepth_le_iff {fs : List Filter} {n : Nat} :
    operandDepth fs ≤ n ↔ ∀ f ∈ fs, f.depth ≤ n := by
  induction fs with
  | nil => simp [operandDepth]
  | cons f fs ih => rw [operandDepth, Nat.max_le, ih, List.forall_mem_cons]

/-- The depth is that of the deepest node, from wherever the levels are
counted. -/
theorem depth_le_iff {f : Filter} {n : Nat} (start : Nat) :
    f.depth ≤ n ↔ ∀ node ∈ nodesFrom start f, node.1 < start + n := by
  induction f using induction generalizing start n with
  | condition c =>
      rw [depth, nodesFrom_condition, List.forall_mem_singleton]
      show 1 ≤ n ↔ start < start + n
      omega
  | junction connective operands ih =>
      rw [depth, nodesFrom_junction, List.forall_mem_cons]
      cases n with
      | zero => simp
      | succ n =>
          have hlevel : start + 1 + n = start + (n + 1) := by omega
          have hhere : start < start + (n + 1) := by omega
          have hbelow : operandDepth operands ≤ n ↔
              ∀ f ∈ operands, ∀ node ∈ nodesFrom (start + 1) f,
                node.1 < start + (n + 1) := by
            rw [operandDepth_le_iff]
            exact forall₂_congr fun f hf => hlevel ▸ ih f hf (start + 1)
          rw [Nat.add_le_add_iff_right, hbelow]
          simp only [hhere, true_and, List.forall_mem_flatMap]

end ItemSearch.Filter
