import Sentential.Formula.Nodes

/-! # The post-order listing of a formula

The listing of a formula names its nodes one after the other, operands before the nodes that use them
and left before right.  The listing of a part is a stretch of the listing of the whole, so it is given
from the index at which that stretch starts; its root is the last index of the stretch.

Storing a formula in a table appends its listing and gives back the index of its root
(`store_eq_postorder`).
-/

namespace Sentential

namespace Formula

def size : Formula → Nat
  | .atom _ => 1
  | .not operand => operand.size + 1
  | .binary _ left right => left.size + right.size + 1

/-- The nodes of a formula in post-order, with indices from `start`. -/
def postorder (start : Nat) : Formula → List Node
  | .atom name => [.atom name]
  | .not operand => operand.postorder start ++ [.not (start + operand.size - 1)]
  | .binary op left right =>
    left.postorder start ++ right.postorder (start + left.size) ++
      [.binary op (start + left.size - 1) (start + left.size + right.size - 1)]

theorem size_pos (formula : Formula) : 0 < formula.size := by
  cases formula <;> simp [size]

@[simp] theorem length_postorder (start : Nat) (formula : Formula) :
    (formula.postorder start).length = formula.size := by
  induction formula generalizing start with
  | atom name => rfl
  | not operand ih => simp [postorder, size, ih]
  | binary op left right leftIh rightIh =>
    simp [postorder, size, leftIh, rightIh]
    omega

theorem store_eq_postorder (formula : Formula) (table : List Node) :
    formula.store table =
      (table ++ formula.postorder table.length, table.length + formula.size - 1) := by
  induction formula generalizing table with
  | atom name => simp [store, postorder, size]
  | not operand ih => simp [store, ih, postorder, size]
  | binary op left right leftIh rightIh =>
    simp only [store, leftIh, rightIh, postorder, size, List.length_append, length_postorder,
      List.append_assoc, Prod.mk.injEq, true_and]
    omega

theorem nodes_eq_postorder (formula : Formula) : formula.nodes = formula.postorder 0 := by
  simp [nodes, store_eq_postorder]

theorem length_nodes (formula : Formula) : formula.nodes.length = formula.size := by
  rw [nodes_eq_postorder, length_postorder]

theorem root_eq_size_sub_one (formula : Formula) : formula.root = formula.size - 1 := by
  simp [root, store_eq_postorder]

end Formula

end Sentential
