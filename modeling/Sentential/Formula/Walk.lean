import Sentential.Formula.Eval
import Sentential.Formula.Nodes

/-! # Walking a table

What a formula means, which variables it has and how it is written can be read off its table. A walk
starts at an index and goes on to the operands of the node there. It looks every index up, and ends
without a result where there is no node; it also does when `fuel` nodes have been visited one below
the other.
-/

namespace Sentential

namespace Node

/-- The truth value at an index. Where the first side decides, the other is not visited; of a
    converse implication the right side comes first. -/
def evalAt (valuation : Valuation) (table : List Node) : Nat → Nat → Option Bool
  | 0, _ => none
  | fuel + 1, index =>
    match table[index]? with
    | none => none
    | some (.atom name) => some (valuation.value name)
    | some (.not operand) => do
      return !(← evalAt valuation table fuel operand)
    | some (.binary .and left right) => do
      if ← evalAt valuation table fuel left then evalAt valuation table fuel right else return false
    | some (.binary .or left right) => do
      if ← evalAt valuation table fuel left then return true else evalAt valuation table fuel right
    | some (.binary .implies left right) => do
      if ← evalAt valuation table fuel left then evalAt valuation table fuel right else return true
    | some (.binary .impliedBy left right) => do
      if ← evalAt valuation table fuel right then evalAt valuation table fuel left else return true
    | some (.binary .iff left right) => do
      return (← evalAt valuation table fuel left) == (← evalAt valuation table fuel right)

/-- Adds the name of an atom to the variables found so far, unless it is a constant or there. -/
def collect (found : List String) (name : String) : List String :=
  if isLiteral name || found.contains name then found else found ++ [name]

/-- The variables found so far and those from an index on. -/
def symbolsAt (table : List Node) : Nat → Nat → List String → Option (List String)
  | 0, _, _ => none
  | fuel + 1, index, found =>
    match table[index]? with
    | none => none
    | some (.atom name) => some (collect found name)
    | some node => node.operands.foldlM (fun found operand => symbolsAt table fuel operand found) found

def linearFormAt (table : List Node) : Nat → Nat → String → Option String
  | 0, _, _ => none
  | fuel + 1, index, written => do
    let node ← table[index]?
    let written ←
      match node with
      | .atom name => some (written ++ name)
      | _ => node.operands.foldlM (fun written operand => linearFormAt table fuel operand written) written
    match node.connective? with
    | none => return written
    | some connective => return written.push connective.symbol

end Node

end Sentential
