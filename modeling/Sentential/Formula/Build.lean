import Sentential.Formula.Nodes

/-! # Building a table in one pass

A phrase can be laid out as nodes while its shape is checked, without making the formula first. The table
goes through all parts of the phrase in turn: each of them adds its nodes and gives back the index of its
root, for the node that has the part as its operand. The shapes that are asked for and the errors are those
of `Formula.ofPhrase`.
-/

namespace Sentential

namespace Node

/-- Adds a node to a table. The second component is its index. -/
def push (node : Node) (table : List Node) : List Node × Nat :=
  (table ++ [node], table.length)

mutual

/-- Adds the nodes of a phrase to a table. The second component is the index of its root. -/
def buildPhrase : Phrase → List Node → Except ParseError (List Node × Nat)
  | .word name, table => .ok (push (.atom name) table)
  | .operator _ offset, _ => .error (.operatorWithoutOperand offset)
  | .group members, table => buildMembers members table

def buildMembers : List Phrase → List Node → Except ParseError (List Node × Nat)
  | [], _ => .error .emptyExpression
  | [phrase], table => buildPhrase phrase table
  | [first, second], table =>
    match first with
    | .operator .not offset =>
      if second.isOperator then
        .error (.malformedUnary (some offset))
      else do
        let (table, operand) ← buildPhrase second table
        return push (.not operand) table
    | _ => .error (.malformedUnary (first.offset?.or second.offset?))
  | [first, second, third], table =>
    match second with
    | .operator (.binary op) offset =>
      if first.isMissing || third.isMissing then
        .error (.malformedBinary (some offset))
      else do
        let (table, left) ← buildPhrase first table
        let (table, right) ← buildPhrase third table
        return push (.binary op left right) table
    | _ => .error (.malformedBinary ((second.offset?.or first.offset?).or third.offset?))
  | _ :: _ :: _ :: _ :: _, _ => .error .malformedExpression

end

end Node

end Sentential
