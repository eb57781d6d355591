import Sentential.Formula.Parse

/-! # Node tables

A formula can be laid out as a table of nodes that name their operands by their index, operands
before the nodes that use them and left before right. The root of a formula is then the last node
that it adds.
-/

namespace Sentential

/-- A node of a table; operands are given by their index. -/
inductive Node where
  | atom (name : String)
  | not (operand : Nat)
  | binary (op : BinaryOp) (left right : Nat)
  deriving DecidableEq, Repr, Inhabited

namespace Node

def connective? : Node → Option Connective
  | .atom _ => none
  | .not _ => some .not
  | .binary op _ _ => some (.binary op)

def operands : Node → List Nat
  | .atom _ => []
  | .not operand => [operand]
  | .binary _ left right => [left, right]

end Node

namespace Formula

/-- Adds a formula to a table: its operands first, then its own node. The second component is the
    index of that node. -/
def store : Formula → List Node → List Node × Nat
  | .atom name, table => (table ++ [.atom name], table.length)
  | .not operand, table =>
    let (table, operand) := operand.store table
    (table ++ [.not operand], table.length)
  | .binary op left right, table =>
    let (table, left) := left.store table
    let (table, right) := right.store table
    (table ++ [.binary op left right], table.length)

def nodes (formula : Formula) : List Node :=
  (formula.store []).1

def root (formula : Formula) : Nat :=
  (formula.store []).2

def storePhrase (phrase : Phrase) (table : List Node) : Except ParseError (List Node × Nat) :=
  (ofPhrase phrase).map fun formula => formula.store table

end Formula

end Sentential
