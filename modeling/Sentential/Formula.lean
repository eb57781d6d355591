import Sentential.Connective

/-! # Formulas

The formulas of the sentential calculus: atoms, negations, and pairs of formulas joined by a binary
connective. The atoms named `1` and `0` are the two constants; every other name is a variable.
-/

namespace Sentential

inductive Formula where
  | atom (name : String)
  | not (operand : Formula)
  | binary (op : BinaryOp) (left right : Formula)
  deriving DecidableEq, Repr, Inhabited

def trueName : String := "1"

def falseName : String := "0"

def isLiteral (name : String) : Bool :=
  name == trueName || name == falseName

namespace Formula

def names : Formula → List String
  | .atom name => [name]
  | .not operand => operand.names
  | .binary _ left right => left.names ++ right.names

/-- The variables, each at its first occurrence from left to right. -/
def symbols (formula : Formula) : List String :=
  (formula.names.filter fun name => !isLiteral name).eraseDups

/-- The formula with every connective after its operands, and nothing between the parts. -/
def linearForm : Formula → String
  | .atom name => name
  | .not operand => operand.linearForm.push Connective.not.symbol
  | .binary op left right => (left.linearForm ++ right.linearForm).push op.symbol

end Formula

end Sentential
