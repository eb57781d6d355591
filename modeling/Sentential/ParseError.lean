/-! # Parse errors

Reading a text as tokens, nesting them and splitting them by precedence accepts anything. What fails
is the check that every list of phrases has the shape of a formula, and there is one error for each
kind of shape that is wrong.
-/

namespace Sentential

/-- Why a text is not a formula. A place is the number of bytes before the operator at fault. -/
inductive ParseError where
  | emptyExpression
  | operatorWithoutOperand (offset : Nat)
  /-- Two phrases are not a negation and its operand. -/
  | malformedUnary (offset : Option Nat)
  /-- Three phrases are not a binary connective between its operands. -/
  | malformedBinary (offset : Option Nat)
  /-- More than three phrases stand side by side. -/
  | malformedExpression
  deriving DecidableEq, Repr, Inhabited

namespace ParseError

def message : ParseError → String
  | .emptyExpression => "empty expression"
  | .operatorWithoutOperand _ => "operator has no operand"
  | .malformedUnary _ => "malformed unary operator"
  | .malformedBinary _ => "malformed binary operator"
  | .malformedExpression => "malformed expression"

def offset? : ParseError → Option Nat
  | .operatorWithoutOperand offset => some offset
  | .malformedUnary offset | .malformedBinary offset => offset
  | .emptyExpression | .malformedExpression => none

end ParseError

end Sentential
