import Sentential.Formula

/-! # Truth

A valuation gives some names a truth value. A formula has a truth value under every valuation: a name
without a value is false, except that of the true constant. The names of the constants may be given
values like any other.
-/

namespace Sentential

/-- Truth values for some names. -/
abbrev Valuation := String → Option Bool

namespace Valuation

def empty : Valuation := fun _ => none

def bind (valuation : Valuation) (name : String) (value : Bool) : Valuation :=
  fun other => if other = name then some value else valuation other

/-- The values of a list of pairs; of two pairs with one name the later counts. -/
def ofList (pairs : List (String × Bool)) : Valuation :=
  pairs.foldl (fun valuation pair => valuation.bind pair.1 pair.2) empty

def value (valuation : Valuation) (name : String) : Bool :=
  (valuation name).getD (name == trueName)

end Valuation

def Formula.eval (valuation : Valuation) : Formula → Bool
  | .atom name => valuation.value name
  | .not operand => !operand.eval valuation
  | .binary op left right => op.apply (left.eval valuation) (right.eval valuation)

end Sentential
