/-! # Connectives

The six connectives of the sentential calculus, the symbol each one is written with, and the words
that stand for it in plain text. A symbol always stands alone, so it is looked up by character;
a word is an alias only as a whole, in any letter case.
-/

namespace Sentential

inductive BinaryOp where
  | and
  | or
  | implies
  /-- The left side is implied by the right side. -/
  | impliedBy
  | iff
  deriving DecidableEq, Repr, Inhabited

inductive Connective where
  | not
  | binary (op : BinaryOp)
  deriving DecidableEq, Repr, Inhabited

namespace BinaryOp

def all : List BinaryOp := [.and, .or, .implies, .impliedBy, .iff]

def symbol : BinaryOp → Char
  | .and => '∧'
  | .or => '∨'
  | .implies => '→'
  | .impliedBy => '←'
  | .iff => '↔'

/-- The name of a binary connective in diagnostic records. -/
def name : BinaryOp → String
  | .and => "And"
  | .or => "Or"
  | .implies => "Imply"
  | .impliedBy => "Converse"
  | .iff => "Xnor"

def apply : BinaryOp → Bool → Bool → Bool
  | .and, a, b => a && b
  | .or, a, b => a || b
  | .implies, a, b => !a || b
  | .impliedBy, a, b => a || !b
  | .iff, a, b => a == b

end BinaryOp

namespace Connective

def all : List Connective := .not :: BinaryOp.all.map .binary

def symbol : Connective → Char
  | .not => '¬'
  | .binary op => op.symbol

def name : Connective → String
  | .not => "Not"
  | .binary op => op.name

def ofSymbol? (c : Char) : Option Connective :=
  all.find? fun connective => connective.symbol == c

/-- The words and arrows that stand for connectives, in lower case. -/
def aliases : List (String × Connective) :=
  [("or", .binary .or), ("and", .binary .and), ("not", .not),
   ("implies", .binary .implies), ("impl", .binary .implies), ("->", .binary .implies),
   ("<->", .binary .iff), ("==", .binary .iff), ("<-", .binary .impliedBy)]

/-- The connective that a whole word is an alias of, in any letter case. Folding the case of the
    ASCII letters is enough: no character outside ASCII has the lower case form of a letter that
    occurs in an alias. -/
def ofAlias? (word : List Char) : Option Connective :=
  aliases.lookup (String.ofList (word.map Char.toLower))

theorem mem_all (connective : Connective) : connective ∈ all := by
  cases connective with
  | not => decide
  | binary op => cases op <;> decide

@[simp] theorem ofSymbol?_symbol (connective : Connective) :
    ofSymbol? connective.symbol = some connective := by
  cases connective with
  | not => decide
  | binary op => cases op <;> decide

end Connective

end Sentential
