import Sentential.Formula.Eval

/-! # Truth tables

A truth table lists a formula's value for every choice of values for its variables. The rows count
upwards in binary, with the first variable as the lowest digit. A formula with more variables than
`TruthTable.maxSymbols` gets an empty table.
-/

namespace Sentential

structure TruthTable.Row where
  inputs : List Bool
  output : Bool
  deriving DecidableEq, Repr, Inhabited

structure TruthTable where
  header : List String
  rows : List TruthTable.Row
  deriving DecidableEq, Repr, Inhabited

namespace TruthTable

/-- The number of variables beyond which no rows are listed. -/
def maxSymbols : Nat := 4

/-- The lowest `width` binary digits of a number, the lowest first. -/
def digits (width counter : Nat) : List Bool :=
  (List.range width).map counter.testBit

def Row.ofInputs (formula : Formula) (header : List String) (inputs : List Bool) : Row :=
  ⟨inputs, formula.eval (Valuation.ofList (header.zip inputs))⟩

def ofFormula (formula : Formula) : TruthTable :=
  let header := formula.symbols
  if header.length ≤ maxSymbols then
    ⟨header, (List.range (Nat.pow 2 header.length)).map fun counter =>
      Row.ofInputs formula header (digits header.length counter)⟩
  else
    ⟨[], []⟩

/-- Whether a table has no rows, which is so only for a formula with too many variables. -/
def isEmpty (table : TruthTable) : Bool :=
  table.rows.isEmpty

/-! ## Writing tables

Every name is followed by a space. The value of a variable stands under the last character of its
name, and the formula's value behind a bar. Widths are counted in characters. -/

def digit : Bool → Char
  | true => '1'
  | false => '0'

def headerLine (table : TruthTable) : String :=
  String.join (table.header.map fun name => name ++ " ") ++ "|"

/-- The cell of a value under a name of `width` characters. -/
def cell (width : Nat) (value : Bool) : String :=
  String.ofList (List.leftpad width ' ' [digit value] ++ [' '])

def Row.line (widths : List Nat) (row : Row) : String :=
  String.join (List.zipWith cell widths row.inputs) ++ "| " ++ String.singleton (digit row.output)

def lines (table : TruthTable) : List String :=
  table.headerLine :: table.rows.map (Row.line (table.header.map String.length))

def display (table : TruthTable) : String :=
  String.join (table.lines.map fun line => line ++ "\n")

end TruthTable

end Sentential
