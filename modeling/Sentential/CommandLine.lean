import Sentential.CommandLine.Request
import Sentential.Formula.Parse
import Sentential.Json
import Sentential.TruthTable

/-! # The command

The command reads a formula from its arguments and prints its truth value under the bindings that are
given, or its truth table, as plain text or as JSON.
-/

namespace Sentential

def TruthTable.toJson (table : TruthTable) : Json :=
  .object [
    ("header", .array (table.header.map .string)),
    ("rows", .array (table.rows.map fun row =>
      .object [("inputs", .array (row.inputs.map .bool)), ("output", .bool row.output)]))]

namespace CommandLine

def tableAnswer (json : Bool) (formula : Formula) : String :=
  let table := TruthTable.ofFormula formula
  if json then
    table.toJson.pretty 0 ++ "\n"
  else if table.isEmpty then
    "too many variables to tabulate: " ++ " ".intercalate formula.symbols ++ "\n"
  else
    table.display

def valueAnswer (json : Bool) (valuation : Valuation) (formula : Formula) : String :=
  let value := formula.eval valuation
  if json then
    (Json.object [("formula", .string formula.linearForm), ("result", .bool value)]).pretty 0 ++ "\n"
  else
    formula.linearForm ++ "\n" ++ toString value ++ "\n"

/-- The message about a formula that could not be read. -/
def rejection (text : String) (error : ParseError) : String :=
  let place := match error.offset? with
    | some offset => " (at byte " ++ toString offset ++ ")"
    | none => ""
  Text.quoted text ++ ": " ++ error.message ++ place ++ "\n"

def Request.outcome (request : Request) : Outcome :=
  match Formula.parse request.formula with
  | .error error => .rejected (rejection request.formula error)
  | .ok formula =>
    let json := request.settings.contains .json
    if request.settings.contains .table then
      .answer (tableAnswer json formula)
    else
      .answer (valueAnswer json (Valuation.ofList request.bindings) formula)

def run (arguments : List String) : Outcome :=
  match Request.ofArguments arguments with
  | .ok request => request.outcome
  | .error outcome => outcome

end CommandLine

end Sentential
