import Sentential.Formula.Parse
import Sentential.Text.Quoted
import Sentential.TruthTable

/-! # Diagnostic records

What reading a text and tabulating the formula reports on the way: one record for each stage, with
the text as that stage leaves it. The records are computed from the stages themselves.
-/

namespace Sentential

inductive Level where
  | debug
  | trace
  deriving DecidableEq, Repr, Inhabited

def Level.name : Level → String
  | .debug => "DEBUG"
  | .trace => "TRACE"

structure Record where
  level : Level
  target : String
  message : String
  deriving DecidableEq, Repr, Inhabited

namespace Record

def showToken (token : Token) : String :=
  let place := "offset: " ++ toString token.offset ++ " \x7d"
  match token.lexeme with
  | .word name => "Ident \x7b name: " ++ Text.quoted name ++ ", " ++ place
  | .operator connective => "Connective \x7b connective: " ++ connective.name ++ ", " ++ place
  | .openParen => "LeftParenthesis \x7b " ++ place
  | .closeParen => "RightParenthesis \x7b " ++ place

def showList (items : List String) : String :=
  "[" ++ ", ".intercalate items ++ "]"

def ofTokens (text : String) (tokens : List Token) : Record :=
  ⟨.trace, "tokenize", Text.quoted text ++ " -> " ++ showList (tokens.map showToken)⟩

/-- The record of a closing parenthesis that had nothing to close. -/
def ofUnmatched (offset : Nat) : Record :=
  ⟨.trace, "group", "unmatched ')' at " ++ toString offset ++ ", regrouping"⟩

def ofNested (phrases : List Phrase) : Record :=
  ⟨.trace, "group", "grouped: " ++ Phrase.renderAll phrases⟩

def ofPass (connectives : List Connective) (phrases : List Phrase) : Record :=
  ⟨.trace, "precedence", showList (connectives.map Connective.name) ++ ": " ++ Phrase.renderAll phrases⟩

def ofFormula (text : String) (formula : Formula) : Record :=
  ⟨.trace, "reformat", Text.quoted text ++ " -> " ++ formula.linearForm⟩

def ofSymbols (symbols : List String) : Record :=
  ⟨.debug, "truth table", toString symbols.length ++ " free symbols, not enumerating over more than "
    ++ toString TruthTable.maxSymbols⟩

end Record

def TruthTable.records (formula : Formula) : List Record :=
  if formula.symbols.length ≤ maxSymbols then [] else [Record.ofSymbols formula.symbols]

def Formula.parseRecords (text : String) : List Record :=
  let tokens := Token.scan text
  let nesting := Nesting.ofTokens tokens
  let passes := Phrase.passes precedenceClasses (Phrase.bindNegations nesting.context)
  Record.ofTokens text tokens :: nesting.unmatched.map Record.ofUnmatched
    ++ Record.ofNested nesting.context :: passes.map (fun pass => Record.ofPass pass.1 pass.2)
    ++ match Formula.parse text with
      | .ok formula => [Record.ofFormula text formula]
      | .error _ => []

/-- The records of reading a text and, if it spells a formula, of tabulating that. -/
def Formula.records (text : String) : List Record :=
  Formula.parseRecords text
    ++ match Formula.parse text with
      | .ok formula => TruthTable.records formula
      | .error _ => []

end Sentential
