import Sentential.Formula
import Sentential.ParseError
import Sentential.Phrase.Negation
import Sentential.Phrase.Nesting
import Sentential.Phrase.Precedence
import Sentential.Token.Lexer

/-! # Reading formulas

A text is read as tokens, the tokens are nested by their parentheses, negations are bound, and the
phrases are split by precedence. Each list of phrases then holds a single phrase, a negation with its
operand, or a binary connective between its operands; `Formula.ofPhrase` builds the formula and
reports any other shape.
-/

namespace Sentential

namespace Phrase

/-- Whether a phrase cannot be an operand of a binary connective: an operator by itself, or an
    empty group. -/
def isMissing : Phrase → Bool
  | .word _ => false
  | .operator _ _ => true
  | .group members => members.isEmpty

end Phrase

namespace Formula

mutual

def ofPhrase : Phrase → Except ParseError Formula
  | .word name => .ok (.atom name)
  | .operator _ offset => .error (.operatorWithoutOperand offset)
  | .group members => ofMembers members

def ofMembers : List Phrase → Except ParseError Formula
  | [] => .error .emptyExpression
  | [phrase] => ofPhrase phrase
  | [first, second] =>
    match first with
    | .operator .not offset =>
      if second.isOperator then
        .error (.malformedUnary (some offset))
      else
        (ofPhrase second).map .not
    | _ => .error (.malformedUnary (first.offset?.or second.offset?))
  | [first, second, third] =>
    match second with
    | .operator (.binary op) offset =>
      if first.isMissing || third.isMissing then
        .error (.malformedBinary (some offset))
      else do
        let left ← ofPhrase first
        let right ← ofPhrase third
        return .binary op left right
    | _ => .error (.malformedBinary ((second.offset?.or first.offset?).or third.offset?))
  | _ :: _ :: _ :: _ :: _ => .error .malformedExpression

end

def ofPhrases (phrases : List Phrase) : Except ParseError Formula :=
  ofMembers (Phrase.splitAll (Phrase.bindNegations phrases))

def ofTokens (tokens : List Token) : Except ParseError Formula :=
  ofPhrases (Phrase.nest tokens)

def parse (text : String) : Except ParseError Formula :=
  ofTokens (Token.scan text)

end Formula

end Sentential
