import Sentential.Connective

/-! # Tokens

A token is a word, a connective or a parenthesis, together with the place where it starts. Places
are counted in bytes of the text in UTF-8.
-/

namespace Sentential

inductive Lexeme where
  | word (name : String)
  | operator (connective : Connective)
  | openParen
  | closeParen
  deriving DecidableEq, Repr, Inhabited

structure Token where
  lexeme : Lexeme
  /-- The number of bytes before the token. -/
  offset : Nat
  deriving DecidableEq, Repr, Inhabited

namespace Lexeme

def isParen : Lexeme → Bool
  | .openParen | .closeParen => true
  | .word _ | .operator _ => false

def ofChar? (c : Char) : Option Lexeme :=
  if c = '(' then some .openParen
  else if c = ')' then some .closeParen
  else (Connective.ofSymbol? c).map .operator

def ofRun (run : List Char) : Lexeme :=
  match Connective.ofAlias? run with
  | some connective => .operator connective
  | none => .word (String.ofList run)

end Lexeme

end Sentential
